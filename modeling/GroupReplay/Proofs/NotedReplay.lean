import GroupReplay.Proofs.Handing
import GroupReplay.Proofs.OpenLog

/-!
What a replay hands to its handler.  `noting` writes down beside the handler's own state what it is
handed and what it answers; a replay with notes ends like the replay without, in the same state, so
that the notes say what any replay hands over.
-/

namespace GroupReplay

open Wire Service Projection

variable {η θ : Type}

namespace Run

/-- A run under another token. -/
def under (token : Token) (run : Run η) : Run η := { run with token }

/-- A run with another local side and under another token. -/
def onto (view : η → θ) (token : Token) (run : Run η) : Run θ where
  service := run.service
  link := run.link
  requests := run.requests
  token := token
  calls := run.calls
  site := view run.site

@[simp] theorem under_service (token : Token) (run : Run η) :
    (run.under token).service = run.service := rfl

@[simp] theorem under_site (token : Token) (run : Run η) : (run.under token).site = run.site := rfl

@[simp] theorem onto_service (view : η → θ) (token : Token) (run : Run η) :
    (run.onto view token).service = run.service := rfl

theorem freed_onto (view : η → θ) (token : Token) (group : Option Bytes) (run : Run η) :
    (run.onto view token).freed group = (run.freed group).onto view token := by
  cases group <;> rfl

theorem freed_under (token : Token) (group : Option Bytes) (run : Run η) :
    (run.under token).freed group = (run.freed group).under token := by
  cases group <;> rfl

end Run

/-- How far something moves a token on. -/
inductive Pace where
  | rests
  | lists
  | applies

def Pace.move : Pace → Token → Token
  | rests => id
  | lists => Token.listed
  | applies => Token.applied

namespace Replay

variable [Store.LocalStore η] [Store.LocalStore θ]

/-- A handler does on what is seen of a local side what another one does on the whole of it, and so
do their stores. -/
structure Mirrors (view : η → θ) (whole : Handler η) (seen : Handler θ) : Prop where
  metadata : ∀ event site, (seen.applyMetadata event).run (view site) =
    (((whole.applyMetadata event).run site).1, view ((whole.applyMetadata event).run site).2)
  message : ∀ conversation event message site,
    (seen.applyMessage conversation event message).run (view site) =
      (((whole.applyMessage conversation event message).run site).1,
        view ((whole.applyMessage conversation event message).run site).2)
  recorded : seen.recorded = whole.recorded
  store : ∀ {α : Type} (op : Store.Op α) site, Store.LocalStore.perform op (view site) =
    ((Store.LocalStore.perform op site).1, view (Store.LocalStore.perform op site).2)
  observed : ∀ site, Store.LocalStore.recorded (view site) = Store.LocalStore.recorded site

variable {view : η → θ} {whole : Handler η} {seen : Handler θ} {run after : Run η} {token : Token}

/-- A task does to what is seen of a run what it does to the whole of it, and it moves any token
that is cancelled or not as the run's token is. -/
theorem perform_onto (mirrors : Mirrors view whole seen) (direct : run.link = .direct)
    (same : token.cancelled = run.token.cancelled) {task : Task}
    {result : Except (Halt Error) Unit}
    (ran : (task.perform whole).run run = (result, after)) :
    ∃ pace : Pace, after.token = pace.move run.token ∧
      (task.perform seen).run (run.onto view token) =
        (result, after.onto view (pace.move token)) := by
  have directSeen : (run.onto view token).link = .direct := direct
  have cancelled : (run.onto view token).token.cancelled = run.token.cancelled := same
  have observed : Store.LocalStore.recorded (run.onto view token).site =
    Store.LocalStore.recorded run.site := mirrors.observed run.site
  cases task with
  | configuration =>
    rw [Task.configuration_run direct] at ran
    cases ran
    exact ⟨.rests, rfl, Task.configuration_run directSeen⟩
  | account home =>
    rw [Task.account_run (Prod.eta _).symm] at ran
    cases ran
    refine ⟨.rests, rfl, ?_⟩
    rw [Task.account_run (mirrors.store (.ensureAccount (Key.encode home) "") run.site), observed]
    rfl
  | conversations =>
    rw [Task.conversations_run (Prod.eta _).symm] at ran
    cases ran
    refine ⟨.rests, rfl, ?_⟩
    rw [Task.conversations_run (mirrors.store .conversations run.site), observed]
    rfl
  | unreadable key e =>
    cases ran
    exact ⟨.rests, rfl, rfl⟩
  | activate group =>
    rw [Task.activate_run direct] at ran
    cases ran
    exact ⟨.rests, rfl, Task.activate_run directSeen group⟩
  | openMetadata group =>
    rw [Task.openMetadata_run direct] at ran
    rw [Task.openMetadata_run directSeen, Run.onto_service]
    split at ran
    · cases ran
      exact ⟨.lists, rfl, rfl⟩
    · cases ran
      exact ⟨.rests, rfl, rfl⟩
  | applyMetadata group event =>
    rw [Task.applyMetadata_run (Prod.eta _).symm] at ran
    rw [Task.applyMetadata_run (mirrors.metadata event run.site), cancelled, mirrors.recorded]
    by_cases stop : run.token.cancelled = true
    · rw [if_pos stop] at ran ⊢
      cases ran
      exact ⟨.rests, rfl, rfl⟩
    · rw [if_neg stop] at ran ⊢
      cases ran
      exact ⟨.applies, rfl, rfl⟩
  | closeMetadata group logEnd =>
    rw [Task.closeMetadata_run] at ran ⊢
    rw [cancelled]
    by_cases stop : run.token.cancelled = true
    · rw [if_pos stop] at ran ⊢
      cases ran
      exact ⟨.rests, rfl, rfl⟩
    · rw [if_neg stop] at ran ⊢
      cases logEnd <;> cases ran <;> exact ⟨.rests, rfl, rfl⟩
  | openMessages group =>
    rw [Task.openMessages_run direct] at ran
    rw [Task.openMessages_run directSeen, Run.onto_service]
    split at ran
    · cases ran
      exact ⟨.lists, rfl, rfl⟩
    · cases ran
      exact ⟨.rests, rfl, rfl⟩
  | applyMessage group event =>
    cases decoded : Message.decode (α := AppMessage) event.message with
    | error e =>
      rw [Task.applyMessage_undecodable decoded] at ran ⊢
      rw [cancelled]
      by_cases stop : run.token.cancelled = true
      · rw [if_pos stop] at ran ⊢
        cases ran
        exact ⟨.rests, rfl, rfl⟩
      · rw [if_neg stop] at ran ⊢
        cases ran
        exact ⟨.rests, rfl, rfl⟩
    | ok message =>
      rw [Task.applyMessage_run decoded (Prod.eta _).symm] at ran
      rw [Task.applyMessage_run decoded (mirrors.message _ event message run.site), cancelled,
        mirrors.recorded]
      by_cases stop : run.token.cancelled = true
      · rw [if_pos stop] at ran ⊢
        cases ran
        exact ⟨.rests, rfl, rfl⟩
      · rw [if_neg stop] at ran ⊢
        cases ran
        exact ⟨.applies, rfl, rfl⟩
  | closeMessages group logEnd =>
    rw [Task.closeMessages_run] at ran ⊢
    rw [cancelled]
    by_cases stop : run.token.cancelled = true
    · rw [if_pos stop] at ran ⊢
      cases ran
      exact ⟨.rests, rfl, rfl⟩
    · rw [if_neg stop] at ran ⊢
      cases logEnd <;> cases ran <;> exact ⟨.rests, rfl, rfl⟩
  | deactivate group =>
    rw [Task.deactivate_run direct] at ran
    cases ran
    exact ⟨.rests, rfl, Task.deactivate_run directSeen group⟩

/-- So does the carrying out of tasks. -/
theorem carryOut_onto (mirrors : Mirrors view whole seen) (direct : run.link = .direct)
    {held : Option Bytes} {planned : List Task} {result : Except (Halt Error) Unit}
    (ran : (carryOut whole held planned).run run = (result, after)) :
    (carryOut seen held planned).run (run.onto view run.token) =
      (result, after.onto view after.token) := by
  induction planned generalizing run held with
  | nil =>
    cases ran
    rfl
  | cons task rest ih =>
    have directSeen : (run.onto view run.token).link = .direct := direct
    rw [carryOut_cons_run direct] at ran
    rw [carryOut_cons_run directSeen]
    cases performed : (task.perform whole).run run with
    | mk outcome middle =>
      obtain ⟨pace, moved, performedSeen⟩ := perform_onto mirrors direct rfl performed
      rw [performed] at ran
      rw [performedSeen, ← moved]
      cases outcome with
      | ok value => exact ih (performed_link direct performed) ran
      | error halt =>
        cases halt <;> cases ran
        · simp only [Run.freed_onto, Run.freed_token]
        · rfl

/-- What is listed after the opening tasks is the same. -/
private theorem lists_onto (mirrors : Mirrors view whole seen) (direct : run.link = .direct)
    {listed : List Store.Conversation} (lists : Lists whole run listed) :
    Lists seen (run.onto view run.token) listed := by
  intro middle answer site passed performed
  have directSeen : (run.onto view run.token).link = .direct := direct
  rw [Run.onto_service] at passed
  cases opened : (carryOut whole none (openingTasks run.service)).run run with
  | mk outcome reached =>
    have opens := carryOut_onto mirrors direct opened
    rw [carryOut_of_passed directSeen none passed] at opens
    cases opens
    have answered : (Store.LocalStore.perform .conversations reached.site).1 = .ok answer :=
      (congrArg Prod.fst (mirrors.store .conversations reached.site)).symm.trans
        (congrArg Prod.fst performed)
    exact lists reached answer _ (passed_of_carryOut direct opened) (Prod.ext answered rfl)

/-- And so does a replay. -/
theorem replay_onto {wholeFor : Bytes → Handler η} {seenFor : Bytes → Handler θ}
    (mirrors : ∀ home, Mirrors view (wholeFor home) (seenFor home)) (direct : run.link = .direct)
    {result : Except (Halt Error) Summary}
    (ran : (replayWith wholeFor).run run = (result, after)) :
    (replayWith seenFor).run (run.onto view run.token) =
      (result, after.onto view after.token) := by
  have directSeen : (run.onto view run.token).link = .direct := direct
  have mirrors := mirrors run.service.home
  obtain ⟨listed, lists⟩ := exists_listed (wholeFor run.service.home) run
  have listsSeen := lists_onto mirrors direct lists
  rw [replay_carries_out direct lists, Action.run_bind] at ran
  rw [replay_carries_out directSeen listsSeen, Action.run_bind]
  cases carried : (carryOut (wholeFor run.service.home) none
    (tasks run.service listed)).run run with
  | mk outcome ended =>
    have carriedSeen := carryOut_onto mirrors direct carried
    simp only [Run.onto_service] at carriedSeen ⊢
    rw [carried] at ran
    rw [carriedSeen]
    cases outcome <;> cases ran <;> rfl

end Replay

/-! ### Notes -/

namespace Projection

/-- What a handler was handed, and its answer. -/
abbrev Handing := Handed × Except Error Unit

/-- A local side beside which it is noted what its handler is handed. -/
structure Noted (η : Type) where
  site : η
  handings : List Handing := []

namespace Noted

/-- Applies what is handed over and notes it with the answer. -/
def note (handed : Handed) (apply : Action η Error Unit) : Action (Noted η) Error Unit :=
  ⟨fun noted =>
    match apply.run noted.site with
    | (answer, site) => (answer, ⟨site, noted.handings ++ [(handed, answer)]⟩)⟩

instance [Store.LocalStore η] : Store.LocalStore (Noted η) where
  perform op noted :=
    match Store.LocalStore.perform op noted.site with
    | (answer, site) => (answer, { noted with site })
  recorded noted := Store.LocalStore.recorded noted.site

end Noted

/-- A handler that notes what it is handed. -/
def noting (handler : Handler η) : Handler (Noted η) where
  applyMetadata event := Noted.note (.metadata event) (handler.applyMetadata event)
  applyMessage conversation event message :=
    Noted.note (.message ⟨conversation, event, message⟩)
      (handler.applyMessage conversation event message)
  recorded := handler.recorded

end Projection

/-- A run with nothing noted yet. -/
def Run.unnoted (run : Run η) : Run (Noted η) := run.onto ({ site := · }) run.token

namespace Replay

variable [Store.LocalStore η]

/-- A replay with notes. -/
def replayNoted (handlerFor : Bytes → Handler η) : Action (Run (Noted η)) (Halt Error) Summary :=
  replayWith fun home => noting (handlerFor home)

/-- All that a replay hands to its handler, with the answers, in order. -/
def handings (handlerFor : Bytes → Handler η) (run : Run η) : List Handing :=
  ((replayNoted handlerFor).run run.unnoted).2.site.handings

/-- Whoever does not see the notes sees the handler without them. -/
theorem noting_mirrors (handler : Handler η) : Mirrors Noted.site (noting handler) handler :=
  ⟨fun _ _ => rfl, fun _ _ _ _ => rfl, rfl, fun _ _ => rfl, fun _ => rfl⟩

/-- A replay does not depend on whether it is noted what it hands over. -/
theorem replay_noted (handlerFor : Bytes → Handler η) {run : Run η} (direct : run.link = .direct)
    {result : Except (Halt Error) Summary} {after : Run (Noted η)}
    (ran : (replayNoted handlerFor).run run.unnoted = (result, after)) :
    (replayWith handlerFor).run run = (result, after.onto Noted.site after.token) :=
  replay_onto (fun home => noting_mirrors (handlerFor home)) (by exact direct) ran

/-! ### What a task hands over -/

variable {handler : Handler η} {run after : Run (Noted η)} {task : Task}
  {result : Except (Halt Error) Unit}

/-- A task handed something over, an entry of a log, and ended as the handler answered. -/
structure Hands (log : GroupLog) (handing : Handing) (task : Task) (run : Run (Noted η))
    (result : Except (Halt Error) Unit) (after : Run (Noted η)) : Prop where
  entry : task.EntryOf log
  handings : after.site.handings = run.site.handings ++ [handing]
  applies : after.token.progress.applies = run.token.progress.applies + 1
  clear : run.token.cancelled = false
  result : result = handing.2.mapError fun e => .failed (log.error (.handler e))

/-- A task hands nothing over, or one thing. -/
theorem performed_hands (direct : run.link = .direct)
    (ran : (task.perform (noting handler)).run run = (result, after)) :
    (after.site.handings = run.site.handings ∧
        after.token.progress.applies = run.token.progress.applies) ∨
      ∃ log handing, Hands log handing task run result after := by
  cases task with
  | configuration =>
    rw [Task.configuration_run direct] at ran
    cases ran
    exact .inl ⟨rfl, rfl⟩
  | account home =>
    rw [Task.account_run (Prod.eta _).symm] at ran
    cases ran
    exact .inl ⟨rfl, rfl⟩
  | conversations =>
    rw [Task.conversations_run (Prod.eta _).symm] at ran
    cases ran
    exact .inl ⟨rfl, rfl⟩
  | unreadable key e =>
    cases ran
    exact .inl ⟨rfl, rfl⟩
  | activate group =>
    rw [Task.activate_run direct] at ran
    cases ran
    exact .inl ⟨rfl, rfl⟩
  | openMetadata group =>
    rw [Task.openMetadata_run direct] at ran
    split at ran <;> cases ran <;> exact .inl ⟨rfl, rfl⟩
  | applyMetadata group event =>
    rw [Task.applyMetadata_run (Prod.eta _).symm] at ran
    split at ran
    · cases ran
      exact .inl ⟨rfl, rfl⟩
    · next go =>
      cases ran
      exact .inr ⟨.metadata group,
        (.metadata event, ((handler.applyMetadata event).run run.site.site).1),
        ⟨rfl, rfl⟩, rfl, rfl, by simpa using go, rfl⟩
  | closeMetadata group logEnd =>
    rw [Task.closeMetadata_run] at ran
    cases logEnd <;> split at ran <;> cases ran <;> exact .inl ⟨rfl, rfl⟩
  | openMessages group =>
    rw [Task.openMessages_run direct] at ran
    split at ran <;> cases ran <;> exact .inl ⟨rfl, rfl⟩
  | applyMessage group event =>
    cases decoded : Message.decode (α := AppMessage) event.message with
    | error e =>
      rw [Task.applyMessage_undecodable decoded] at ran
      split at ran <;> cases ran <;> exact .inl ⟨rfl, rfl⟩
    | ok message =>
      rw [Task.applyMessage_run decoded (Prod.eta _).symm] at ran
      split at ran
      · cases ran
        exact .inl ⟨rfl, rfl⟩
      · next go =>
        cases ran
        exact .inr ⟨.messages group, (.message ⟨Key.encode group, event, message⟩,
            ((handler.applyMessage (Key.encode group) event message).run run.site.site).1),
          ⟨rfl, rfl⟩, rfl, rfl, by simpa using go, rfl⟩
  | closeMessages group logEnd =>
    rw [Task.closeMessages_run] at ran
    cases logEnd <;> split at ran <;> cases ran <;> exact .inl ⟨rfl, rfl⟩
  | deactivate group =>
    rw [Task.deactivate_run direct] at ran
    cases ran
    exact .inl ⟨rfl, rfl⟩

end Replay

end GroupReplay
