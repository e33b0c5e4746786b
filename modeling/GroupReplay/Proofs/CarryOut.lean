import GroupReplay.Proofs.TaskSteps

/-!
A replay carries its tasks out.  A task leaves the logs of the service alone, so the list of tasks
that the service's logs determine at the start is the list that is met on the way.
-/

namespace GroupReplay

open Wire Service Projection

/-- A token that is not cancelled and will not be. -/
structure Token.Quiet (token : Token) : Prop where
  clear : token.cancelled = false
  never : ∀ progress, token.due progress = false

theorem Token.Quiet.advance {token : Token} (quiet : token.Quiet) (progress : Progress) :
    (token.advance progress).Quiet :=
  ⟨by simp [Token.advance, quiet.clear, quiet.never], quiet.never⟩

namespace Replay

variable {η α : Type} [Store.LocalStore η] {handler : Handler η} {run : Run η} {service : Service}

/-- What a task makes of the service. -/
def Task.serve : Task → Service → Service
  | activate group, service => (service.activate group).2
  | deactivate group, service => (service.deactivate group).2
  | _, service => service

/-- What every task leaves: the service as far as it is not asked to change which groups are active,
the link, and the token but for its progress. -/
private theorem perform_frame (handler : Handler η) (direct : run.link = .direct) (task : Task) :
    ((task.perform handler).run run).2.service = task.serve run.service ∧
      ((task.perform handler).run run).2.link = .direct ∧
      (((task.perform handler).run run).2.token = run.token ∨
        ((task.perform handler).run run).2.token = run.token.listed ∨
        ((task.perform handler).run run).2.token = run.token.applied) := by
  cases task with
  | configuration =>
    rw [Task.configuration_run direct]
    exact ⟨rfl, direct, .inl rfl⟩
  | account home =>
    rw [Task.account_run (Prod.eta _).symm]
    exact ⟨rfl, direct, .inl rfl⟩
  | conversations =>
    rw [Task.conversations_run (Prod.eta _).symm]
    exact ⟨rfl, direct, .inl rfl⟩
  | unreadable key e => exact ⟨rfl, direct, .inl rfl⟩
  | activate group =>
    rw [Task.activate_run direct]
    exact ⟨rfl, direct, .inl rfl⟩
  | openMetadata group =>
    rw [Task.openMetadata_run direct]
    split
    · exact ⟨rfl, direct, .inr (.inl rfl)⟩
    · exact ⟨rfl, direct, .inl rfl⟩
  | applyMetadata group event =>
    rw [Task.applyMetadata_run (Prod.eta _).symm]
    split
    · exact ⟨rfl, direct, .inl rfl⟩
    · exact ⟨rfl, direct, .inr (.inr rfl)⟩
  | closeMetadata group logEnd =>
    rw [Task.closeMetadata_run]
    cases logEnd <;> split <;> exact ⟨rfl, direct, .inl rfl⟩
  | openMessages group =>
    rw [Task.openMessages_run direct]
    split
    · exact ⟨rfl, direct, .inr (.inl rfl)⟩
    · exact ⟨rfl, direct, .inl rfl⟩
  | applyMessage group event =>
    cases decoded : Message.decode (α := AppMessage) event.message with
    | error e =>
      rw [Task.applyMessage_undecodable decoded]
      split <;> exact ⟨rfl, direct, .inl rfl⟩
    | ok message =>
      rw [Task.applyMessage_run decoded (Prod.eta _).symm]
      split
      · exact ⟨rfl, direct, .inl rfl⟩
      · exact ⟨rfl, direct, .inr (.inr rfl)⟩
  | closeMessages group logEnd =>
    rw [Task.closeMessages_run]
    cases logEnd <;> split <;> exact ⟨rfl, direct, .inl rfl⟩
  | deactivate group =>
    rw [Task.deactivate_run direct]
    exact ⟨rfl, direct, .inl rfl⟩

variable {task : Task} {result : Except (Halt Error) Unit} {after : Run η}

/-- A task changes of the service at most which groups are active. -/
theorem performed_service (direct : run.link = .direct)
    (ran : (task.perform handler).run run = (result, after)) :
    after.service = task.serve run.service := by
  have served := (perform_frame handler direct task).1
  rwa [ran] at served

theorem performed_link (direct : run.link = .direct)
    (ran : (task.perform handler).run run = (result, after)) : after.link = .direct := by
  have still := (perform_frame handler direct task).2.1
  rwa [ran] at still

/-- A token that will not be cancelled stays so. -/
theorem performed_quiet (direct : run.link = .direct) (quiet : run.token.Quiet)
    (ran : (task.perform handler).run run = (result, after)) : after.token.Quiet := by
  have progressed := (perform_frame handler direct task).2.2
  rw [ran] at progressed
  obtain same | listed | applied := progressed
  · rwa [same]
  · rw [listed]
    exact quiet.advance _
  · rw [applied]
    exact quiet.advance _

/-- What a task does on the local side. -/
def Task.onSite (handler : Handler η) : Task → Action η Error Unit
  | account home => do
    let account := Key.encode home
    let _ ← .mapError (.storeWrite account) (Store.perform (.ensureAccount account ""))
  | conversations => do
    let _ ← .mapError .storeRead (Store.perform .conversations)
  | applyMetadata group event =>
    .mapError (fun e => .metadata (Key.encode group) (.handler e)) (handler.applyMetadata event)
  | applyMessage group event =>
    match Message.decode event.message with
    | .error e => .fail (.deserialization (Key.encode group) (.envelope e))
    | .ok message =>
      .mapError (fun e => .messages (Key.encode group) (.handler e))
        (handler.applyMessage (Key.encode group) event message)
  | _ => pure ()

private theorem on_site_of_neutral (neutral : task.onSite handler = pure ())
    (same : after.site = run.site) :
    (result = .ok () → (task.onSite handler).run run.site = (.ok (), after.site)) ∧
      (∀ halt, result = .error halt → after.site = run.site ∨
        ∃ e, (task.onSite handler).run run.site = (.error e, after.site)) := by
  rw [neutral, same]
  exact ⟨fun _ => rfl, fun _ _ => .inl rfl⟩

private theorem on_site_of_ok {did : Prop} {failed : Halt Error → Prop} (ok : result = .ok ())
    (holds : did) : (result = .ok () → did) ∧ ∀ halt, result = .error halt → failed halt := by
  refine ⟨fun _ => holds, fun halt same => ?_⟩
  rw [ok] at same
  cases same

private theorem on_site_of_error {did failed : Prop} {halt : Halt Error}
    (error : result = .error halt) (holds : failed) :
    (result = .ok () → did) ∧ ∀ halt, result = .error halt → failed := by
  refine ⟨fun same => ?_, fun _ _ => holds⟩
  rw [error] at same
  cases same

/-- A task that is carried out did what it does on the local side; one that fails did nothing there,
or failed there. -/
theorem performed_site (direct : run.link = .direct)
    (ran : (task.perform handler).run run = (result, after)) :
    (result = .ok () → (task.onSite handler).run run.site = (.ok (), after.site)) ∧
      (∀ halt, result = .error halt → after.site = run.site ∨
        ∃ e, (task.onSite handler).run run.site = (.error e, after.site)) := by
  cases task with
  | configuration =>
    rw [Task.configuration_run direct] at ran
    cases ran
    exact on_site_of_neutral rfl rfl
  | account home =>
    cases performed : Store.LocalStore.perform (.ensureAccount (Key.encode home) "") run.site with
    | mk answer site =>
      rw [Task.account_run performed] at ran
      simp only [Task.onSite, Action.run_bind, Action.mapError, Store.perform, performed]
      cases answer <;> cases ran
      · exact on_site_of_error rfl (.inr ⟨_, rfl⟩)
      · exact on_site_of_ok rfl rfl
  | conversations =>
    cases performed : Store.LocalStore.perform .conversations run.site with
    | mk answer site =>
      rw [Task.conversations_run performed] at ran
      simp only [Task.onSite, Action.run_bind, Action.mapError, Store.perform, performed]
      cases answer <;> cases ran
      · exact on_site_of_error rfl (.inr ⟨_, rfl⟩)
      · exact on_site_of_ok rfl rfl
  | unreadable key e => cases ran; exact on_site_of_neutral rfl rfl
  | activate group =>
    rw [Task.activate_run direct] at ran
    cases ran
    exact on_site_of_neutral rfl rfl
  | openMetadata group =>
    rw [Task.openMetadata_run direct] at ran
    split at ran <;> cases ran <;> exact on_site_of_neutral rfl rfl
  | applyMetadata group event =>
    cases applied : (handler.applyMetadata event).run run.site with
    | mk outcome site =>
      rw [Task.applyMetadata_run applied] at ran
      simp only [Task.onSite, Action.run_mapError, applied]
      split at ran
      · cases ran
        exact on_site_of_error rfl (.inl rfl)
      · cases outcome <;> cases ran
        · exact on_site_of_error rfl (.inr ⟨_, rfl⟩)
        · exact on_site_of_ok rfl rfl
  | closeMetadata group logEnd =>
    rw [Task.closeMetadata_run] at ran
    cases logEnd <;> split at ran <;> cases ran <;> exact on_site_of_neutral rfl rfl
  | openMessages group =>
    rw [Task.openMessages_run direct] at ran
    split at ran <;> cases ran <;> exact on_site_of_neutral rfl rfl
  | applyMessage group event =>
    cases decoded : Message.decode (α := AppMessage) event.message with
    | error e =>
      rw [Task.applyMessage_undecodable decoded] at ran
      split at ran <;> cases ran <;> exact on_site_of_error rfl (.inl rfl)
    | ok message =>
      cases applied : (handler.applyMessage (Key.encode group) event message).run run.site with
      | mk outcome site =>
        rw [Task.applyMessage_run decoded applied] at ran
        simp only [Task.onSite, decoded, Action.run_mapError, applied]
        split at ran
        · cases ran
          exact on_site_of_error rfl (.inl rfl)
        · cases outcome <;> cases ran
          · exact on_site_of_error rfl (.inr ⟨_, rfl⟩)
          · exact on_site_of_ok rfl rfl
  | closeMessages group logEnd =>
    rw [Task.closeMessages_run] at ran
    cases logEnd <;> split at ran <;> cases ran <;> exact on_site_of_neutral rfl rfl
  | deactivate group =>
    rw [Task.deactivate_run direct] at ran
    cases ran
    exact on_site_of_neutral rfl rfl

/-- One step of the machine that carries tasks out. -/
theorem carryOut_cons_run (direct : run.link = .direct) (held : Option Bytes) (task : Task)
    (rest : List Task) :
    (carryOut handler held (task :: rest)).run run =
      match (task.perform handler).run run with
      | (.ok (), after) => (carryOut handler (task.holding held) rest).run after
      | (.error (.failed e), after) =>
        (.error (.failed e), after.freed (task.freed held))
      | (.error .waiting, after) => (.error .waiting, after) := by
  rw [carryOut, Action.run_bind, Action.cleaningUp]
  dsimp only
  cases ran : (task.perform handler).run run with
  | mk result after =>
    cases result with
    | ok value => rfl
    | error halt =>
      cases halt with
      | failed e => simp only [free_run (performed_link direct ran)]
      | waiting => rfl

/-- Tasks that were all carried out, one after the other. -/
inductive Passed (handler : Handler η) : Run η → List Task → Run η → Prop where
  | nil (run : Run η) : Passed handler run [] run
  | cons {run middle after : Run η} {task : Task} {rest : List Task}
      (passed : (task.perform handler).run run = (.ok (), middle))
      (more : Passed handler middle rest after) : Passed handler run (task :: rest) after

variable {done more : List Task}

theorem Passed.link (passed : Passed handler run done after) (direct : run.link = .direct) :
    after.link = .direct := by
  induction passed with
  | nil => exact direct
  | cons passed more ih => exact ih (performed_link direct passed)

theorem Passed.quiet (passed : Passed handler run done after) (direct : run.link = .direct)
    (quiet : run.token.Quiet) : after.token.Quiet := by
  induction passed with
  | nil => exact quiet
  | cons passed _ ih => exact ih (performed_link direct passed) (performed_quiet direct quiet passed)

theorem performed_alike (direct : run.link = .direct) (alike : run.service.Alike service)
    (ran : (task.perform handler).run run = (result, after)) : after.service.Alike service := by
  rw [performed_service direct ran]
  cases task with
  | activate group => exact alike.activate group
  | deactivate group => exact alike.deactivate group
  | _ => exact alike

theorem Passed.alike (passed : Passed handler run done after) (direct : run.link = .direct)
    (alike : run.service.Alike service) : after.service.Alike service := by
  induction passed with
  | nil => exact alike
  | cons passed more ih =>
    exact ih (performed_link direct passed) (performed_alike direct alike passed)

theorem Passed.unique {other : Run η} (passed : Passed handler run done after)
    (again : Passed handler run done other) : after = other := by
  induction passed with
  | nil => cases again; rfl
  | cons passed _ ih =>
    cases again with
    | cons passedAgain more =>
      cases passed.symm.trans passedAgain
      exact ih more

theorem Passed.append {middle : Run η}
    (first : Passed handler run done middle) (second : Passed handler middle more after) :
    Passed handler run (done ++ more) after := by
  induction first with
  | nil => exact second
  | cons passed _ ih => exact .cons passed (ih second)

theorem passed_append_iff :
    Passed handler run (done ++ more) after ↔
      ∃ middle, Passed handler run done middle ∧ Passed handler middle more after := by
  constructor
  · intro passed
    induction done generalizing run with
    | nil => exact ⟨run, .nil run, passed⟩
    | cons task rest ih =>
      cases passed with
      | cons passed more =>
        obtain ⟨middle, restPassed, morePassed⟩ := ih more
        exact ⟨middle, .cons passed restPassed, morePassed⟩
  · rintro ⟨middle, first, second⟩
    exact first.append second

/-- Each of the tasks that were carried out was carried out at some point. -/
theorem Passed.performed (passed : Passed handler run done after) {task : Task}
    (member : task ∈ done) : ∃ before later, (task.perform handler).run before = (.ok (), later) := by
  obtain ⟨first, rest, rfl⟩ := List.append_of_mem member
  obtain ⟨before, _, _ | ⟨performed, _⟩⟩ := passed_append_iff.mp passed
  exact ⟨before, _, performed⟩

theorem passed_of_carryOut {held : Option Bytes} (direct : run.link = .direct)
    (ran : (carryOut handler held done).run run = (.ok (), after)) :
    Passed handler run done after := by
  induction done generalizing run held with
  | nil => cases ran; exact .nil _
  | cons task rest ih =>
    rw [carryOut_cons_run direct] at ran
    split at ran
    · next performed => exact .cons performed (ih (performed_link direct performed) ran)
    · cases ran
    · cases ran

theorem carryOut_of_passed (direct : run.link = .direct) (held : Option Bytes)
    (passed : Passed handler run done after) :
    (carryOut handler held done).run run = (.ok (), after) := by
  induction passed generalizing held with
  | nil => rfl
  | cons passed more ih =>
    rw [carryOut_cons_run direct, passed]
    exact ih (performed_link direct passed) _

/-- The group that is held once tasks are done. -/
def heldAfter (held : Option Bytes) (done : List Task) : Option Bytes :=
  done.foldl Task.holding held

/-- The state in which the machine ends when a task fails: what was held is released, but not if
the task waits for ever. -/
def stoppedAt (halt : Halt Error) (freed : Option Bytes) (run : Run η) : Run η :=
  match halt with
  | .failed _ => run.freed freed
  | .waiting => run

omit [Store.LocalStore η] in
@[simp] theorem stoppedAt_site (halt : Halt Error) (freed : Option Bytes) (run : Run η) :
    (stoppedAt halt freed run).site = run.site := by
  cases halt <;> simp [stoppedAt]

/-- Either all tasks are carried out, or one of them is the first that is not. -/
theorem carryOut_cases {held : Option Bytes} {planned : List Task} (direct : run.link = .direct)
    (ran : (carryOut handler held planned).run run = (result, after)) :
    (result = .ok () ∧ Passed handler run planned after) ∨
      ∃ done task rest middle halt stopped,
        planned = done ++ task :: rest ∧ Passed handler run done middle ∧
          (task.perform handler).run middle = (.error halt, stopped) ∧ result = .error halt ∧
          after = stoppedAt halt (task.freed (heldAfter held done)) stopped := by
  induction planned generalizing run held with
  | nil =>
    cases ran
    exact .inl ⟨rfl, .nil _⟩
  | cons task rest ih =>
    rw [carryOut_cons_run direct] at ran
    cases performed : (task.perform handler).run run with
    | mk outcome next =>
      rw [performed] at ran
      cases outcome with
      | ok value =>
        obtain ⟨ended, passed⟩ | ⟨done, failing, rest, middle, halt, stopped, split, passed, failed⟩ :=
          ih (performed_link direct performed) ran
        · exact .inl ⟨ended, .cons performed passed⟩
        · exact .inr ⟨task :: done, failing, rest, middle, halt, stopped, by rw [split]; rfl,
            .cons performed passed, failed⟩
      | error halt =>
        refine .inr ⟨[], task, rest, run, halt, next, rfl, .nil run, performed, ?_⟩
        cases halt <;> cases ran <;> exact ⟨rfl, rfl⟩

end Replay

end GroupReplay
