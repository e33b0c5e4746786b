import GroupReplay.Proofs.NotedReplay
import GroupReplay.Proofs.RecordedReplay

/-!
Replays whose token is cancelled.  Up to the event after which the token is cancelled they go as
they would have gone; then whatever reads the log next finds the token cancelled, and nothing but
the release of the group that is held comes after it.
-/

namespace GroupReplay

open Wire Service Projection

namespace Token

/-- A token at some progress that is cancelled if that is due. -/
def underway (due : Progress → Bool) (progress : Progress) : Token :=
  ⟨due progress, progress, due⟩

/-- A token at some progress that will not be cancelled. -/
abbrev quiet (progress : Progress) : Token := underway (fun _ => false) progress

/-- Whether a number of events were handed over. -/
def appliesDue (count : Nat) (progress : Progress) : Bool := decide (count ≤ progress.applies)

theorem afterApplies_underway {count : Nat} (positive : 1 ≤ count) :
    afterApplies count = underway (appliesDue count) {} := by
  have early : appliesDue count {} = false := decide_eq_false (Nat.not_le_of_lt positive)
  rw [underway, early]
  rfl

end Token

namespace Pace

/-- The progress that a pace makes. -/
def advance : Pace → Progress → Progress
  | rests, progress => progress
  | lists, progress => { progress with listings := progress.listings + 1 }
  | applies, progress => { progress with applies := progress.applies + 1 }

theorem move_underway (pace : Pace) {due : Progress → Bool} {progress : Progress}
    (early : due progress = false) :
    pace.move (.underway due progress) = .underway due (pace.advance progress) := by
  cases pace with
  | rests => rfl
  | lists | applies =>
    simp only [move, Token.listed, Token.applied, Token.advance, Token.underway, early,
      Bool.false_or, advance]

theorem move_cancelled (pace : Pace) {token : Token} (cancelled : token.cancelled = true) :
    (pace.move token).cancelled = true := by
  cases pace with
  | rests => exact cancelled
  | lists | applies => simp [move, Token.listed, Token.applied, Token.advance, cancelled]

end Pace

namespace Replay

variable {η : Type} [Store.LocalStore η]

theorem mirrors_self (handler : Handler η) : Mirrors id handler handler :=
  ⟨fun _ _ => rfl, fun _ _ _ _ => rfl, rfl, fun _ _ => rfl, fun _ => rfl⟩

/-! ### Tasks under a token that is not cancelled yet -/

section Underway

variable {handler : Handler η} {run after : Run (Noted η)} {task : Task}
  {result : Except (Halt Error) Unit} {progress : Progress} {held : Option Bytes}
  {planned : List Task}

/-- A run that nobody cancels, at some progress, with a note of every event that was handed over. -/
structure Counts (progress : Progress) (run : Run (Noted η)) : Prop where
  token : run.token = .quiet progress
  handings : run.site.handings.length = progress.applies

/-- A task goes on counting, and it goes the same way under a token that is not cancelled yet. -/
theorem Counts.step (counts : Counts progress run) (direct : run.link = .direct)
    (ran : (task.perform (noting handler)).run run = (result, after)) :
    ∃ next, Counts next after ∧
      (after.site.handings = run.site.handings ∨
        ∃ log handing, Hands log handing task run result after) ∧
      ∀ due : Progress → Bool, due progress = false →
        (task.perform (noting handler)).run (run.under (.underway due progress)) =
          (result, after.under (.underway due next)) := by
  obtain ⟨pace, moved, _⟩ := perform_onto (mirrors_self (noting handler)) direct rfl ran
  rw [counts.token, pace.move_underway rfl] at moved
  refine ⟨pace.advance progress, ⟨moved, ?_⟩, ?_, fun due early => ?_⟩
  · obtain ⟨handings, applies⟩ | ⟨log, handing, hands⟩ := performed_hands direct ran
    · rw [handings, counts.handings]
      rw [moved, counts.token] at applies
      exact applies.symm
    · have applies := hands.applies
      rw [moved, counts.token] at applies
      rw [hands.handings, List.length_append, counts.handings]
      exact applies.symm
  · exact (performed_hands direct ran).imp_left And.left
  · have same : (Token.underway due progress).cancelled = run.token.cancelled := by
      rw [counts.token]
      exact early
    obtain ⟨other, movedOther, performed⟩ :=
      perform_onto (mirrors_self (noting handler)) direct same ran
    rw [counts.token, other.move_underway rfl, moved] at movedOther
    have paces : pace.advance progress = other.advance progress :=
      congrArg Token.progress movedOther
    rw [other.move_underway early, ← paces] at performed
    exact performed

omit [Store.LocalStore η] in
/-- A task that hands something over counts one more. -/
theorem Hands.count {log : GroupLog} {handing : Handing} {next : Progress}
    (hands : Hands log handing task run result after) (counts : Counts progress run)
    (counted : Counts next after) : next.applies = progress.applies + 1 := by
  rw [← counted.handings, hands.handings, List.length_append, counts.handings]
  rfl

omit [Store.LocalStore η] in
theorem Counts.freed (counts : Counts progress run) (group : Option Bytes) :
    Counts progress (run.freed group) :=
  ⟨(run.freed_token group).trans counts.token, by rw [run.freed_site]; exact counts.handings⟩

/-- What is handed over is only added to. -/
theorem Counts.carried (counts : Counts progress run) (direct : run.link = .direct)
    (ran : (carryOut (noting handler) held planned).run run = (result, after)) :
    ∃ next, Counts next after ∧ run.site.handings <+: after.site.handings := by
  induction planned generalizing run progress held with
  | nil =>
    cases ran
    exact ⟨progress, counts, List.prefix_rfl⟩
  | cons task rest ih =>
    rw [carryOut_cons_run direct] at ran
    cases performed : (task.perform (noting handler)).run run with
    | mk outcome middle =>
      obtain ⟨next, counted, handed, _⟩ := counts.step direct performed
      have added : run.site.handings <+: middle.site.handings := by
        obtain same | ⟨_, _, hands⟩ := handed
        · exact same ▸ List.prefix_rfl
        · exact hands.handings ▸ List.prefix_append _ _
      rw [performed] at ran
      cases outcome with
      | ok value =>
        obtain ⟨last, countedLast, more⟩ := ih counted (performed_link direct performed) ran
        exact ⟨last, countedLast, added.trans more⟩
      | error halt =>
        cases halt <;> cases ran
        · exact ⟨next, counted.freed _, by simpa using added⟩
        · exact ⟨next, counted, added⟩

/-- Where tasks hand over the event with a certain number: what was done before, and the task that
does it. -/
structure Handover (handler : Handler η) (run : Run (Noted η)) (planned : List Task)
    (count : Nat) where
  done : List Task
  task : Task
  rest : List Task
  middle : Run (Noted η)
  after : Run (Noted η)
  progress : Progress
  log : GroupLog
  handing : Handing
  result : Except (Halt Error) Unit
  split : planned = done ++ task :: rest
  passed : Passed (noting handler) run done middle
  counts : Counts progress middle
  number : progress.applies + 1 = count
  performed : (task.perform (noting handler)).run middle = (result, after)
  hands : Hands log handing task middle result after

namespace Handover

variable {count : Nat}

/-- An event that is handed over after a first task. -/
def later {middle : Run (Noted η)}
    (performed : (task.perform (noting handler)).run run = (.ok (), middle))
    (handover : Handover handler middle planned count) :
    Handover handler run (task :: planned) count :=
  { handover with
    done := task :: handover.done
    split := congrArg (task :: ·) handover.split
    passed := .cons performed handover.passed }

end Handover

/-- Under a token that is cancelled after a number of events tasks are carried out as they are under
one that is never cancelled, or so they are up to the one that hands over the last of these
events. -/
theorem Counts.lockstep (counts : Counts progress run) (direct : run.link = .direct) {count : Nat}
    (early : progress.applies < count)
    (ran : (carryOut (noting handler) held planned).run run = (result, after)) :
    (∃ next, Counts next after ∧ next.applies < count ∧
        (carryOut (noting handler) held planned).run
            (run.under (.underway (Token.appliesDue count) progress)) =
          (result, after.under (.underway (Token.appliesDue count) next))) ∨
      ∃ handover : Handover handler run planned count,
        handover.after.site.handings <+: after.site.handings ∧
          (carryOut (noting handler) held planned).run
              (run.under (.underway (Token.appliesDue count) progress)) =
            (carryOut (noting handler) (heldAfter held handover.done)
              (handover.task :: handover.rest)).run
                (handover.middle.under
                  (.underway (Token.appliesDue count) handover.progress)) := by
  induction planned generalizing run progress held with
  | nil =>
    cases ran
    exact .inl ⟨progress, counts, early, rfl⟩
  | cons task rest ih =>
    have notDue : Token.appliesDue count progress = false :=
      decide_eq_false (Nat.not_le_of_lt early)
    have directDue : (run.under (.underway (Token.appliesDue count) progress)).link = .direct :=
      direct
    rw [carryOut_cons_run direct] at ran
    cases performed : (task.perform (noting handler)).run run with
    | mk outcome middle =>
      obtain ⟨next, counted, handed, performs⟩ := counts.step direct performed
      have middleDirect := performed_link direct performed
      rw [performed] at ran
      by_cases before : next.applies < count
      · -- The token is not cancelled by this task, which goes alike in both runs.
        rw [carryOut_cons_run directDue, performs _ notDue]
        cases outcome with
        | ok value =>
          obtain alike | ⟨handover, grows, alike⟩ := ih counted middleDirect before ran
          · exact .inl alike
          · exact .inr ⟨handover.later performed, grows, alike⟩
        | error halt =>
          cases halt <;> cases ran
          · exact .inl ⟨next, counted.freed _, before, by simp only [Run.freed_under]⟩
          · exact .inl ⟨next, counted, before, rfl⟩
      · -- This task reaches the count, so that it is one that hands an event over.
        obtain same | ⟨log, handing, hands⟩ := handed
        · have none : next.applies = progress.applies := by
            rw [← counted.handings, same, counts.handings]
          omega
        · have one := hands.count counts counted
          refine .inr ⟨⟨[], task, rest, run, middle, progress, log, handing, outcome, rfl, .nil run,
            counts, by omega, performed, hands⟩, ?_, rfl⟩
          cases outcome with
          | ok value =>
            obtain ⟨_, _, grows⟩ := counted.carried middleDirect ran
            exact grows
          | error halt =>
            cases halt <;> cases ran
            · simp
            · exact List.prefix_rfl

/-- What ends a drain whose token is cancelled when the handler answers: its own failure, or the
cancellation. -/
def endOf : Except Projection.Error Unit → DrainError
  | .ok () => .listing .cancelled
  | .error e => .handler e

/-- The calls after the drain of a log failed: its group is released, unless it is home. -/
def releasing (home : Bytes) (log : GroupLog) : List Call :=
  if log.group = home then [] else [.deactivate (Key.encode log.group)]

omit [Store.LocalStore η] in
private theorem calls_releasing (home : Bytes) (log : GroupLog) (run : Run (Noted η)) :
    (run.freed (if log.group = home then none else some log.group)).calls =
      run.calls ++ releasing home log := by
  rw [releasing]
  split
  · rw [List.append_nil, Run.freed_none]
  · rfl

/-- The token is cancelled by the event, so that the handler's failure or what reads the log next
ends the drain. -/
private theorem Handover.ends {count : Nat} (handover : Handover handler run planned count)
    (direct : run.link = .direct) (ordered : InLogOrder none planned) (held : Option Bytes) :
    ∃ token, (carryOut (noting handler) held (handover.task :: handover.rest)).run
        (handover.middle.under (.underway (Token.appliesDue count) handover.progress)) =
      (.error (.failed (handover.log.error (endOf handover.handing.2))),
        (handover.after.under token).freed held) := by
  obtain ⟨done, task, rest, middle, after, progress, log, ⟨handed, answer⟩, result, rfl, passed,
    counts, number, performed, hands⟩ := handover
  have middleDirect := passed.link direct
  obtain ⟨next, counted, _, performs⟩ := counts.step middleDirect performed
  have last : next.applies = count := (hands.count counts counted).trans number
  have performedDue := performs (Token.appliesDue count) (decide_eq_false (by omega))
  have stays := Task.stays_of_reads hands.entry.reads
  refine ⟨.underway (Token.appliesDue count) next, ?_⟩
  dsimp only
  rw [carryOut_cons_run (by exact middleDirect), performedDue, hands.result]
  cases answer with
  | error e =>
    dsimp only [Except.mapError]
    rw [stays.freed, endOf]
  | ok value =>
    have more : InLogOrder task.leaves? rest :=
      (Passed.cons (performed.trans (by rw [hands.result]; rfl)) (.nil after)).inLogOrder
        (passed.inLogOrder ordered)
    rw [hands.entry.leaves] at more
    cases rest with
    | nil => cases more
    | cons following others =>
      dsimp only [Except.mapError]
      rw [stays.holding, endOf]
      have cancelled :
          (after.under (.underway (Token.appliesDue count) next)).token.cancelled = true :=
        decide_eq_true last.ge
      have linked := performed_link middleDirect performed
      exact carryOut_reads_cancelled (by exact linked) more.1 cancelled held others

/-- Once the last of the events was handed over, the drain of the log that it was an entry of fails,
nothing is handed over any more, and the log's group is released. -/
theorem Handover.stops {home : Bytes} {count : Nat}
    (handover : Handover handler run planned count) (direct : run.link = .direct)
    (ordered : InLogOrder none planned) (orderly : Orderly home none planned) :
    ∃ stopped before inside,
      (carryOut (noting handler) (heldAfter none handover.done)
          (handover.task :: handover.rest)).run
            (handover.middle.under (.underway (Token.appliesDue count) handover.progress)) =
          (.error (.failed (handover.log.error (endOf handover.handing.2))), stopped) ∧
        stopped.site.handings = handover.after.site.handings ∧
        stopped.calls = run.calls ++ before ++ handover.log.call :: inside ++
          releasing home handover.log ∧
        ∀ call ∈ inside, call.Applies := by
  obtain ⟨token, ended⟩ := handover.ends direct ordered (heldAfter none handover.done)
  obtain ⟨done, task, rest, middle, after, progress, log, handing, result, rfl, passed, counts,
    number, performed, hands⟩ := handover
  dsimp only at ended ⊢
  have isOpen : openAfter none done = some log :=
    (passed.inLogOrder ordered).1.symm.trans hands.entry.reads
  obtain ⟨before, inside, calls, applies⟩ := passed.open_calls direct ordered isOpen
  obtain ⟨last, one, handed⟩ := entry_calls (passed.link direct) hands.entry performed
  rw [passed.open_held ordered isOpen (orderly_append_iff.mp orderly).1] at ended ⊢
  refine ⟨_, before, inside ++ last, ended, by simp [Run.under], ?_,
    List.forall_mem_append.mpr ⟨applies, handed⟩⟩
  rw [calls_releasing]
  refine congrArg (· ++ releasing home log) (one.trans ?_)
  rw [calls]
  simp

end Underway

/-! ### Replays under a token that is cancelled on the way -/

section Replays

variable {handlerFor : Bytes → Handler η} {run after : Run (Noted η)}
  {result : Except (Halt Error) Summary} {count : Nat}

/-- How a replay ends that is stopped right after it handed an event over.  The drain of a log
fails, with the handler's failure if there was one, otherwise since its listing was cancelled;
behind the call that opened the log nothing is observed but its events and the release of its group,
which is not released if it is home. -/
def StoppedAfter (handed : List Handing) (result : Except (Halt Error) Summary) {θ : Type}
    (run after : Run θ) : Prop :=
  ∃ log handing before inside,
    handed.getLast? = some handing ∧
      result = .error (.failed (log.error (endOf handing.2))) ∧
      after.calls = run.calls ++ before ++ log.call :: inside ++ releasing run.service.home log ∧
      ∀ call ∈ inside, call.Applies

theorem Handover.count_handings {handler : Handler η} {planned : List Task}
    (handover : Handover handler run planned count) :
    handover.after.site.handings.length = count := by
  rw [handover.hands.handings, List.length_append, handover.counts.handings]
  exact handover.number

/-- What is listed once the opening tasks are done is the same under a token that is cancelled on
the way, if one gets that far. -/
private theorem lists_underway {handler : Handler η} {listed : List Store.Conversation}
    (counts : Counts {} run) (direct : run.link = .direct) (positive : 1 ≤ count)
    (lists : Lists (noting handler) run listed) :
    Lists (noting handler) (run.under (.underway (Token.appliesDue count) {})) listed := by
  intro middle answer site passed performed
  rw [Run.under_service] at passed
  have carriedDue := carryOut_of_passed (by exact direct) none passed
  cases carried : (carryOut (noting handler) none (openingTasks run.service)).run run with
  | mk outcome reached =>
    obtain ⟨next, _, _, alike⟩ | ⟨handover, _, alike⟩ := counts.lockstep direct positive carried
    · cases alike.symm.trans carriedDue
      exact lists reached answer site (passed_of_carryOut direct carried) performed
    · obtain ⟨token, ended⟩ :=
        handover.ends direct (inLogOrder_openingTasks _) (heldAfter none handover.done)
      rw [alike, ended] at carriedDue
      cases carriedDue

/-- A replay whose token is cancelled after a number of events goes as if it were never cancelled
if it hands fewer over; otherwise it stops right after them. -/
private theorem replay_lockstep (counts : Counts {} run) (direct : run.link = .direct)
    (positive : 1 ≤ count)
    (ran : (replayNoted handlerFor).run run = (result, after)) :
    let stopped := (replayNoted handlerFor).run (run.under (.afterApplies count))
    (after.site.handings.length < count ∧ ∃ token, stopped = (result, after.under token)) ∨
      stopped.2.site.handings.length = count ∧
        stopped.2.site.handings <+: after.site.handings ∧
        StoppedAfter stopped.2.site.handings stopped.1 run stopped.2 := by
  dsimp only
  obtain ⟨listed, lists⟩ := exists_listed (noting (handlerFor run.service.home)) run
  have listsDue := lists_underway counts direct positive lists
  rw [replayNoted, replay_carries_out direct lists, Action.run_bind] at ran
  rw [Token.afterApplies_underway positive, replayNoted,
    replay_carries_out (by exact direct) listsDue, Action.run_bind]
  simp only [Run.under_service]
  cases carried : (carryOut (noting (handlerFor run.service.home)) none
    (tasks run.service listed)).run run with
  | mk outcome ended =>
    rw [carried] at ran
    have same : ended = after := by cases outcome <;> cases ran <;> rfl
    obtain ⟨next, counted, before, alike⟩ | ⟨handover, grows, alike⟩ :=
      counts.lockstep direct positive carried
    · refine .inl ⟨?_, .underway (Token.appliesDue count) next, ?_⟩
      · rw [← same, counted.handings]
        exact before
      · rw [alike]
        cases outcome <;> cases ran <;> rfl
    · obtain ⟨stopped, before, inside, ends, handings, calls, applies⟩ :=
        handover.stops direct (inLogOrder_tasks _ _) (orderly_tasks _ _)
      rw [alike, ends]
      dsimp only
      rw [handings, ← same]
      refine .inr ⟨handover.count_handings, grows, handover.log, handover.handing, before, inside,
        ?_, rfl, calls, applies⟩
      rw [handover.hands.handings, List.getLast?_concat]

/-! ### Replays under a token that is cancelled from the start -/

/-- Tasks that are carried out under a cancelled token read no log. -/
private theorem Passed.cancelled {handler : Handler η} {done : List Task}
    (passed : Passed (noting handler) run done after) (direct : run.link = .direct)
    (cancelled : run.token.cancelled = true) :
    after.token.cancelled = true ∧ after.site.handings = run.site.handings ∧
      ∀ task ∈ done, task.reads? = none := by
  induction passed with
  | nil => exact ⟨cancelled, rfl, nofun⟩
  | @cons run middle after task rest passed _ ih =>
    obtain ⟨pace, moved, _⟩ := perform_onto (mirrors_self (noting handler)) direct rfl passed
    have stays : middle.token.cancelled = true := moved ▸ pace.move_cancelled cancelled
    obtain ⟨last, handings, unread⟩ := ih (performed_link direct passed) stays
    have none : task.reads? = none := by
      cases reads : task.reads? with
      | none => rfl
      | some log =>
        rw [reads_cancelled reads cancelled] at passed
        cases passed
    obtain ⟨same, _⟩ | ⟨log, handing, hands⟩ := performed_hands direct passed
    · exact ⟨last, handings.trans same, List.forall_mem_cons.mpr ⟨none, unread⟩⟩
    · cases cancelled.symm.trans hands.clear

/-- A replay whose token is cancelled from the start hands nothing over and fails. -/
private theorem replay_cancelled (direct : run.link = .direct)
    (cancelled : run.token.cancelled = true)
    (ran : (replayNoted handlerFor).run run = (result, after)) :
    after.site.handings = run.site.handings ∧ ∃ e, result = .error (.failed e) := by
  obtain ⟨listed, lists⟩ := exists_listed (noting (handlerFor run.service.home)) run
  obtain ⟨_, passed⟩ | ⟨done, task, rest, middle, halt, stopped, _, passed, performed, rfl, rfl⟩ :=
    replay_cases direct lists ran
  · -- The end of the home group's log would have been read.
    obtain ⟨_, _, unread⟩ := passed.cancelled direct cancelled
    let logEnd := (run.service.logsOf run.service.home).metadata.logEnd
    cases unread (.closeMetadata run.service.home logEnd)
      (by simp [logEnd, tasks, openingTasks, metadataTasks, logTasks])
  · obtain ⟨stays, handings, _⟩ := passed.cancelled direct cancelled
    have middleDirect := passed.link direct
    rw [stoppedAt_site]
    obtain ⟨same, _⟩ | ⟨log, handing, hands⟩ := performed_hands middleDirect performed
    · refine ⟨same.trans handings, ?_⟩
      cases halt with
      | failed e => exact ⟨e, rfl⟩
      | waiting =>
        obtain ⟨log, reads⟩ := reads_of_waiting middleDirect performed
        rw [reads_cancelled reads stays] at performed
        cases performed
    · cases stays.symm.trans hands.clear

end Replays

/-- Cancellation is never reported as completion and stops a replay at once.  A replay whose token
is cancelled right after one of its events was handed over hands over exactly the events up to
there, with the same answers, and stops.  A replay whose token is cancelled from the start hands
nothing over and fails, and one that is over before its token is cancelled ends as if it never
were. -/
theorem cancelled_replay (handlerFor : Bytes → Handler η) {run : Run η}
    (direct : run.link = .direct) :
    let replayed token := (replayWith handlerFor).run (run.under token)
    let handed token := handings handlerFor (run.under token)
    (∀ count, 1 ≤ count → count ≤ (handed .never).length →
      handed (.afterApplies count) = (handed .never).take count ∧
        StoppedAfter (handed (.afterApplies count)) (replayed (.afterApplies count)).1 run
          (replayed (.afterApplies count)).2) ∧
      (handed .fired = [] ∧ ∃ e, (replayed .fired).1 = .error (.failed e)) ∧
      ∀ count, (handed .never).length < count →
        handed (.afterApplies count) = handed .never ∧
          (replayed (.afterApplies count)).1 = (replayed .never).1 ∧
          (replayed (.afterApplies count)).2.under .never = (replayed .never).2.under .never := by
  dsimp only
  have plain (token : Token) : (replayWith handlerFor).run (run.under token) =
      (((replayNoted handlerFor).run (run.unnoted.under token)).1,
        ((replayNoted handlerFor).run (run.unnoted.under token)).2.onto Noted.site
          ((replayNoted handlerFor).run (run.unnoted.under token)).2.token) :=
    replay_noted handlerFor (by exact direct) rfl
  have counts : Counts {} (run.unnoted.under .never) := ⟨rfl, rfl⟩
  have onTheWay {count : Nat} (positive : 1 ≤ count) :=
    replay_lockstep counts direct positive (Prod.eta ((replayNoted handlerFor).run _)).symm
  refine ⟨fun count positive reached => ?_, ?_, fun count fewer => ?_⟩
  · rw [plain]
    obtain ⟨fewer, _⟩ | ⟨exactly, begun, stopped⟩ := onTheWay positive
    · exact absurd reached (Nat.not_le_of_lt fewer)
    · have taken := List.prefix_iff_eq_take.mp begun
      rw [exactly] at taken
      exact ⟨taken, stopped⟩
  · rw [plain]
    have direct : (run.unnoted.under .fired).link = .direct := direct
    exact replay_cancelled direct rfl (Prod.eta _).symm
  · rw [plain, plain]
    dsimp only
    obtain ⟨_, token, same⟩ | ⟨exactly, begun, _⟩ := onTheWay (Nat.one_le_of_lt fewer)
    · have handed := congrArg (·.2.site.handings) same
      have ended := congrArg Prod.fst same
      have left := congrArg (fun noted => (noted.2.onto Noted.site noted.2.token).under .never) same
      exact ⟨handed, ended, left⟩
    · have shorter := begun.length_le
      rw [exactly] at shorter
      exact absurd shorter (Nat.not_le_of_lt fewer)

example :
    let (result, after) := (replay recording).run (twoConversations.under (.afterApplies 4))
    result = .error (.failed (.messages "Ag" (.listing .cancelled))) ∧
      after.calls.getLast? = some (.deactivate "Ag") := by
  decide +kernel

/-- A replay of two groups, cancelled after the last message of the group that is not home, before
it has begun, and once it is over. -/
theorem two_groups_cancelled :
    let replayed token := (replayWith fun _ => recording).run (twoConversations.under token)
    let handed token := handings (fun _ => recording) (twoConversations.under token)
    (handed .never).length = 5 ∧
      (handed (.afterApplies 4) = (handed .never).take 4 ∧
        StoppedAfter (handed (.afterApplies 4)) (replayed (.afterApplies 4)).1 twoConversations
          (replayed (.afterApplies 4)).2) ∧
      (handed .fired = [] ∧ ∃ e, (replayed .fired).1 = .error (.failed e)) ∧
      handed (.afterApplies 6) = handed .never ∧
        (replayed (.afterApplies 6)).1 = (replayed .never).1 ∧
        (replayed (.afterApplies 6)).2.under .never = (replayed .never).2.under .never := by
  have all : (handings (fun _ => recording) (twoConversations.under .never)).length = 5 := by
    decide +kernel
  have direct : twoConversations.link = .direct := rfl
  obtain ⟨stopped, fired, unaffected⟩ := cancelled_replay (fun _ => recording) direct
  exact ⟨all, stopped 4 (by decide) (by rw [all]; decide), fired,
    unaffected 6 (by rw [all]; decide)⟩

end Replay

end GroupReplay
