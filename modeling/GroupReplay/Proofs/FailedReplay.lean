import GroupReplay.Proofs.RecordedReplay
import Mathlib.Data.List.Induction

/-!
Replays that fail.  `Task.failure?` says from the state at the start, and from what was carried out
before, whether a task fails and with what.  A replay fails with the failure of the first task that
has one; what is observed of it is the plan up to there, and after it the release of the group that
was taken and not given back.
-/

namespace GroupReplay

open Wire Service Projection

namespace Replay

/-- An error if a condition holds. -/
def errorIf (condition : Prop) [Decidable condition] (e : Error) : Option Error :=
  if condition then some e else none

/-- An error if a log breaks off. -/
def errorAt (logEnd : LogEnd) (e : Error) : Option Error :=
  match logEnd with
  | .failAfter _ => some e
  | .complete | .hang => none

/-- What a task fails with when `done` was carried out before it, if it fails: nobody cancels, and
the service, the store and the handler fail where `start` says. -/
def Task.failure? (start : RecordedRun) (done : List Task) : Task → Option Error
  | configuration => errorIf (start.service.failsConfiguration = true)
      (.configuration (.status ⟨.unavailable, "protocol service not started"⟩))
  | account home => errorIf (start.site.store.rejectsWrites = true)
      (.storeWrite (Key.encode home) (.unavailable "write rejected"))
  | conversations => errorIf (start.site.store.rejectsLists = true)
      (.storeRead (.unavailable "list rejected"))
  | unreadable key e => some (.deserialization key (.key e))
  | activate group => errorIf (start.service.failsActivate.contains group)
      (.activate (Key.encode group) (.status ⟨.internal, "unable to activate group"⟩))
  | openMetadata group => errorIf (start.service.failsMetadata.contains group)
      (.metadata (Key.encode group)
        (.listing (.status ⟨.unavailable, "metadata log unavailable"⟩)))
  | applyMetadata group _ =>
    let notes := start.site.recorder
    errorIf (notes.refuseMetadata = some (notes.metadataSeen + done.countP appliesMetadata))
      (.metadata (Key.encode group) (.handler (.invalid .refusedMetadata)))
  | closeMetadata group logEnd => errorAt logEnd
      (.metadata (Key.encode group) (.listing (.status logUnavailable)))
  | openMessages group => errorIf (start.service.failsMessages.contains group)
      (.messages (Key.encode group)
        (.listing (.status ⟨.unavailable, "message log unavailable"⟩)))
  | applyMessage group event =>
    let notes := start.site.recorder
    match Message.decode (α := AppMessage) event.message with
    | .error e => some (.deserialization (Key.encode group) (.envelope e))
    | .ok _ => errorIf (notes.refuseMessage = some (notes.messagesSeen + done.countP appliesMessage))
        (.messages (Key.encode group) (.handler (.invalid .refusedMessage)))
  | closeMessages group logEnd => errorAt logEnd
      (.messages (Key.encode group) (.listing (.status logUnavailable)))
  | deactivate group => errorIf (start.service.failsDeactivate.contains group)
      (.deactivate (Key.encode group) (.status ⟨.internal, "unable to deactivate group"⟩))

variable {start now after : RecordedRun} {done : List Task} {task : Task} {group : Bytes} {e : Error}

private theorem errorIf_eq_some {condition : Prop} [Decidable condition] {other : Error} :
    errorIf condition other = some e ↔ condition ∧ other = e := by
  unfold errorIf
  split <;> simp_all

/-- A task fails with what the state at the start has for it. -/
theorem Reached.failed_iff (reached : Reached start done now) (direct : now.link = .direct)
    (quiet : now.token.Quiet) (alike : now.service.Alike start.service)
    (active : ∀ group, task = .openMetadata group ∨ task = .openMessages group →
      group ∈ now.service.active) :
    ((task.perform recording).run now).1 = .error (.failed e) ↔
      task.failure? start done = some e := by
  cases task with
  | configuration =>
    have fails : now.service.failsConfiguration = start.service.failsConfiguration := by rw [alike]
    rw [Task.configuration_run direct, Task.failure?, errorIf_eq_some, Service.configuration, fails]
    split <;> simp_all [Except.map]
  | account home =>
    rw [Task.account_run (Prod.eta _).symm, Task.failure?, errorIf_eq_some]
    change ((now.site.store.perform _).1.map _).mapError _ = _ ↔ _
    rw [reached.store]
    simp only [Store.Records.perform, Store.Records.write]
    split <;> simp_all [Except.map]
  | conversations =>
    rw [Task.conversations_run (Prod.eta _).symm, Task.failure?, errorIf_eq_some]
    change ((now.site.store.perform _).1.map _).mapError _ = _ ↔ _
    rw [reached.store]
    simp only [Store.Records.perform]
    split <;> simp_all [Except.map]
  | unreadable key e => simp [Task.unreadable_run, Task.failure?]
  | activate group =>
    have fails : now.service.failsActivate = start.service.failsActivate := by rw [alike]
    rw [Task.activate_run direct, Task.failure?, errorIf_eq_some, Service.activate, fails]
    split
    · simp_all
    · split <;> simp_all
  | openMetadata group =>
    have fails : now.service.failsMetadata = start.service.failsMetadata := by rw [alike]
    have listed := active group (.inl rfl)
    rw [Task.openMetadata_run direct, Task.failure?, errorIf_eq_some, Service.listMetadata, fails]
    by_cases fails : group ∈ start.service.failsMetadata <;> simp [fails, listed]
  | applyMetadata group event =>
    rw [Task.applyMetadata_run (Prod.eta _).symm, Task.failure?, errorIf_eq_some]
    simp only [quiet.clear, recording, recordMetadata, reached.refuseMetadata, reached.metadataSeen]
    by_cases refuses : start.site.recorder.refuseMetadata =
      some (start.site.recorder.metadataSeen + done.countP Task.appliesMetadata) <;>
      simp [refuses]
  | closeMetadata group logEnd =>
    rw [Task.closeMetadata_run, Task.failure?]
    cases logEnd <;> simp [quiet.clear, errorAt]
  | openMessages group =>
    have fails : now.service.failsMessages = start.service.failsMessages := by rw [alike]
    have listed := active group (.inr rfl)
    rw [Task.openMessages_run direct, Task.failure?, errorIf_eq_some, Service.listMessages, fails]
    by_cases fails : group ∈ start.service.failsMessages <;> simp [fails, listed]
  | applyMessage group event =>
    rw [Task.failure?]
    cases decoded : Message.decode (α := AppMessage) event.message with
    | error e => simp [Task.applyMessage_undecodable decoded, quiet.clear]
    | ok message =>
      rw [Task.applyMessage_run decoded (Prod.eta _).symm, errorIf_eq_some]
      simp only [quiet.clear, recording, recordMessage, reached.refuseMessage, reached.messagesSeen]
      by_cases refuses : start.site.recorder.refuseMessage =
        some (start.site.recorder.messagesSeen + done.countP Task.appliesMessage) <;>
        simp [refuses]
  | closeMessages group logEnd =>
    rw [Task.closeMessages_run, Task.failure?]
    cases logEnd <;> simp [quiet.clear, errorAt]
  | deactivate group =>
    have fails : now.service.failsDeactivate = start.service.failsDeactivate := by rw [alike]
    rw [Task.deactivate_run direct, Task.failure?, errorIf_eq_some, Service.deactivate, fails]
    split
    · simp_all
    · split <;> simp_all

/-! ### Along the tasks that were carried out -/

/-- A task that is in order after others were carried out fails with what the start has for it. -/
theorem Passed.failed_iff {planned rest : List Task} {earlier : List Task}
    (passed : Passed recording start earlier now) (direct : start.link = .direct)
    (quiet : start.token.Quiet) (homeActive : start.service.home ∈ start.service.active)
    (orderly : Orderly start.service.home none planned) (split : planned = earlier ++ task :: rest) :
    ((task.perform recording).run now).1 = .error (.failed e) ↔
      task.failure? start earlier = some e := by
  rw [split] at orderly
  obtain ⟨before, fits, _⟩ := orderly_append_iff.mp orderly
  have keeps := passed.keeps direct (.initial homeActive) before
  have reached := passed.reached direct (.initial start)
  exact Reached.failed_iff (by simpa using reached) (passed.link direct)
    (passed.quiet direct quiet) keeps.alike (keeps.opens_active fits)

/-! ### The group that is given back -/

/-- A failure at `task` strikes after a group was taken and before the attempt to give it back. -/
def Struck (done : List Task) (task : Task) (group : Bytes) : Prop :=
  (∃ before inside, done = before ++ .activate group :: inside ∧ .deactivate group ∉ inside) ∧
    task ≠ .deactivate group

private theorem held_within {home group : Bytes} {inside : List Task}
    (orderly : Orderly home (some group) inside) (kept : .deactivate group ∉ inside) :
    heldAfter (some group) inside = some group := by
  induction inside with
  | nil => rfl
  | cons task rest ih =>
    have stays : task.holding (some group) = some group := by
      cases task with
      | activate other => exact absurd orderly.1.1 nofun
      | deactivate other =>
        obtain rfl : group = other := Option.some.inj orderly.1
        exact absurd List.mem_cons_self kept
      | _ => rfl
    have next := orderly.2
    rw [stays] at next
    calc heldAfter (some group) (task :: rest)
      _ = heldAfter (task.holding (some group)) rest := rfl
      _ = heldAfter (some group) rest := by rw [stays]
      _ = some group := ih next fun member => kept (List.mem_cons_of_mem _ member)

private theorem taken_of_held {group : Bytes} (held : heldAfter none done = some group) :
    ∃ before inside, done = before ++ .activate group :: inside ∧ .deactivate group ∉ inside := by
  -- From the end, since the last task that concerns a group decides.
  induction done using List.reverseRecOn with
  | nil => cases held
  | append_singleton before task ih =>
    rw [heldAfter_append] at held
    have extend (stays : heldAfter none before = some group) (other : task ≠ .deactivate group) :
        ∃ first inside, before ++ [task] = first ++ .activate group :: inside ∧
          .deactivate group ∉ inside := by
      obtain ⟨first, inside, rfl, kept⟩ := ih stays
      exact ⟨first, inside ++ [task], by simp, by simpa [kept] using other.symm⟩
    cases task with
    | activate other =>
      obtain rfl : other = group := Option.some.inj held
      exact ⟨before, [], rfl, nofun⟩
    | deactivate other => cases held
    | _ => exact extend held nofun

/-- A group is held if it was taken and not given back since. -/
theorem heldAfter_eq_some_iff {home group : Bytes} (orderly : Orderly home none done) :
    heldAfter none done = some group ↔
      ∃ before inside, done = before ++ .activate group :: inside ∧ .deactivate group ∉ inside := by
  refine ⟨taken_of_held, ?_⟩
  rintro ⟨before, inside, rfl, kept⟩
  obtain ⟨_, _, within⟩ := orderly_append_iff.mp orderly
  rw [heldAfter_append]
  exact held_within within kept

private theorem struck_iff {home group : Bytes} {rest : List Task}
    (orderly : Orderly home none (done ++ task :: rest)) :
    Struck done task group ↔ task.freed (heldAfter none done) = some group := by
  obtain ⟨before, fits, _⟩ := orderly_append_iff.mp orderly
  rw [Struck, ← heldAfter_eq_some_iff before]
  cases task with
  | deactivate other =>
    have held : heldAfter none done = some other := fits
    simp [Task.freed, held, eq_comm]
  | _ => simp [Task.freed]

/-! ### The trace of a failure -/

/-- A replay that fails does so at the first task that fails from the start.  It is observed as the
plan up to that task, with the call that fails if there is one, and then as the release of the group
that was taken and that nobody tried to give back. -/
theorem failing_replay_trace {run : RecordedRun} (direct : run.link = .direct)
    (quiet : run.token.Quiet) (recorded : run.site.store.recorded = true)
    (homeActive : run.service.home ∈ run.service.active)
    (failed : (replay recording).run run = (.error (.failed e), after)) :
    ∃ done task rest,
      tasks run.service run.site.store.conversations = done ++ task :: rest ∧
      (∀ before earlier between, done = before ++ earlier :: between →
        earlier.failure? run before = none) ∧
      task.failure? run done = some e ∧
      done.filterMap Task.call? ++ task.attempt?.toList <+:
        plan run.service run.site.store.conversations ∧
      ∃ extra,
        after.calls =
          run.calls ++ (done.filterMap Task.call? ++ task.attempt?.toList) ++ extra ∧
        (∀ group, Struck done task group →
          group ≠ run.service.home ∧ extra = [.deactivate (Key.encode group)]) ∧
        ((∀ group, ¬Struck done task group) → extra = []) := by
  obtain ⟨ended, _⟩ | ⟨done, task, rest, middle, halt, stopped, split, passed, struck, ended, last⟩ :=
    replay_cases direct (recorded_lists direct) failed
  · cases ended
  cases ended
  have orderly := orderly_tasks run.service run.site.store.conversations
  have observed : Store.LocalStore.recorded middle.site = true :=
    (passed.reached direct (.initial run)).recorded.trans recorded
  refine ⟨done, task, rest, split, ?_, ?_, ?_, ?_⟩
  · rintro before earlier between rfl
    obtain ⟨found, beforePassed, earlierPassed⟩ := passed_append_iff.mp passed
    cases earlierPassed with
    | cons performed _ =>
      refine Option.eq_none_iff_forall_ne_some.mpr fun other fails => ?_
      have failsNow := (beforePassed.failed_iff direct quiet homeActive orderly
        (by rw [split, List.append_assoc]; rfl)).mpr fails
      rw [performed] at failsNow
      cases failsNow
  · exact (passed.failed_iff direct quiet homeActive orderly split).mp (congrArg Prod.fst struck)
  · rw [← calls_tasks, split, List.filterMap_append, List.filterMap_cons]
    refine List.prefix_append_right_inj _ |>.mpr ?_
    cases task <;> simp [Task.attempt?, Task.call?]
  · have attempted := performed_calls (passed.link direct) struck
    rw [observed] at attempted
    have reported : stopped.calls =
        run.calls ++ (done.filterMap Task.call? ++ task.attempt?.toList) := by
      rw [attempted, passed.calls direct recorded, List.append_assoc]
      exact congrArg _ (congrArg _ task.seen_failed)
    rw [split] at orderly
    cases freed : task.freed (heldAfter none done) with
    | none =>
      refine ⟨[], by rw [last, freed]; simp [stoppedAt, reported], ?_, fun _ => rfl⟩
      intro group struckHere
      cases freed.symm.trans ((struck_iff orderly).mp struckHere)
    | some group =>
      have here : Struck done task group := (struck_iff orderly).mpr freed
      have foreign : group ≠ run.service.home := by
        obtain ⟨before, fits, _⟩ := orderly_append_iff.mp orderly
        have held := (heldAfter_eq_some_iff before).mpr here.1
        exact (passed.keeps direct (.initial homeActive) before).heldForeign group held
      refine ⟨[.deactivate (Key.encode group)], ?_, ?_, fun nowhere => absurd here (nowhere group)⟩
      · rw [last, freed]
        simp [stoppedAt, Run.freed, reported]
      · intro other struckHere
        obtain rfl := Option.some.inj (freed.symm.trans ((struck_iff orderly).mp struckHere))
        exact ⟨foreign, rfl⟩

/-- `twoConversations` with a group whose messages cannot be listed and that cannot be released. -/
def twoFailures : RecordedRun :=
  { twoConversations with
    service := { twoGroups with failsMessages := [[2]], failsDeactivate := [[2]] } }

/-- The trace of a failure after which the release fails too. -/
theorem two_failures_trace :
    let after := ((replay recording).run twoFailures).2
    ∃ done task rest,
      tasks twoFailures.service twoFailures.site.store.conversations = done ++ task :: rest ∧
      (∀ before earlier between, done = before ++ earlier :: between →
        earlier.failure? twoFailures before = none) ∧
      task.failure? twoFailures done = some (.messages "Ag"
        (.listing (.status ⟨.unavailable, "message log unavailable"⟩))) ∧
      done.filterMap Task.call? ++ task.attempt?.toList <+:
        plan twoFailures.service twoFailures.site.store.conversations ∧
      ∃ extra,
        after.calls =
          twoFailures.calls ++ (done.filterMap Task.call? ++ task.attempt?.toList) ++ extra ∧
        (∀ group, Struck done task group →
          group ≠ twoFailures.service.home ∧ extra = [.deactivate (Key.encode group)]) ∧
        ((∀ group, ¬Struck done task group) → extra = []) := by
  have failed : ((replay recording).run twoFailures).1 = .error (.failed (.messages "Ag"
      (.listing (.status ⟨.unavailable, "message log unavailable"⟩)))) := by
    decide +kernel
  exact failing_replay_trace rfl ⟨rfl, fun _ => rfl⟩ rfl (by decide) (Prod.ext failed rfl)

end Replay

end GroupReplay
