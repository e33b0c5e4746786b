import GroupReplay.Proofs.Courses
import GroupReplay.Proofs.RecordedReplay

/-!
The activation of groups in a replay, whatever its handler and its store do, whenever it is
cancelled and however it ends.
-/

namespace GroupReplay

open Wire Service Projection

namespace Replay

/-! ### The calls of a replay -/

section Tasks

variable {η : Type} [Store.LocalStore η] {handler : Handler η} {run after : Run η} {task : Task}
  {start : Service} {trace : List Call} {held : Option Bytes}

/-- A task that is neither to take nor to give back a group, nor to open a log. -/
def Task.Idle : Task → Prop
  | activate _ | deactivate _ | openMetadata _ | openMessages _ => False
  | _ => True

private theorem Task.Idle.seen_neutral {handlerRecorded storeRecorded : Bool} (idle : task.Idle)
    (ok : Bool) :
    ∀ call ∈ task.seen handlerRecorded storeRecorded ok, call.Neutral := by
  cases task <;> first
    | exact idle.elim
    | cases handlerRecorded <;> cases storeRecorded <;> cases ok <;>
        simp [Task.seen, Task.call?, metadataCall, messageCall, Call.Neutral]

/-- A task that is carried out continues the course. -/
private theorem Course.step (course : Course start trace held run.service)
    (homeActive : start.home ∈ start.active) (direct : run.link = .direct)
    (fits : task.Fits start.home held)
    (ran : (task.perform handler).run run = (.ok (), after)) :
    ∃ more, after.calls = run.calls ++ more ∧
      Course start (trace ++ more) (task.holding held) after.service := by
  have alike := (course.keeps homeActive).alike
  refine ⟨_, performed_calls direct ran, ?_⟩
  rw [performed_service direct ran]
  cases task with
  | activate group =>
    obtain ⟨rfl, foreign⟩ := fits
    have accepted := activate_passed direct ran
    rw [alike.failsActivate] at accepted
    exact course.take foreign accepted
  | deactivate group =>
    obtain rfl : held = some group := fits
    have accepted := deactivate_passed direct ran
    rw [alike.failsDeactivate] at accepted
    exact course.giveBack accepted
  | openMetadata group => exact course.openLog fits (.inl rfl)
  | openMessages group => exact course.openLog fits (.inr rfl)
  | _ => exact course.idles (Task.Idle.seen_neutral (by trivial) true)

/-- A task that is not carried out stops it. -/
private theorem Course.stop {halt : Halt Error} (course : Course start trace held run.service)
    (homeActive : start.home ∈ start.active) (direct : run.link = .direct)
    (fits : task.Fits start.home held)
    (ran : (task.perform handler).run run = (.error halt, after)) :
    ∃ more, after.calls = run.calls ++ more ∧
      Stop start (trace ++ more) (task.freed held) after.service := by
  have alike := (course.keeps homeActive).alike
  refine ⟨_, performed_calls direct ran, ?_⟩
  rw [performed_service direct ran]
  cases task with
  | activate group =>
    obtain ⟨rfl, foreign⟩ := fits
    have refuses := activate_failed direct ran
    rw [Task.serve, activate_refused refuses]
    rw [alike.failsActivate] at refuses
    exact .plain (course.refused foreign refuses)
  | deactivate group =>
    obtain rfl : held = some group := fits
    have rejects := deactivate_failed direct ran
    rw [Task.serve, deactivate_rejected rejects]
    rw [alike.failsDeactivate] at rejects
    exact .rejected course rejects
  | openMetadata group => exact .plain (course.openLog fits (.inl rfl))
  | openMessages group => exact .plain (course.openLog fits (.inr rfl))
  | _ => exact .plain (course.idles (Task.Idle.seen_neutral (by trivial) false))

theorem Passed.course {done : List Task} (passed : Passed handler run done after)
    (homeActive : start.home ∈ start.active) (direct : run.link = .direct)
    (orderly : Orderly start.home held done) (course : Course start trace held run.service) :
    ∃ more, after.calls = run.calls ++ more ∧
      Course start (trace ++ more) (heldAfter held done) after.service := by
  induction passed generalizing held trace with
  | nil => exact ⟨[], by simp, by simpa [heldAfter] using course⟩
  | cons passed _ ih =>
    obtain ⟨first, seen, next⟩ := course.step homeActive direct orderly.1 passed
    obtain ⟨more, calls, ended⟩ := ih (performed_link direct passed) orderly.2 next
    rw [List.append_assoc] at ended
    exact ⟨first ++ more, by rw [calls, seen, List.append_assoc], ended⟩

omit [Store.LocalStore η] in
/-- A group that is released afterwards is given back, or the service does not let go of it. -/
private theorem Stop.freed (stop : Stop start trace held run.service)
    (homeActive : start.home ∈ start.active) :
    ∃ more, (run.freed held).calls = run.calls ++ more ∧
      Stop start (trace ++ more) none (run.freed held).service := by
  cases held with
  | none => exact ⟨[], by simp, by simpa using stop⟩
  | some group =>
    refine ⟨[.deactivate (Key.encode group)], rfl, ?_⟩
    cases stop with
    | plain course =>
      have alike := (course.keeps homeActive).alike
      by_cases rejects : group ∈ start.failsDeactivate
      · have same : (run.service.deactivate group).2 = run.service :=
          deactivate_rejected (by rwa [alike.failsDeactivate])
        have kept := Stop.rejected course rejects
        rw [← same] at kept
        exact kept
      · exact .plain (course.giveBack rejects)

/-- However a replay ends, it stops on a course, and with no group held if it ends at all. -/
theorem replay_stops {handlerFor : Bytes → Handler η} {result : Except (Halt Error) Summary}
    (direct : run.link = .direct) (homeActive : run.service.home ∈ run.service.active)
    (ran : (replayWith handlerFor).run run = (result, after)) :
    ∃ trace held, after.calls = run.calls ++ trace ∧ Stop run.service trace held after.service ∧
      (result ≠ .error .waiting → held = none) := by
  obtain ⟨listed, lists⟩ := exists_listed (handlerFor run.service.home) run
  have orderly := orderly_tasks run.service listed
  obtain ⟨rfl, passed⟩ | ⟨done, task, rest, middle, halt, stopped, split, passed, struck, rfl, rfl⟩ :=
    replay_cases direct lists ran
  · obtain ⟨trace, calls, course⟩ := passed.course homeActive direct orderly .begin
    rw [heldAfter_tasks] at course
    exact ⟨trace, none, calls, .plain course, fun _ => rfl⟩
  · rw [split] at orderly
    obtain ⟨before, fits, _⟩ := orderly_append_iff.mp orderly
    obtain ⟨trace, calls, course⟩ := passed.course homeActive direct before .begin
    obtain ⟨more, seen, stop⟩ := course.stop homeActive (passed.link direct) fits struck
    have reported : stopped.calls = run.calls ++ (trace ++ more) := by
      rw [seen, calls, List.append_assoc]
    cases halt with
    | waiting => exact ⟨_, _, reported, stop, fun ended => absurd rfl ended⟩
    | failed e =>
      obtain ⟨last, freed, ended⟩ := stop.freed homeActive
      refine ⟨trace ++ more ++ last, none, ?_, ended, fun _ => rfl⟩
      rw [stoppedAt, freed, reported]
      simp

end Tasks

/-- The status that a replay's error reports, if it is the service that failed. -/
def Error.status? : Error → Option Status
  | configuration (.status status) | activate _ (.status status) | deactivate _ (.status status)
  | metadata _ (.listing (.status status)) | messages _ (.listing (.status status)) => some status
  | _ => none

/-- No task fails because a group is not active, if the logs that it opens are those of an active
group. -/
private theorem failed_code {η : Type} [Store.LocalStore η] {handler : Handler η} {run after : Run η}
    {task : Task} {e : Error} {status : Status} (direct : run.link = .direct)
    (active : ∀ group, task = .openMetadata group ∨ task = .openMessages group →
      group ∈ run.service.active)
    (ran : (task.perform handler).run run = (.error (.failed e), after))
    (reports : e.status? = some status) : status.code ≠ .failedPrecondition := by
  have failed := congrArg Prod.fst ran
  cases task with
  | configuration =>
    rw [Task.configuration_run direct, Service.configuration] at failed
    split at failed <;> cases failed
    cases reports
    decide
  | account home =>
    rw [Task.account_run (Prod.eta _).symm] at failed
    cases answer : (Store.LocalStore.perform (.ensureAccount (Key.encode home) "") run.site).1 <;>
      rw [answer] at failed <;> cases failed
    cases reports
  | conversations =>
    rw [Task.conversations_run (Prod.eta _).symm] at failed
    cases answer : (Store.LocalStore.perform .conversations run.site).1 <;>
      rw [answer] at failed <;> cases failed
    cases reports
  | unreadable key e => cases failed; cases reports
  | activate group =>
    rw [Task.activate_run direct, Service.activate] at failed
    split at failed
    · cases failed
      cases reports
      decide
    · split at failed <;> cases failed
  | openMetadata group =>
    rw [Task.openMetadata_run direct, Service.listMetadata] at failed
    by_cases fails : group ∈ run.service.failsMetadata
    · rw [if_pos fails] at failed
      cases failed
      cases reports
      decide
    · rw [if_neg fails, if_neg (not_not_intro (active group (.inl rfl)))] at failed
      cases failed
  | applyMetadata group event =>
    rw [Task.applyMetadata_run (Prod.eta _).symm] at failed
    split at failed
    · cases failed
      cases reports
    · cases answer : ((handler.applyMetadata event).run run.site).1 <;>
        rw [answer] at failed <;> cases failed
      cases reports
  | closeMetadata group logEnd =>
    rw [Task.closeMetadata_run] at failed
    cases logEnd <;> split at failed <;> cases failed <;> cases reports
    decide
  | openMessages group =>
    rw [Task.openMessages_run direct, Service.listMessages] at failed
    by_cases fails : group ∈ run.service.failsMessages
    · rw [if_pos fails] at failed
      cases failed
      cases reports
      decide
    · rw [if_neg fails, if_neg (not_not_intro (active group (.inr rfl)))] at failed
      cases failed
  | applyMessage group event =>
    cases decoded : Message.decode (α := AppMessage) event.message with
    | error e =>
      rw [Task.applyMessage_undecodable decoded] at failed
      split at failed <;> cases failed <;> cases reports
    | ok message =>
      rw [Task.applyMessage_run decoded (Prod.eta _).symm] at failed
      split at failed
      · cases failed
        cases reports
      · cases answer : ((handler.applyMessage (Key.encode group) event message).run run.site).1 <;>
          rw [answer] at failed <;> cases failed
        cases reports
  | closeMessages group logEnd =>
    rw [Task.closeMessages_run] at failed
    cases logEnd <;> split at failed <;> cases failed <;> cases reports
    decide
  | deactivate group =>
    rw [Task.deactivate_run direct, Service.deactivate] at failed
    split at failed
    · cases failed
      cases reports
      decide
    · split at failed <;> cases failed

/-- However a replay ends, or if it waits for ever, groups are taken and given back one at a time
and logs opened while their group is held; no call of it fails because a group is not active.  If it
ends, every group that was taken is given back, and nothing stays active that was not active before
unless the service did not let go of it. -/
theorem activation_discipline {η : Type} [Store.LocalStore η] {handlerFor : Bytes → Handler η}
    {run after : Run η} {result : Except (Halt Error) Summary} (direct : run.link = .direct)
    (homeActive : run.service.home ∈ run.service.active)
    (ran : (replayWith handlerFor).run run = (result, after)) :
    ∃ trace, after.calls = run.calls ++ trace ∧
      after.service = trace.foldl Service.heed run.service ∧
      Disciplined run.service trace ∧
      (∀ e status, result = .error (.failed e) → e.status? = some status →
        status.code ≠ .failedPrecondition) ∧
      (result ≠ .error .waiting →
        Released run.service trace ∧ run.service.home ∈ after.service.active ∧
        ∀ group ∈ after.service.active, group ∈ run.service.active ∨
          group ∈ run.service.failsDeactivate ∧ .deactivate (Key.encode group) ∈ trace) := by
  obtain ⟨trace, held, calls, stop, ended⟩ := replay_stops direct homeActive ran
  refine ⟨trace, calls, (stop.heeded homeActive).symm, stop.disciplined homeActive, ?_, ?_⟩
  · rintro e status rfl reports
    obtain ⟨listed, lists⟩ := exists_listed (handlerFor run.service.home) run
    obtain ⟨success, _⟩ | ⟨done, task, rest, middle, halt, stopped, split, passed, struck, same, _⟩ :=
      replay_cases direct lists ran
    · cases success
    · cases same
      have orderly := orderly_tasks run.service listed
      rw [split] at orderly
      obtain ⟨before, fits, _⟩ := orderly_append_iff.mp orderly
      have keeps := passed.keeps direct (.initial homeActive) before
      exact failed_code (passed.link direct) (keeps.opens_active fits) struck reports
  · intro ends
    obtain rfl := ended ends
    exact ⟨stop.released, stop.active homeActive⟩

/-- A replay that is cancelled while it holds a group that the service does not let go of. -/
def cancelledInside : RecordedRun :=
  { twoConversations with
    service := { twoGroups with active := [[1], [3]], failsDeactivate := [[2]] }
    token := .afterApplies 2 }

/-- The discipline of a replay that is cancelled while it holds a group. -/
theorem cancelled_inside_discipline :
    let after := ((replay recording).run cancelledInside).2
    ∃ trace, after.calls = cancelledInside.calls ++ trace ∧
      after.service = trace.foldl Service.heed cancelledInside.service ∧
      Disciplined cancelledInside.service trace ∧
      (∀ e status, (.error (.failed (.metadata "Ag" (.listing .cancelled))) :
          Except (Halt Error) Summary) = .error (.failed e) → e.status? = some status →
        status.code ≠ .failedPrecondition) ∧
      ((.error (.failed (.metadata "Ag" (.listing .cancelled))) :
          Except (Halt Error) Summary) ≠ .error .waiting →
        Released cancelledInside.service trace ∧
        cancelledInside.service.home ∈ after.service.active ∧
        ∀ group ∈ after.service.active, group ∈ cancelledInside.service.active ∨
          group ∈ cancelledInside.service.failsDeactivate ∧
            .deactivate (Key.encode group) ∈ trace) := by
  have cancelled : ((replay recording).run cancelledInside).1 =
      .error (.failed (.metadata "Ag" (.listing .cancelled))) := by decide +kernel
  exact activation_discipline rfl (by decide) (Prod.ext cancelled rfl)

end Replay

end GroupReplay
