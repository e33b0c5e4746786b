import GroupReplay.Proofs.DirectLink
import GroupReplay.Proofs.Tasks

/-!
What each task comes to, from the state that it finds: how it ends and what it leaves.  These are
the only places where tasks are opened up; what follows about replays follows from them.
-/

namespace GroupReplay

open Wire Service Projection

namespace Run

variable {η : Type}

/-- The run after another listing was opened. -/
def listed (run : Run η) : Run η := { run with token := run.token.listed }

/-- The run after an event was handed to a handler that left `site`, with what was observed. -/
def handed (seen : List Call) (site : η) (run : Run η) : Run η :=
  { run with calls := run.calls ++ seen, token := run.token.applied, site }

/-- The run after a store operation left `site`, with what was observed. -/
def stored (seen : List Call) (site : η) (run : Run η) : Run η :=
  { run with calls := run.calls ++ seen, site }

/-- The run after a group, if there is one to release, was released. -/
def freed : Option Bytes → Run η → Run η
  | none, run => run
  | some group, run =>
    run.answered (.deactivate (Key.encode group)) (run.service.deactivate group).2

variable (seen : List Call) (site : η) (run : Run η)

@[simp] theorem listed_service : run.listed.service = run.service := rfl
@[simp] theorem listed_link : run.listed.link = run.link := rfl
@[simp] theorem listed_calls : run.listed.calls = run.calls := rfl
@[simp] theorem listed_site : run.listed.site = run.site := rfl
@[simp] theorem listed_token : run.listed.token = run.token.listed := rfl
@[simp] theorem handed_service : (run.handed seen site).service = run.service := rfl
@[simp] theorem handed_link : (run.handed seen site).link = run.link := rfl
@[simp] theorem handed_calls : (run.handed seen site).calls = run.calls ++ seen := rfl
@[simp] theorem handed_site : (run.handed seen site).site = site := rfl
@[simp] theorem handed_token : (run.handed seen site).token = run.token.applied := rfl
@[simp] theorem stored_service : (run.stored seen site).service = run.service := rfl
@[simp] theorem stored_link : (run.stored seen site).link = run.link := rfl
@[simp] theorem stored_calls : (run.stored seen site).calls = run.calls ++ seen := rfl
@[simp] theorem stored_site : (run.stored seen site).site = site := rfl
@[simp] theorem stored_token : (run.stored seen site).token = run.token := rfl
@[simp] theorem freed_none : run.freed none = run := rfl

@[simp] theorem freed_link (group : Option Bytes) : (run.freed group).link = run.link := by
  cases group <;> rfl

@[simp] theorem freed_site (group : Option Bytes) : (run.freed group).site = run.site := by
  cases group <;> rfl

@[simp] theorem freed_token (group : Option Bytes) : (run.freed group).token = run.token := by
  cases group <;> rfl

end Run

namespace Replay

variable {η : Type} {handler : Handler η} {run : Run η}

/-- An event is handed over; that is observed if the handler wants it to be and does not fail. -/
theorem hand_over_run {recorded : Bool} {call : Call}
    {apply : Action η Projection.Error Unit} {result : Except Projection.Error Unit} {site : η}
    (ran : apply.run run.site = (result, site)) :
    (handOver recorded call apply).run run =
      (result, run.handed (if recorded && result.isOk then [call] else []) site) := by
  simp only [handOver, Run.locally, ran]
  cases result <;> cases recorded <;> simp [Run.handed, Run.observe, Except.isOk, Except.toBool]

theorem free_run (direct : run.link = .direct) (group : Option Bytes) :
    (free group).run run = (.ok (), run.freed group) := by
  cases group with
  | none => rfl
  | some group => simp [free, release, Client.deactivate_run direct, Run.freed]

private theorem check_token_run : (checkToken (η := η)).run run =
    if run.token.cancelled then (.error (.failed (.listing .cancelled)), run) else (.ok (), run) :=
  rfl

/-- The call under which a metadata event is observed. -/
def metadataCall (event : MetadataEvent) : Call :=
  .applyMetadata ((event.context.map fun context => Key.encode context.group).getD "")
    ((event.context.map (·.id)).getD [])

/-- The call under which a message of a group's log is observed. -/
def messageCall (group : Bytes) (event : MessageEvent) : Call :=
  .applyMessage (Key.encode group) ((event.context.map (·.id)).getD [])

private theorem hand_metadata (event : MetadataEvent) :
    Replay.applyMetadata handler event =
      handOver handler.recorded (metadataCall event) (handler.applyMetadata event) := rfl

private theorem hand_message (group : Bytes) (event : MessageEvent) (message : AppMessage) :
    Replay.applyMessage handler (Key.encode group) event message =
      handOver handler.recorded (messageCall group event)
        (handler.applyMessage (Key.encode group) event message) := rfl

private theorem close_log_run (logEnd : LogEnd) :
    (closeLog (η := η) logEnd.ending).run run =
      if run.token.cancelled then (.error (.failed (.listing .cancelled)), run)
      else match logEnd with
        | .complete => (.ok (), run)
        | .failAfter _ => (.error (.failed (.listing (.status logUnavailable))), run)
        | .hang => (.error .waiting, run) := by
  simp only [closeLog, Action.run_bind, check_token_run]
  cases run.token.cancelled <;> cases logEnd <;> rfl

theorem store_run [Store.LocalStore η] {α : Type} {op : Store.Op α}
    {answer : Except Store.Error α} {site : η}
    (performed : Store.LocalStore.perform op run.site = (answer, site)) :
    (Store.perform op : Action (Run η) Store.Error α).run run =
      (answer, run.stored
        (if Store.LocalStore.recorded run.site then (Run.callOf op).toList else []) site) := by
  have same : (run.observeOp op).site = run.site := by
    unfold Run.observeOp
    split
    · split <;> rfl
    · rfl
  simp only [Store.perform, Store.LocalStore.perform, same, performed]
  unfold Run.observeOp
  cases Run.callOf op <;> cases Store.LocalStore.recorded run.site <;>
    simp [Run.stored, Run.observe]

namespace Task

variable [Store.LocalStore η]

theorem configuration_run (direct : run.link = .direct) :
    (perform handler configuration).run run =
      ((run.service.configuration.map fun _ => ()).mapError
          fun status => .failed (.configuration (.status status)),
        run.answered .configuration run.service) := by
  simp only [perform, Action.run_bind, Action.mapError, Client.configuration_run direct]
  cases run.service.configuration <;> rfl

theorem account_run {home : Bytes} {answer : Except Store.Error Bool} {site : η}
    (performed :
      Store.LocalStore.perform (.ensureAccount (Key.encode home) "") run.site = (answer, site)) :
    (perform handler (account home)).run run =
      ((answer.map fun _ => ()).mapError fun e => .failed (.storeWrite (Key.encode home) e),
        run.stored (if Store.LocalStore.recorded run.site then [.ensureAccount (Key.encode home)]
          else []) site) := by
  simp only [perform, Action.run_bind, Action.mapError, store_run performed]
  cases answer <;> rfl

theorem conversations_run {answer : Except Store.Error (List Store.Conversation)} {site : η}
    (performed : Store.LocalStore.perform .conversations run.site = (answer, site)) :
    (perform handler conversations).run run =
      ((answer.map fun _ => ()).mapError fun e => .failed (.storeRead e),
        run.stored (if Store.LocalStore.recorded run.site then [.conversations] else []) site) := by
  simp only [perform, Action.run_bind, Action.mapError, store_run performed]
  cases answer <;> rfl

theorem unreadable_run (key : String) (e : Key.DecodeError) :
    (perform handler (unreadable key e)).run run =
      (.error (.failed (.deserialization key (.key e))), run) := rfl

theorem activate_run (direct : run.link = .direct) (group : Bytes) :
    (perform handler (activate group)).run run =
      ((run.service.activate group).1.mapError
          fun status => .failed (.activate (Key.encode group) (.status status)),
        run.answered (.activate (Key.encode group) true) (run.service.activate group).2) := by
  simp only [perform, Replay.activate, Action.mapError, Client.activate_run direct]
  cases (run.service.activate group).1 <;> rfl

theorem deactivate_run (direct : run.link = .direct) (group : Bytes) :
    (perform handler (deactivate group)).run run =
      ((run.service.deactivate group).1.mapError
          fun status => .failed (.deactivate (Key.encode group) (.status status)),
        run.answered (.deactivate (Key.encode group)) (run.service.deactivate group).2) := by
  simp only [perform, Replay.deactivate, Action.mapError, Client.deactivate_run direct]
  cases (run.service.deactivate group).1 <;> rfl

theorem openMetadata_run (direct : run.link = .direct) (group : Bytes) :
    (perform handler (openMetadata group)).run run =
      match run.service.listMetadata group with
      | .ok _ => (.ok (), (run.answered (.listMetadata (Key.encode group)) run.service).listed)
      | .error status =>
        (.error (.failed (.metadata (Key.encode group) (.listing (.status status)))),
          run.answered (.listMetadata (Key.encode group)) run.service) := by
  simp only [perform, openLog, Action.run_bind, Action.mapError, Client.listMetadata_run direct]
  cases run.service.listMetadata group <;> rfl

theorem openMessages_run (direct : run.link = .direct) (group : Bytes) :
    (perform handler (openMessages group)).run run =
      match run.service.listMessages group with
      | .ok _ => (.ok (), (run.answered (.listMessages (Key.encode group)) run.service).listed)
      | .error status =>
        (.error (.failed (.messages (Key.encode group) (.listing (.status status)))),
          run.answered (.listMessages (Key.encode group)) run.service) := by
  simp only [perform, openLog, Action.run_bind, Action.mapError, Client.listMessages_run direct]
  cases run.service.listMessages group <;> rfl

theorem applyMetadata_run {event : MetadataEvent} {result : Except Projection.Error Unit} {site : η}
    (applied : (handler.applyMetadata event).run run.site = (result, site)) (group : Bytes) :
    (perform handler (applyMetadata group event)).run run =
      if run.token.cancelled then
        (.error (.failed (.metadata (Key.encode group) (.listing .cancelled))), run)
      else
        (result.mapError fun e => .failed (.metadata (Key.encode group) (.handler e)),
          run.handed (if handler.recorded && result.isOk then [metadataCall event] else [])
            site) := by
  simp only [perform, handEntry, hand_metadata, Action.run_bind, Action.mapError, check_token_run]
  cases run.token.cancelled with
  | true => rfl
  | false =>
    simp only [Bool.false_eq_true, ↓reduceIte, hand_over_run applied]
    cases result <;> rfl

theorem applyMessage_undecodable {group : Bytes} {event : MessageEvent} {e : DecodeError}
    (undecodable : Message.decode (α := AppMessage) event.message = .error e) :
    (perform handler (applyMessage group event)).run run =
      if run.token.cancelled then
        (.error (.failed (.messages (Key.encode group) (.listing .cancelled))), run)
      else (.error (.failed (.deserialization (Key.encode group) (.envelope e))), run) := by
  simp only [perform, handEntry, applyEntry, undecodable, Action.run_bind, Action.mapError,
    check_token_run]
  cases run.token.cancelled <;> rfl

theorem applyMessage_run {group : Bytes} {event : MessageEvent} {message : AppMessage}
    {result : Except Projection.Error Unit} {site : η}
    (decoded : Message.decode event.message = .ok message)
    (applied : (handler.applyMessage (Key.encode group) event message).run run.site =
      (result, site)) :
    (perform handler (applyMessage group event)).run run =
      if run.token.cancelled then
        (.error (.failed (.messages (Key.encode group) (.listing .cancelled))), run)
      else
        (result.mapError fun e => .failed (.messages (Key.encode group) (.handler e)),
          run.handed (if handler.recorded && result.isOk then [messageCall group event] else [])
            site) := by
  simp only [perform, handEntry, applyEntry, decoded, hand_message, Action.run_bind,
    Action.mapError, check_token_run]
  cases run.token.cancelled with
  | true => rfl
  | false =>
    simp only [Bool.false_eq_true, ↓reduceIte, hand_over_run applied]
    cases result <;> rfl

theorem closeMetadata_run (group : Bytes) (logEnd : LogEnd) :
    (perform handler (closeMetadata group logEnd)).run run =
      if run.token.cancelled then
        (.error (.failed (.metadata (Key.encode group) (.listing .cancelled))), run)
      else match logEnd with
        | .complete => (.ok (), run)
        | .failAfter _ =>
          (.error (.failed (.metadata (Key.encode group) (.listing (.status logUnavailable)))), run)
        | .hang => (.error .waiting, run) := by
  simp only [perform, Action.mapError, close_log_run]
  cases run.token.cancelled <;> cases logEnd <;> rfl

theorem closeMessages_run (group : Bytes) (logEnd : LogEnd) :
    (perform handler (closeMessages group logEnd)).run run =
      if run.token.cancelled then
        (.error (.failed (.messages (Key.encode group) (.listing .cancelled))), run)
      else match logEnd with
        | .complete => (.ok (), run)
        | .failAfter _ =>
          (.error (.failed (.messages (Key.encode group) (.listing (.status logUnavailable)))), run)
        | .hang => (.error .waiting, run) := by
  simp only [perform, Action.mapError, close_log_run]
  cases run.token.cancelled <;> cases logEnd <;> rfl

end Task

end Replay

end GroupReplay
