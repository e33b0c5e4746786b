import GroupReplay.Projection.Basic
import GroupReplay.Service.Client

/-!
Draining a group log: it is listed from its start, and every entry is handed to a handler in log
order.  The first failure ends the drain.  Before each entry and at the end of the log the token is
looked at, and cancellation comes before whatever the log would have brought; a log that stays open
makes the drain wait for ever.
-/

namespace GroupReplay

open Wire Service Projection

namespace Replay

/-- Why a drain ended early. -/
inductive DrainError where
  /-- The log could not be listed to its end. -/
  | listing (e : Service.Error)
  /-- A message is no application message. -/
  | envelope (e : DecodeError)
  | handler (e : Projection.Error)
  deriving DecidableEq, Repr

/-- The wording of a drain error. -/
def DrainError.message : DrainError → String
  | .listing e => "Log list error: " ++ e.message
  | .envelope e => "Application message decode error: " ++ e.message
  | .handler e => e.message

variable {η α : Type}

/-- Hands an event over.  Having been handed over counts as progress even if the handler fails; it
is observed as a call only if the handler does not. -/
def handOver (recorded : Bool) (call : Call) (apply : Action η Projection.Error Unit) :
    Action (Run η) Projection.Error Unit := ⟨fun run =>
  match (Run.locally apply).run run with
  | (.ok (), run) =>
    (.ok (), { (if recorded then run.observe call else run) with token := run.token.applied })
  | (.error e, run) => (.error e, { run with token := run.token.applied })⟩

/-- Hands a metadata event to a handler.  It is observed under the group its context names. -/
def applyMetadata (handler : Handler η) (event : MetadataEvent) :
    Action (Run η) Projection.Error Unit :=
  let context := event.context
  let group := (context.map fun context => Key.encode context.group).getD ""
  let id := (context.map (·.id)).getD []
  handOver handler.recorded (.applyMetadata group id) (handler.applyMetadata event)

/-- Hands a message to a handler.  It is observed under the group whose log it is from. -/
def applyMessage (handler : Handler η) (group : String) (event : MessageEvent)
    (message : AppMessage) : Action (Run η) Projection.Error Unit :=
  let id := (event.context.map (·.id)).getD []
  handOver handler.recorded (.applyMessage group id) (handler.applyMessage group event message)

/-- Decodes the envelope of a message entry and hands it over. -/
def applyEntry (handler : Handler η) (group : String) (event : MessageEvent) :
    Action (Run η) DrainError Unit :=
  match Message.decode event.message with
  | .error e => .fail (.envelope e)
  | .ok message => .mapError .handler (applyMessage handler group event message)

/-- Fails if the token is cancelled. -/
def checkToken : Action (Run η) (Halt DrainError) Unit := ⟨fun run =>
  if run.token.cancelled then (.error (.failed (.listing .cancelled)), run) else (.ok (), run)⟩

/-- What a drain does at the end of a log. -/
def atEnd (ending : Ending) : Action (Run η) (Halt DrainError) Unit :=
  match ending with
  | .complete => pure ()
  | .fails status => .fail (.failed (.listing (.status status)))
  | .hangs => .fail .waiting

/-- Hands the entries of a listing over one after the other, and says how many there were. -/
def drainEntries (apply : α → Action (Run η) DrainError Unit) (ending : Ending) :
    List α → Action (Run η) (Halt DrainError) Nat
  | [] => do
    checkToken
    atEnd ending
    return 0
  | entry :: rest => do
    checkToken
    .mapError .failed (apply entry)
    let more ← drainEntries apply ending rest
    return more + 1

/-- Opens a listing and hands its entries over. -/
def drain (openListing : Action (Run η) Service.Error (Listing α))
    (apply : α → Action (Run η) DrainError Unit) : Action (Run η) (Halt DrainError) Nat := do
  let listing ← .mapError (fun e => .failed (.listing e)) openListing
  .modify fun run => { run with token := run.token.listed }
  drainEntries apply listing.ending listing.entries

/-- Applies every entry of a group's metadata log. -/
def drainMetadata (handler : Handler η) (group : Bytes) : Action (Run η) (Halt DrainError) Nat :=
  drain (Client.listMetadata group) fun event =>
    .mapError .handler (applyMetadata handler event)

/-- Decodes and applies every entry of a group's message log. -/
def drainMessages (handler : Handler η) (group : Bytes) : Action (Run η) (Halt DrainError) Nat :=
  drain (Client.listMessages group) (applyEntry handler (Key.encode group))

end Replay

end GroupReplay
