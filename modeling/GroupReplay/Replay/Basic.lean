import GroupReplay.Projection.ToStore
import GroupReplay.Replay.Drain

/-!
The replay of an account: its home group is asked for, its account record ensured, the home group's
metadata log drained, and then, for every conversation that the store lists at that point, its logs.
A group other than home is activated for the time its two logs are drained, without announcing it
on the network, and released afterwards, also when a drain fails.  The first failure ends the
replay.
-/

namespace GroupReplay

open Wire Service Projection

namespace Replay

/-- What a conversation's key or message could not be decoded for. -/
inductive Undecodable where
  | key (e : Key.DecodeError)
  | envelope (e : DecodeError)
  deriving DecidableEq, Repr

/-- The wording of what could not be decoded. -/
def Undecodable.message : Undecodable → String
  | .key e => e.message
  | .envelope e => e.message

/-- Why a replay ended early.  Groups are named by the text form of their keys. -/
inductive Error where
  | configuration (e : Service.Error)
  | storeRead (e : Store.Error)
  | storeWrite (account : String) (e : Store.Error)
  | deserialization (group : String) (e : Undecodable)
  | activate (group : String) (e : Service.Error)
  | deactivate (group : String) (e : Service.Error)
  | metadata (group : String) (e : DrainError)
  | messages (group : String) (e : DrainError)
  deriving DecidableEq, Repr

namespace Error

/-- The wording of a replay error. -/
def message : Error → String
  | configuration e => "Unable to get protocol configuration: " ++ e.message
  | storeRead e => "Unable to list conversations: " ++ e.message
  | storeWrite account e => s!"Unable to create account {account}: {e.message}"
  | deserialization group e => s!"Unable to deserialize data of group {group}: {e.message}"
  | activate group e => s!"Unable to activate group {group}: {e.message}"
  | deactivate group e => s!"Unable to deactivate group {group}: {e.message}"
  | metadata group e => s!"Unable to replay metadata of group {group}: {e.message}"
  | messages group e => s!"Unable to replay messages of group {group}: {e.message}"

/-- The name of the kind of error. -/
def kind : Error → String
  | configuration _ => "Configuration"
  | storeRead _ => "StoreRead"
  | storeWrite _ _ => "StoreWrite"
  | deserialization _ _ => "Deserialization"
  | activate _ _ => "GroupActivate"
  | deactivate _ _ => "GroupDeactivate"
  | metadata _ _ => "MetadataReplay"
  | messages _ _ => "MessageReplay"

/-- A drain of messages that failed.  An envelope that cannot be decoded is reported as such and
not as a failed drain. -/
def ofMessages (group : Bytes) : DrainError → Error
  | .envelope e => deserialization (Key.encode group) (.envelope e)
  | e => messages (Key.encode group) e

end Error

/-- The totals of a completed replay. -/
structure Summary where
  /-- Conversations whose logs were replayed. -/
  groups : Nat := 0
  metadata : Nat := 0
  messages : Nat := 0
  deriving DecidableEq, Repr

variable {η : Type}

/-- Activates a group without announcing it. -/
def activate (group : Bytes) : Action (Run η) Error Unit :=
  .mapError (.activate (Key.encode group)) (Client.activate group true)

/-- Releases a group. -/
def deactivate (group : Bytes) : Action (Run η) Error Unit :=
  .mapError (.deactivate (Key.encode group)) (Client.deactivate group)

/-- Releases a group after its replay failed; that this may fail too is nobody's concern. -/
def release (group : Bytes) : Action (Run η) Error Unit := ⟨fun run =>
  (.ok (), ((Client.deactivate group).run run).2)⟩

/-- Replays a group's metadata log. -/
def metadata (handler : Handler η) (group : Bytes) : Action (Run η) (Halt Error) Nat :=
  .mapError (.map (.metadata (Key.encode group))) (drainMetadata handler group)

/-- Replays a group's message log. -/
def messages (handler : Handler η) (group : Bytes) : Action (Run η) (Halt Error) Nat :=
  .mapError (.map (Error.ofMessages group)) (drainMessages handler group)

/-- Replays both logs of an active group. -/
def bothLogs (handler : Handler η) (group : Bytes) : Action (Run η) (Halt Error) (Nat × Nat) := do
  let metadataCount ← metadata handler group
  let messageCount ← messages handler group
  return (metadataCount, messageCount)

/-- Replays a conversation and says how many metadata events and messages it had.  The home group's
metadata log has been replayed before. -/
def conversation (handler : Handler η) (home : Bytes) (conversation : Store.Conversation) :
    Action (Run η) (Halt Error) (Nat × Nat) := do
  match Key.decode conversation.key with
  | .error e => .fail (.failed (.deserialization conversation.key (.key e)))
  | .ok group =>
    if group = home then
      let messageCount ← messages handler group
      return (0, messageCount)
    else
      .mapError .failed (activate group)
      let counts ← (bothLogs handler group).cleaningUp (release group)
      .mapError .failed (deactivate group)
      return counts

/-- Replays conversations one after the other and adds up their totals. -/
def conversations (handler : Handler η) (home : Bytes) (summary : Summary) :
    List Store.Conversation → Action (Run η) (Halt Error) Summary
  | [] => pure summary
  | next :: rest => do
    let (metadataCount, messageCount) ← conversation handler home next
    conversations handler home
      ⟨summary.groups + 1, summary.metadata + metadataCount, summary.messages + messageCount⟩ rest

/-- Replays the account that the service holds, with the handler for its home group. -/
def replayWith [Store.LocalStore η] (handlerFor : Bytes → Handler η) :
    Action (Run η) (Halt Error) Summary := do
  let configuration ← .mapError (fun e => .failed (.configuration e)) Client.configuration
  let home := configuration.homeKey
  let account := Key.encode home
  let _ ← .mapError (fun e => .failed (.storeWrite account e))
    (Store.perform (.ensureAccount account ""))
  let handler := handlerFor home
  let metadataCount ← metadata handler home
  let listed ← .mapError (fun e => .failed (.storeRead e)) (Store.perform .conversations)
  conversations handler home { metadata := metadataCount } listed

/-- Replays the account that the service holds with a given handler. -/
def replay [Store.LocalStore η] (handler : Handler η) : Action (Run η) (Halt Error) Summary :=
  replayWith fun _ => handler

/-- Replays the account that the service holds into the store of a desk, silently. -/
def replayToStore {σ : Type} [Store.LocalStore σ] :
    Action (Run (Desk σ)) (Halt Error) Summary :=
  replayWith toStoreSilently

end Replay

end GroupReplay
