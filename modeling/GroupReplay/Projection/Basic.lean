import GroupReplay.Store.Access
import GroupReplay.Wire.Declared

/-!
Handlers of log events: what a replay hands every metadata event and every decoded application
message to.  A handler works on a local side of some type; it has to be fit for seeing the same
event again, because logs are always read from their start.
-/

namespace GroupReplay

open Wire

namespace Projection

/-- What an event lacks. -/
inductive Defect where
  | noContext
  | noMetadata
  /-- The event that the account joined a group does not say which. -/
  | noGroup
  /-- An acknowledgement, known by its content id, does not say what it acknowledges. -/
  | noTarget (cid : String)
  /-- A recording handler was told to fail at this metadata event. -/
  | refusedMetadata
  /-- A recording handler was told to fail at this message. -/
  | refusedMessage
  deriving DecidableEq, Repr

/-- The wording of a defect. -/
def Defect.message : Defect → String
  | .noContext => "event without context"
  | .noMetadata => "metadata event without metadata"
  | .noGroup => "AccountGroupJoined without group"
  | .noTarget cid => s!"acknowledge {cid} without target"
  | .refusedMetadata => "injected metadata failure"
  | .refusedMessage => "injected message failure"

/-- Why a handler did not apply an event. -/
inductive Error where
  | storage (e : Store.Error)
  /-- The event's payload cannot be decoded. -/
  | payload (e : DecodeError)
  | invalid (defect : Defect)
  deriving DecidableEq, Repr

/-- The wording of a handler error. -/
def Error.message : Error → String
  | .storage e => "Storage error: " ++ e.message
  | .payload e => "Event payload decode error: " ++ e.message
  | .invalid defect => "Invalid event: " ++ defect.message

/-- A change of the store, announced to observers. -/
inductive Notice where
  | conversationAdded (conversation : String)
  | memberAdded (conversation member : String)
  | interactionAdded (conversation cid : String)
  | interactionAcknowledged (cid : String)
  deriving DecidableEq, Repr

/-- A handler of log events with a local side of type `η`. -/
structure Handler (η : Type) where
  /-- Applies a metadata log entry. -/
  applyMetadata : MetadataEvent → Action η Error Unit
  /-- Applies a message log entry, with the text form of the key of the group whose log it is from
  and the decoded message. -/
  applyMessage : String → MessageEvent → AppMessage → Action η Error Unit
  /-- Whether applied events are observed as calls. -/
  recorded : Bool

end Projection

end GroupReplay
