import GroupReplay.Key
import GroupReplay.Projection.Desk

/-!
The handler that writes conversations, members and interactions into a store and announces every
record it adds and every interaction it newly acknowledges.  It is bound to one account: a device
that is added to the account's own group creates the account conversation.  Every check and every
decoding comes before the first write, so that an event that fails changes nothing.
-/

namespace GroupReplay.Projection

open Wire Store

variable {σ : Type} [LocalStore σ]

/-- Announces a change if it was made and if changes are to be announced. -/
def announceIf (announcing changed : Bool) (notice : Notice) : Action (Desk σ) Error Unit :=
  if announcing && changed then Desk.announce notice else pure ()

/-- The context of an event, which it has to have. -/
def contextOf (context : Option EventContext) : Action (Desk σ) Error EventContext :=
  match context with
  | some context => pure context
  | none => .fail (.invalid .noContext)

/-- Decodes a payload. -/
def decoded (α : Type) [Message α] (bytes : Bytes) : Action (Desk σ) Error α :=
  match Message.decode bytes with
  | .ok message => pure message
  | .error e => .fail (.payload e)

/-- The kind of conversation that a type of group becomes; one of an unknown or undefined type
becomes one of many members. -/
def conversationType (groupType : Int32) : ConversationType :=
  match GroupType.ofNumber? groupType with
  | some .account => .account
  | some .contact => .contact
  | _ => .multiMember

/-- The message types whose messages are stored, with the number they are stored under. -/
def storedType? (type : Int32) : Option AppMessageType :=
  match AppMessageType.ofNumber? type with
  | some .userMessage => some .userMessage
  | some .groupInvitation => some .groupInvitation
  | some .setGroupInfo => some .setGroupInfo
  | some .setUserInfo => some .setUserInfo
  | _ => none

/-- Adds a conversation. -/
def addConversation (announcing : Bool) (conversation : Conversation) :
    Action (Desk σ) Error Unit := do
  let added ← Desk.perform (.addConversation conversation)
  announceIf announcing added (.conversationAdded conversation.key)

/-- The account joined a group: the group becomes a conversation. -/
def groupJoined (announcing : Bool) (event : MetadataEvent) : Action (Desk σ) Error Unit := do
  let joined ← decoded GroupJoined event.event
  match joined.group with
  | none => .fail (.invalid .noGroup)
  | some group =>
    addConversation announcing ⟨Key.encode group.key, conversationType group.groupType⟩

/-- A member's device was added: the member is written, after the account conversation if the group
is the account's own. -/
def deviceAdded (account : Bytes) (announcing : Bool) (context : EventContext)
    (event : MetadataEvent) : Action (Desk σ) Error Unit := do
  let added ← decoded DeviceAdded event.event
  let conversation := Key.encode context.group
  if context.group = account then addConversation announcing ⟨conversation, .account⟩
  let member := Key.encode added.memberKey
  let isNew ← Desk.perform (.addMember ⟨conversation, member, Key.encode added.deviceKey⟩)
  announceIf announcing isNew (.memberAdded conversation member)

/-- Applies a metadata event; most types concern nothing that is stored. -/
def applyMetadata (account : Bytes) (announcing : Bool) (event : MetadataEvent) :
    Action (Desk σ) Error Unit := do
  let context ← contextOf event.context
  match event.metadata with
  | none => .fail (.invalid .noMetadata)
  | some metadata =>
    match EventType.ofNumber? metadata.eventType with
    | some .groupJoined => groupJoined announcing event
    | some .memberDeviceAdded => deviceAdded account announcing context event
    | _ => pure ()

/-- An acknowledgement, known by its content id, of the message's target. -/
def acknowledge (announcing : Bool) (cid : String) (message : AppMessage) :
    Action (Desk σ) Error Unit := do
  if message.target = "" then .fail (.invalid (.noTarget cid))
  let changed ← Desk.perform (.acknowledge message.target)
  announceIf announcing changed (.interactionAcknowledged message.target)

/-- The interaction that a stored message becomes. -/
def interaction (conversation cid : String) (event : MessageEvent) (type : AppMessageType)
    (message : AppMessage) : Interaction where
  cid
  conversation
  device := (event.headers.map fun headers => Key.encode headers.deviceKey).getD ""
  type := type.number
  payload := message.payload
  sentDate := message.sentDate
  acknowledged := false

/-- Applies an application message from the log of `conversation`. -/
def applyMessage (announcing : Bool) (conversation : String) (event : MessageEvent)
    (message : AppMessage) : Action (Desk σ) Error Unit := do
  let context ← contextOf event.context
  let cid := Key.encode context.id
  if AppMessageType.ofNumber? message.type = some .acknowledge then
    acknowledge announcing cid message
  else match storedType? message.type with
    | none => pure ()
    | some type =>
      if type = .userMessage then
        let _ ← decoded UserMessage message.payload
      let isNew ← Desk.perform (.addInteraction (interaction conversation cid event type message))
      announceIf announcing isNew (.interactionAdded conversation cid)

/-- The handler that writes into the store and announces what it changes. -/
def toStore (account : Bytes) : Handler (Desk σ) where
  applyMetadata := applyMetadata account true
  applyMessage := applyMessage true
  recorded := false

/-- The handler that writes into the store silently. -/
def toStoreSilently (account : Bytes) : Handler (Desk σ) where
  applyMetadata := applyMetadata account false
  applyMessage := applyMessage false
  recorded := false

end GroupReplay.Projection
