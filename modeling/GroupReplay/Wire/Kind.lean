import GroupReplay.Wire.Declared

/-!
The kinds of messages that are declared, as one type, to speak about all of them at once.
-/

namespace GroupReplay.Wire

/-- A kind of message. -/
inductive Kind where
  | configurationRequest
  | configuration
  | activateGroupRequest
  | activateGroupReply
  | deactivateGroupRequest
  | deactivateGroupReply
  | logListRequest
  | eventContext
  | metadata
  | metadataEvent
  | messageHeaders
  | messageEvent
  | group
  | groupJoined
  | deviceAdded
  | appMessage
  | userMessage
  deriving DecidableEq, Repr

namespace Kind

/-- All kinds. -/
def all : List Kind :=
  [configurationRequest, configuration, activateGroupRequest, activateGroupReply,
    deactivateGroupRequest, deactivateGroupReply, logListRequest, eventContext, metadata,
    metadataEvent, messageHeaders, messageEvent, group, groupJoined, deviceAdded, appMessage,
    userMessage]

theorem mem_all (kind : Kind) : kind ∈ all := by cases kind <;> decide

/-- The messages of a kind. -/
abbrev Value : Kind → Type
  | configurationRequest => ConfigurationRequest
  | configuration => Configuration
  | activateGroupRequest => ActivateGroupRequest
  | activateGroupReply => ActivateGroupReply
  | deactivateGroupRequest => DeactivateGroupRequest
  | deactivateGroupReply => DeactivateGroupReply
  | logListRequest => LogListRequest
  | eventContext => EventContext
  | metadata => Metadata
  | metadataEvent => MetadataEvent
  | messageHeaders => MessageHeaders
  | messageEvent => MessageEvent
  | group => Group
  | groupJoined => GroupJoined
  | deviceAdded => DeviceAdded
  | appMessage => AppMessage
  | userMessage => UserMessage

instance message : (kind : Kind) → Message kind.Value
  | configurationRequest => inferInstanceAs (Message ConfigurationRequest)
  | configuration => inferInstanceAs (Message Configuration)
  | activateGroupRequest => inferInstanceAs (Message ActivateGroupRequest)
  | activateGroupReply => inferInstanceAs (Message ActivateGroupReply)
  | deactivateGroupRequest => inferInstanceAs (Message DeactivateGroupRequest)
  | deactivateGroupReply => inferInstanceAs (Message DeactivateGroupReply)
  | logListRequest => inferInstanceAs (Message LogListRequest)
  | eventContext => inferInstanceAs (Message EventContext)
  | metadata => inferInstanceAs (Message Metadata)
  | metadataEvent => inferInstanceAs (Message MetadataEvent)
  | messageHeaders => inferInstanceAs (Message MessageHeaders)
  | messageEvent => inferInstanceAs (Message MessageEvent)
  | group => inferInstanceAs (Message Group)
  | groupJoined => inferInstanceAs (Message GroupJoined)
  | deviceAdded => inferInstanceAs (Message DeviceAdded)
  | appMessage => inferInstanceAs (Message AppMessage)
  | userMessage => inferInstanceAs (Message UserMessage)

/-- The name that the messages of a kind are declared under. -/
def name (kind : Kind) : String := Message.name kind.Value

/-- The kind that is declared under a name. -/
def ofName? (name : String) : Option Kind := all.find? (·.name = name)

theorem ofName?_name (kind : Kind) : ofName? kind.name = some kind := by cases kind <;> rfl

/-- The name of the variant that a message's type number names, for the kinds that have one. -/
def typeName? : (kind : Kind) → kind.Value → Option String
  | metadata, value => some (Metadata.typeOrUndefined value).name
  | group, value => some (Group.typeOrUndefined value).name
  | appMessage, value => some (AppMessage.typeOrUndefined value).name
  | _, _ => none

end Kind

end GroupReplay.Wire
