/-!
Enumerations of the wire format.  They are open: a field holds any 32-bit number, `ofNumber?`
finds the variant a number names, and an accessor falls back to the undefined variant.
-/

namespace GroupReplay.Wire

/-- The wording for a number that names no variant. -/
def unknownVariant (number : Int32) : String := s!"unknown enumeration value {number.toInt}"

/-- Kind of a metadata log entry. -/
inductive EventType where
  | undefined
  | memberDeviceAdded
  | deviceChainKeyAdded
  | metadataPayloadSent
  | replicating
  | groupJoined
  | groupLeft
  | contactRequestDisabled
  | contactRequestEnabled
  deriving DecidableEq, Repr

namespace EventType

def number : EventType → Int32
  | undefined => 0
  | memberDeviceAdded => 1
  | deviceChainKeyAdded => 2
  | metadataPayloadSent => 3
  | replicating => 4
  | groupJoined => 101
  | groupLeft => 102
  | contactRequestDisabled => 103
  | contactRequestEnabled => 104

/-- All variants, by number. -/
def all : List EventType :=
  [undefined, memberDeviceAdded, deviceChainKeyAdded, metadataPayloadSent, replicating, groupJoined,
    groupLeft, contactRequestDisabled, contactRequestEnabled]

/-- The variant a number names. -/
def ofNumber? (number : Int32) : Option EventType := all.find? (·.number = number)

/-- The variant's name on the wire's side. -/
def name : EventType → String
  | undefined => "Undefined"
  | memberDeviceAdded => "GroupMemberDeviceAdded"
  | deviceChainKeyAdded => "GroupDeviceChainKeyAdded"
  | metadataPayloadSent => "GroupMetadataPayloadSent"
  | replicating => "GroupReplicating"
  | groupJoined => "AccountGroupJoined"
  | groupLeft => "AccountGroupLeft"
  | contactRequestDisabled => "AccountContactRequestDisabled"
  | contactRequestEnabled => "AccountContactRequestEnabled"

theorem ofNumber?_number (type : EventType) : ofNumber? type.number = some type := by
  cases type <;> rfl

end EventType

/-- Kind of a group. -/
inductive GroupType where
  | undefined
  | account
  | contact
  | multiMember
  deriving DecidableEq, Repr

namespace GroupType

def number : GroupType → Int32
  | undefined => 0
  | account => 1
  | contact => 2
  | multiMember => 3

/-- All variants, by number. -/
def all : List GroupType := [undefined, account, contact, multiMember]

/-- The variant a number names. -/
def ofNumber? (number : Int32) : Option GroupType := all.find? (·.number = number)

/-- The variant's name on the wire's side. -/
def name : GroupType → String
  | undefined => "Undefined"
  | account => "Account"
  | contact => "Contact"
  | multiMember => "MultiMember"

theorem ofNumber?_number (type : GroupType) : ofNumber? type.number = some type := by
  cases type <;> rfl

end GroupType

/-- Kind of an application message.  Two names none. -/
inductive AppMessageType where
  | undefined
  | userMessage
  | acknowledge
  | groupInvitation
  | setGroupInfo
  | setUserInfo
  deriving DecidableEq, Repr

namespace AppMessageType

def number : AppMessageType → Int32
  | undefined => 0
  | userMessage => 1
  | acknowledge => 3
  | groupInvitation => 4
  | setGroupInfo => 5
  | setUserInfo => 6

/-- All variants, by number. -/
def all : List AppMessageType :=
  [undefined, userMessage, acknowledge, groupInvitation, setGroupInfo, setUserInfo]

/-- The variant a number names. -/
def ofNumber? (number : Int32) : Option AppMessageType := all.find? (·.number = number)

/-- The variant's name on the wire's side. -/
def name : AppMessageType → String
  | undefined => "Undefined"
  | userMessage => "UserMessage"
  | acknowledge => "Acknowledge"
  | groupInvitation => "GroupInvitation"
  | setGroupInfo => "SetGroupInfo"
  | setUserInfo => "SetUserInfo"

theorem ofNumber?_number (type : AppMessageType) : ofNumber? type.number = some type := by
  cases type <;> rfl

end AppMessageType

end GroupReplay.Wire
