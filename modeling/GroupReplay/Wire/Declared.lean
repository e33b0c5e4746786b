import GroupReplay.Wire.Enumeration
import GroupReplay.Wire.Message

/-!
The messages of the protocol service and the envelope of application messages: their fields with
the numbers, names and layouts they have on the wire.
-/

namespace GroupReplay.Wire

/-- Asks for the configuration of the account that the service holds. -/
structure ConfigurationRequest where
  deriving DecidableEq, Repr, Inhabited

instance : Message ConfigurationRequest where
  name := "ServiceGetConfigurationRequest"
  empty := {}
  fields := []

/-- The account that the service holds. -/
structure Configuration where
  accountKey : Bytes := []
  deviceKey : Bytes := []
  /-- Key of the account's home group. -/
  homeKey : Bytes := []
  peer : String := ""
  deriving DecidableEq, Repr, Inhabited

instance : Message Configuration where
  name := "ServiceGetConfigurationReply"
  empty := {}
  fields := [
    .mk 1 "account_pk" .bytes (·.accountKey) fun v m => { m with accountKey := v },
    .mk 2 "device_pk" .bytes (·.deviceKey) fun v m => { m with deviceKey := v },
    .mk 3 "account_group_pk" .bytes (·.homeKey) fun v m => { m with homeKey := v },
    .mk 4 "peer_id" .text (·.peer) fun v m => { m with peer := v }]

/-- Asks for a group's logs to be made readable. -/
structure ActivateGroupRequest where
  group : Bytes := []
  /-- Keep the group off the network. -/
  localOnly : Bool := false
  deriving DecidableEq, Repr, Inhabited

instance : Message ActivateGroupRequest where
  name := "ActivateGroupRequest"
  empty := {}
  fields := [
    .mk 1 "group_pk" .bytes (·.group) fun v m => { m with group := v },
    .mk 2 "local_only" .bool (·.localOnly) fun v m => { m with localOnly := v }]

/-- The group's logs are readable. -/
structure ActivateGroupReply where
  deriving DecidableEq, Repr, Inhabited

instance : Message ActivateGroupReply where
  name := "ActivateGroupReply"
  empty := {}
  fields := []

/-- Asks for a group to be released. -/
structure DeactivateGroupRequest where
  group : Bytes := []
  deriving DecidableEq, Repr, Inhabited

instance : Message DeactivateGroupRequest where
  name := "DeactivateGroupRequest"
  empty := {}
  fields := [
    .mk 1 "group_pk" .bytes (·.group) fun v m => { m with group := v }]

/-- The group is released. -/
structure DeactivateGroupReply where
  deriving DecidableEq, Repr, Inhabited

instance : Message DeactivateGroupReply where
  name := "DeactivateGroupReply"
  empty := {}
  fields := []

/-- Asks for the entries of a group log between two bounds. -/
structure LogListRequest where
  group : Bytes := []
  sinceId : Bytes := []
  sinceNow : Bool := false
  untilId : Bytes := []
  untilNow : Bool := false
  reversed : Bool := false
  deriving DecidableEq, Repr, Inhabited

instance : Message LogListRequest where
  name := "GroupLogListRequest"
  empty := {}
  fields := [
    .mk 1 "group_pk" .bytes (·.group) fun v m => { m with group := v },
    .mk 2 "since_id" .bytes (·.sinceId) fun v m => { m with sinceId := v },
    .mk 3 "since_now" .bool (·.sinceNow) fun v m => { m with sinceNow := v },
    .mk 4 "until_id" .bytes (·.untilId) fun v m => { m with untilId := v },
    .mk 5 "until_now" .bool (·.untilNow) fun v m => { m with untilNow := v },
    .mk 6 "reverse_order" .bool (·.reversed) fun v m => { m with reversed := v }]

/-- Position of an event in a group log. -/
structure EventContext where
  id : Bytes := []
  parents : List Bytes := []
  group : Bytes := []
  deriving DecidableEq, Repr, Inhabited

instance : Message EventContext where
  name := "EventContext"
  empty := {}
  fields := [
    .mk 1 "id" .bytes (·.id) fun v m => { m with id := v },
    .mk 2 "parent_ids" .repeatedBytes (·.parents) fun v m => { m with parents := v },
    .mk 3 "group_pk" .bytes (·.group) fun v m => { m with group := v }]

/-- Kind and signature of a metadata event. -/
structure Metadata where
  /-- A number of `EventType`, or any other. -/
  eventType : Int32 := 0
  payload : Bytes := []
  signature : Bytes := []
  deriving DecidableEq, Repr, Inhabited

instance : Message Metadata where
  name := "GroupMetadata"
  empty := {}
  fields := [
    .mk 1 "event_type" .int32 (·.eventType) fun v m => { m with eventType := v },
    .mk 2 "payload" .bytes (·.payload) fun v m => { m with payload := v },
    .mk 3 "sig" .bytes (·.signature) fun v m => { m with signature := v }]

/-- One entry of a group's metadata log. -/
structure MetadataEvent where
  context : Option EventContext := none
  metadata : Option Metadata := none
  /-- Decrypted payload, to be read according to the event type. -/
  event : Bytes := []
  deriving DecidableEq, Repr, Inhabited

instance : Message MetadataEvent where
  name := "GroupMetadataEvent"
  empty := {}
  fields := [
    .mk 1 "event_context" (.message EventContext) (·.context) fun v m => { m with context := v },
    .mk 2 "metadata" (.message Metadata) (·.metadata) fun v m => { m with metadata := v },
    .mk 3 "event" .bytes (·.event) fun v m => { m with event := v }]

/-- Sender of a message log entry. -/
structure MessageHeaders where
  counter : UInt64 := 0
  deviceKey : Bytes := []
  signature : Bytes := []
  deriving DecidableEq, Repr, Inhabited

instance : Message MessageHeaders where
  name := "MessageHeaders"
  empty := {}
  fields := [
    .mk 1 "counter" .uint64 (·.counter) fun v m => { m with counter := v },
    .mk 2 "device_pk" .bytes (·.deviceKey) fun v m => { m with deviceKey := v },
    .mk 3 "sig" .bytes (·.signature) fun v m => { m with signature := v }]

/-- One entry of a group's message log. -/
structure MessageEvent where
  context : Option EventContext := none
  headers : Option MessageHeaders := none
  /-- Encoded `AppMessage`. -/
  message : Bytes := []
  deriving DecidableEq, Repr, Inhabited

instance : Message MessageEvent where
  name := "GroupMessageEvent"
  empty := {}
  fields := [
    .mk 1 "event_context" (.message EventContext) (·.context) fun v m => { m with context := v },
    .mk 2 "headers" (.message MessageHeaders) (·.headers) fun v m => { m with headers := v },
    .mk 3 "message" .bytes (·.message) fun v m => { m with message := v }]

/-- A group as its members know it. -/
structure Group where
  key : Bytes := []
  secret : Bytes := []
  /-- A number of `GroupType`, or any other. -/
  groupType : Int32 := 0
  deriving DecidableEq, Repr, Inhabited

instance : Message Group where
  name := "Group"
  empty := {}
  fields := [
    .mk 1 "public_key" .bytes (·.key) fun v m => { m with key := v },
    .mk 2 "secret" .bytes (·.secret) fun v m => { m with secret := v },
    .mk 4 "group_type" .int32 (·.groupType) fun v m => { m with groupType := v }]

/-- Payload of the event that the account joined a group. -/
structure GroupJoined where
  deviceKey : Bytes := []
  group : Option Group := none
  deriving DecidableEq, Repr, Inhabited

instance : Message GroupJoined where
  name := "AccountGroupJoined"
  empty := {}
  fields := [
    .mk 1 "device_pk" .bytes (·.deviceKey) fun v m => { m with deviceKey := v },
    .mk 2 "group" (.message Group) (·.group) fun v m => { m with group := v }]

/-- Payload of the event that a member brought a device into a group. -/
structure DeviceAdded where
  memberKey : Bytes := []
  deviceKey : Bytes := []
  memberSignature : Bytes := []
  deriving DecidableEq, Repr, Inhabited

instance : Message DeviceAdded where
  name := "GroupMemberDeviceAdded"
  empty := {}
  fields := [
    .mk 1 "member_pk" .bytes (·.memberKey) fun v m => { m with memberKey := v },
    .mk 2 "device_pk" .bytes (·.deviceKey) fun v m => { m with deviceKey := v },
    .mk 3 "member_sig" .bytes (·.memberSignature) fun v m => { m with memberSignature := v }]

/-- Envelope of an application message. -/
structure AppMessage where
  /-- A number of `AppMessageType`, or any other. -/
  type : Int32 := 0
  payload : Bytes := []
  /-- Milliseconds since the Unix epoch, as the sender claims. -/
  sentDate : Int64 := 0
  /-- Content id of the interaction that the message is about, if any. -/
  target : String := ""
  deriving DecidableEq, Repr, Inhabited

instance : Message AppMessage where
  name := "AppMessage"
  empty := {}
  fields := [
    .mk 1 "r#type" .int32 (·.type) fun v m => { m with type := v },
    .mk 2 "payload" .bytes (·.payload) fun v m => { m with payload := v },
    .mk 3 "sent_date" .int64 (·.sentDate) fun v m => { m with sentDate := v },
    .mk 5 "target_cid" .text (·.target) fun v m => { m with target := v }]

/-- Payload of a text message. -/
structure UserMessage where
  body : String := ""
  deriving DecidableEq, Repr, Inhabited

instance : Message UserMessage where
  name := "UserMessage"
  empty := {}
  fields := [
    .mk 1 "body" .text (·.body) fun v m => { m with body := v }]

/-- The whole log of a group, from its start up to the moment of the listing. -/
def LogListRequest.untilNowOf (group : Bytes) : LogListRequest := { group, untilNow := true }

/-- The event type, undefined when its number names none. -/
def Metadata.typeOrUndefined (metadata : Metadata) : EventType :=
  (EventType.ofNumber? metadata.eventType).getD .undefined

/-- The group type, undefined when its number names none. -/
def Group.typeOrUndefined (group : Group) : GroupType :=
  (GroupType.ofNumber? group.groupType).getD .undefined

/-- The message type, undefined when its number names none. -/
def AppMessage.typeOrUndefined (message : AppMessage) : AppMessageType :=
  (AppMessageType.ofNumber? message.type).getD .undefined

end GroupReplay.Wire
