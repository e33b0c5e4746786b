import GroupReplay.Proofs.EncodedLengths
import GroupReplay.Proofs.FurtherBytes

/-!
Two encodings, one after the other.  What they are read as is written out here for each kind of
message, field by field: a later value counts unless it is the default, lists are put end to end, and a
message inside a message is there if it is in either, overlaid on itself if it is in both.  That this is
what reading comes to is said twice over, for any bytes that can be read and for encodings.
-/

namespace GroupReplay.Wire

/-- The later of two values, or the earlier if the later is the default. -/
def lastSet {β : Type} [DecidableEq β] (default earlier later : β) : β :=
  if later = default then earlier else later

/-- One configuration on another. -/
def Configuration.overlay (earlier later : Configuration) : Configuration where
  accountKey := lastSet [] earlier.accountKey later.accountKey
  deviceKey := lastSet [] earlier.deviceKey later.deviceKey
  homeKey := lastSet [] earlier.homeKey later.homeKey
  peer := lastSet "" earlier.peer later.peer

def ActivateGroupRequest.overlay (earlier later : ActivateGroupRequest) : ActivateGroupRequest where
  group := lastSet [] earlier.group later.group
  localOnly := lastSet false earlier.localOnly later.localOnly

def DeactivateGroupRequest.overlay (earlier later : DeactivateGroupRequest) :
    DeactivateGroupRequest where
  group := lastSet [] earlier.group later.group

def LogListRequest.overlay (earlier later : LogListRequest) : LogListRequest where
  group := lastSet [] earlier.group later.group
  sinceId := lastSet [] earlier.sinceId later.sinceId
  sinceNow := lastSet false earlier.sinceNow later.sinceNow
  untilId := lastSet [] earlier.untilId later.untilId
  untilNow := lastSet false earlier.untilNow later.untilNow
  reversed := lastSet false earlier.reversed later.reversed

/-- The parents of both, those of the earlier one first. -/
def EventContext.overlay (earlier later : EventContext) : EventContext where
  id := lastSet [] earlier.id later.id
  parents := earlier.parents ++ later.parents
  group := lastSet [] earlier.group later.group

def Metadata.overlay (earlier later : Metadata) : Metadata where
  eventType := lastSet 0 earlier.eventType later.eventType
  payload := lastSet [] earlier.payload later.payload
  signature := lastSet [] earlier.signature later.signature

def MetadataEvent.overlay (earlier later : MetadataEvent) : MetadataEvent where
  context := Option.merge EventContext.overlay earlier.context later.context
  metadata := Option.merge Metadata.overlay earlier.metadata later.metadata
  event := lastSet [] earlier.event later.event

def MessageHeaders.overlay (earlier later : MessageHeaders) : MessageHeaders where
  counter := lastSet 0 earlier.counter later.counter
  deviceKey := lastSet [] earlier.deviceKey later.deviceKey
  signature := lastSet [] earlier.signature later.signature

def MessageEvent.overlay (earlier later : MessageEvent) : MessageEvent where
  context := Option.merge EventContext.overlay earlier.context later.context
  headers := Option.merge MessageHeaders.overlay earlier.headers later.headers
  message := lastSet [] earlier.message later.message

def Group.overlay (earlier later : Group) : Group where
  key := lastSet [] earlier.key later.key
  secret := lastSet [] earlier.secret later.secret
  groupType := lastSet 0 earlier.groupType later.groupType

def GroupJoined.overlay (earlier later : GroupJoined) : GroupJoined where
  deviceKey := lastSet [] earlier.deviceKey later.deviceKey
  group := Option.merge Group.overlay earlier.group later.group

def DeviceAdded.overlay (earlier later : DeviceAdded) : DeviceAdded where
  memberKey := lastSet [] earlier.memberKey later.memberKey
  deviceKey := lastSet [] earlier.deviceKey later.deviceKey
  memberSignature := lastSet [] earlier.memberSignature later.memberSignature

def AppMessage.overlay (earlier later : AppMessage) : AppMessage where
  type := lastSet 0 earlier.type later.type
  payload := lastSet [] earlier.payload later.payload
  sentDate := lastSet 0 earlier.sentDate later.sentDate
  target := lastSet "" earlier.target later.target

def UserMessage.overlay (earlier later : UserMessage) : UserMessage where
  body := lastSet "" earlier.body later.body

/-- A later message of a kind laid over an earlier one. -/
def Kind.overlay : (kind : Kind) → kind.Value → kind.Value → kind.Value
  | .configurationRequest => fun _ _ => {}
  | .configuration => Configuration.overlay
  | .activateGroupRequest => ActivateGroupRequest.overlay
  | .activateGroupReply => fun _ _ => {}
  | .deactivateGroupRequest => DeactivateGroupRequest.overlay
  | .deactivateGroupReply => fun _ _ => {}
  | .logListRequest => LogListRequest.overlay
  | .eventContext => EventContext.overlay
  | .metadata => Metadata.overlay
  | .metadataEvent => MetadataEvent.overlay
  | .messageHeaders => MessageHeaders.overlay
  | .messageEvent => MessageEvent.overlay
  | .group => Group.overlay
  | .groupJoined => GroupJoined.overlay
  | .deviceAdded => DeviceAdded.overlay
  | .appMessage => AppMessage.overlay
  | .userMessage => UserMessage.overlay

/-- A message inside a message is joined by joining what is inside. -/
theorem Codec.message_join {γ : Type} [Message γ] {overlay : γ → γ → γ}
    (inner : ∀ earlier later, Message.join earlier later = overlay earlier later)
    (earlier later : Option γ) :
    (Codec.message γ).join earlier later = Option.merge overlay earlier later := by
  cases earlier with
  | none => cases later <;> rfl
  | some outer =>
    cases later with
    | none => rfl
    | some other => exact congrArg some (inner outer other)

/-- Messages are joined field by field. -/
theorem Kind.join_eq_overlay (kind : Kind) (earlier later : kind.Value) :
    Message.join earlier later = kind.overlay earlier later := by
  cases kind with
  | metadataEvent =>
    exact (MetadataEvent.mk.injEq ..).mpr
      ⟨Codec.message_join (fun _ _ => rfl) _ _, Codec.message_join (fun _ _ => rfl) _ _, rfl⟩
  | messageEvent =>
    exact (MessageEvent.mk.injEq ..).mpr
      ⟨Codec.message_join (fun _ _ => rfl) _ _, Codec.message_join (fun _ _ => rfl) _ _, rfl⟩
  | groupJoined =>
    exact (GroupJoined.mk.injEq ..).mpr ⟨rfl, Codec.message_join (fun _ _ => rfl) _ _⟩
  | _ => rfl

namespace Kind

variable {kind : Kind}

/-- What is written for one value is read onto another as the later laid over the earlier. -/
theorem merge_encode (earlier later : kind.Value)
    (fits : (Message.encode later).length < lengthLimit) :
    Message.merge earlier (Message.encode later) = .ok (kind.overlay earlier later) := by
  have shallow : 1 ≤ depthLimit := by decide
  have merged := kind.faithful.mergeUntil_encode shallow earlier later fits []
  rw [List.append_nil, kind.join_eq_overlay] at merged
  exact Message.merge_ok_iff.mpr merged

/-- Two encodings are read as the later value laid over the earlier. -/
theorem decode_encodings (earlier later : kind.Value)
    (fits : (Message.encode earlier).length < lengthLimit)
    (fitsToo : (Message.encode later).length < lengthLimit) :
    Message.decode (Message.encode earlier ++ Message.encode later) =
      .ok (kind.overlay earlier later) :=
  (kind.steady.decode_append _ (decode_encode earlier fits)).trans (merge_encode earlier later fitsToo)

/-- Bytes that can be read as a message, with any bytes behind them, are read as the latter are onto
what the former come to, also where that is an error; and two encodings are read as the later value
laid over the earlier.  The lengths of encodings have to be numbers of 64 bits, as those of all that
fits into memory are. -/
theorem decode_concatenated (kind : Kind) :
    (∀ (bytes more : Bytes) (value : kind.Value), Message.decode bytes = .ok value →
        Message.decode (bytes ++ more) = Message.merge value more) ∧
      ∀ earlier later : kind.Value, (Message.encode earlier).length < lengthLimit →
        (Message.encode later).length < lengthLimit →
          Message.decode (Message.encode earlier ++ Message.encode later) =
            .ok (kind.overlay earlier later) :=
  ⟨fun _ more _ => kind.steady.decode_append more, decode_encodings⟩

/-- A metadata event in two parts: both have a context, of which the parents of both are kept and the
later group counts, and only the first has the metadata.  A last part breaks off inside a tag. -/
theorem metadata_event_in_parts :
    let first : MetadataEvent :=
      { context := some { id := [1], parents := [[2], []], group := [3] }
        metadata := some { eventType := 101 }, event := [4] }
    let second : MetadataEvent := { context := some { parents := [[5]], group := [6] } }
    let both : MetadataEvent :=
      { context := some { id := [1], parents := [[2], [], [5]], group := [6] }
        metadata := some { eventType := 101 }, event := [4] }
    Message.decode (Message.encode first ++ Message.encode second) = .ok both ∧
      Message.decode (Message.encode first ++ [0x80]) =
        (.error (.ofFault .varint) : Except DecodeError MetadataEvent) := by
  intro first second both
  obtain ⟨onto, together⟩ := decode_concatenated .metadataEvent
  have read : Message.decode (Message.encode first) = .ok first :=
    @decode_encode .metadataEvent first (by decide +kernel)
  have broken : Message.merge first [0x80] = .error (.ofFault .varint) := by cbv
  exact ⟨together first second (by decide +kernel) (by decide +kernel),
    (onto _ [0x80] first read).trans broken⟩

end Kind

end GroupReplay.Wire
