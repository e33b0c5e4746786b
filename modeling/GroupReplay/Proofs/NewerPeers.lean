import GroupReplay.Proofs.Handing
import GroupReplay.Proofs.UndeclaredFields
import GroupReplay.Replay.Drain

/-!
What newer peers send: the messages that are declared, with further fields in them that are not.
Nothing reads such fields.  An envelope that is supplemented by them is handed over as the one without
them, and a payload that is supplemented by them comes to the same writes, except that an interaction
keeps its payload byte by byte.  So handlers fail on the same events, with the same errors, and make
the same conversations and members.
-/

namespace GroupReplay

open Wire Store

namespace Store

/-- A write with another payload, if it is the write of an interaction. -/
def Write.withPayload (payload : Bytes) : Write → Write
  | interaction added => .interaction { added with payload }
  | other => other

/-- No store looks at payloads when it decides what to refuse. -/
theorem AnyStore.refusal?_withPayload (store : AnyStore) (payload : Bytes) (write : Write) :
    store.refusal? (write.withPayload payload).op = store.refusal? write.op := by
  cases store <;> cases write <;> rfl

end Store

namespace Projection

/-- Messages add no members. -/
theorem messageWrites_no_member (conversation : String) (event : MessageEvent)
    (message : AppMessage) :
    ∀ write ∈ writesOf (messageWrites conversation event message),
      ∀ added, write ≠ .member added := by
  intro write member added same
  obtain ⟨_, rfl⟩ | ⟨_, rfl⟩ := messageWrites_kinds conversation event message write member <;>
    cases same

namespace Handed

/-- The payload of what is handed over. -/
def payload : Handed → Bytes
  | metadata event => event.event
  | message delivery => delivery.message.payload

/-- What is handed over, with another payload. -/
def withPayload (payload : Bytes) : Handed → Handed
  | metadata event => .metadata { event with event := payload }
  | message delivery => .message { delivery with message.payload := payload }

/-- The kind of message that the payload is read as, if it is read at all. -/
def payloadKind? : Handed → Option Kind
  | metadata event =>
    match event.metadata.bind fun metadata => EventType.ofNumber? metadata.eventType with
    | some .groupJoined => some .groupJoined
    | some .memberDeviceAdded => some .deviceAdded
    | _ => none
  | message delivery =>
    if storedType? delivery.message.type = some .userMessage then some .userMessage else none

/-- A payload that is that of what is handed over, supplemented by undeclared fields; one that is not
read may be any other. -/
def SupplementedBy (handed : Handed) (payload : Bytes) : Prop :=
  ∀ kind, handed.payloadKind? = some kind → Supplemented kind depthLimit handed.payload payload

variable {account payload : Bytes} {announcing : Bool} {handed : Handed} {desk : Desk AnyStore}

/-! ### The writes -/

/-- A metadata event with a supplemented payload comes to the same writes. -/
theorem metadataWrites_supplemented {event : MetadataEvent}
    (supplemented : (metadata event).SupplementedBy payload) :
    metadataWrites account { event with event := payload } = metadataWrites account event := by
  unfold metadataWrites
  cases context : event.context with
  | none => rfl
  | some inside =>
    cases data : event.metadata with
    | none => rfl
    | some metadata =>
      simp only [SupplementedBy, payloadKind?, data, Option.bind_some, Handed.payload] at supplemented
      dsimp only
      split
      · next joined =>
        have decoded := (supplemented .groupJoined (by rw [joined])).decode
        simp only [joinedWrites]
        rw [show Message.decode (α := GroupJoined) payload = Message.decode event.event from decoded]
      · next added =>
        have decoded := (supplemented .deviceAdded (by rw [added])).decode
        simp only [deviceWrites]
        rw [show Message.decode (α := DeviceAdded) payload = Message.decode event.event from decoded]
      · rfl

/-- A message with a supplemented payload comes to the same writes, with the payload as it is. -/
theorem messageWrites_supplemented {delivery : Delivery}
    (supplemented : (message delivery).SupplementedBy payload) :
    Delivery.writes { delivery with message.payload := payload } =
      delivery.writes.map (List.map fun (write, notice) => (write.withPayload payload, notice)) := by
  unfold Delivery.writes messageWrites
  cases delivery.event.context with
  | none => rfl
  | some context =>
    dsimp only
    split
    · split <;> rfl
    · cases stored : storedType? delivery.message.type with
      | none => rfl
      | some type =>
        dsimp only
        split
        · next text =>
          subst text
          have decoded := (supplemented .userMessage (if_pos stored)).decode
          rw [show Message.decode (α := UserMessage) payload =
            Message.decode delivery.message.payload from decoded]
          cases Message.decode (α := UserMessage) delivery.message.payload <;> rfl
        · rfl

/-! ### The outcome -/

/-- What becomes of writes: the first refusal of one of them ends them, if a store refuses any. -/
def outcome (store : AnyStore) (writes : List Noticed) : Except Error Unit :=
  match writes.findSome? fun each => store.refusal? each.1.op with
  | some e => .error (.storage e)
  | none => .ok ()

/-- What is handed over fails with what is wrong with it, or else with the first refusal of one of its
writes. -/
theorem apply_result (account : Bytes) (announcing : Bool) (handed : Handed)
    (sound : desk.store.Sound) :
    ((handed.apply account announcing).run desk).1 =
      handed.writes account >>= outcome desk.store := by
  rw [apply_writes]
  cases comes : handed.writes account with
  | error e => rfl
  | ok writes =>
    rw [Action.ofExcept_ok, pure_bind]
    change _ = outcome desk.store writes
    cases writes with
    | nil => rfl
    | cons first rest =>
      cases refused : desk.store.refusal? first.1.op with
      | some e => rw [writeAll_refused refused, outcome, List.findSome?_cons, refused]
      | none =>
        have accepted := accepted_of_first comes refused
        obtain ⟨after, ran⟩ :
            ∃ after, (writeAll announcing (first :: rest)).run desk = (.ok (), after) :=
          writeAll_accepted sound accepted
        rw [ran, outcome, List.findSome?_eq_none_iff.mpr accepted]

/-- A message leaves the conversations and the members as they are. -/
theorem message_keeps (account : Bytes) (announcing : Bool) (delivery : Delivery)
    (sound : desk.store.Sound) :
    let after := ((Handed.apply account announcing (.message delivery)).run desk).2
    after.store.records.conversations = desk.store.records.conversations ∧
      after.store.records.members = desk.store.records.members := by
  intro after
  cases ran : (Handed.apply account announcing (.message delivery)).run desk with
  | mk result last =>
    have same : after = last := congrArg Prod.snd ran
    rw [same]
    cases result with
    | error e =>
      rw [unchanged_of_failed sound ran]
      exact ⟨rfl, rfl⟩
    | ok value =>
      rw [(apply_wrote sound ran).records]
      exact ⟨Records.carryAll_conversations (messageWrites_add_none _ _ _) _,
        Records.carryAll_members (messageWrites_no_member _ _ _) _⟩

/-- Undeclared fields in a payload change neither whether what is handed over fails and how, nor the
conversations and the members. -/
theorem apply_supplemented (sound : desk.store.Sound) (supplemented : handed.SupplementedBy payload) :
    let plain := (handed.apply account announcing).run desk
    let longer := ((handed.withPayload payload).apply account announcing).run desk
    longer.1 = plain.1 ∧
      longer.2.store.records.conversations = plain.2.store.records.conversations ∧
      longer.2.store.records.members = plain.2.store.records.members := by
  intro plain longer
  cases handed with
  | metadata event =>
    have same : longer = plain := by
      simp only [longer, plain, apply_writes, withPayload, Handed.writes,
        metadataWrites_supplemented supplemented]
    rw [same]
    exact ⟨rfl, rfl, rfl⟩
  | message delivery =>
    have kept : _ ∧ _ := message_keeps account announcing delivery sound
    have keptToo : _ ∧ _ :=
      message_keeps account announcing { delivery with message.payload := payload } sound
    have result : longer.1 = plain.1 := by
      simp only [longer, plain, apply_result _ _ _ sound, withPayload, Handed.writes,
        messageWrites_supplemented supplemented]
      cases delivery.writes with
      | error e => rfl
      | ok writes =>
        change outcome _ _ = outcome _ _
        simp only [outcome, List.findSome?_map, Function.comp_def, AnyStore.refusal?_withPayload]
    exact ⟨result, keptToo.1.trans kept.1.symm, keptToo.2.trans kept.2.symm⟩

end Handed

end Projection

/-! ### Envelopes -/

namespace Wire

/-- Undeclared fields behind bytes that decode. -/
theorem Kind.supplemented_of_decode {kind : Kind} {value : kind.Value} {first fields : Bytes}
    (decodes : Message.decode first = .ok value)
    (undeclared : WellFormed (Message.Undeclared kind.Value) depthLimit fields) (last : Bytes) :
    Supplemented kind depthLimit (first ++ last) (first ++ fields ++ last) :=
  .fields ⟨value, Message.merge_ok_iff.mp decodes⟩ undeclared last

end Wire

namespace Replay

open Projection

/-- A handler that looks at messages as they were decoded, not at the bytes of their envelopes. -/
def LooksInside {η : Type} (handler : Handler η) : Prop :=
  ∀ group event envelope message,
    handler.applyMessage group { event with message := envelope } message =
      handler.applyMessage group event message

theorem toStore_looksInside {σ : Type} [LocalStore σ] (account : Bytes) :
    LooksInside (toStore account : Handler (Desk σ)) := fun _ _ _ _ => rfl

theorem toStoreSilently_looksInside {σ : Type} [LocalStore σ] (account : Bytes) :
    LooksInside (toStoreSilently account : Handler (Desk σ)) := fun _ _ _ _ => rfl

/-- An entry with a supplemented envelope is applied as the one without the further fields. -/
theorem applyEntry_supplemented {η : Type} {handler : Handler η} (inside : LooksInside handler)
    (group : String) {event : MessageEvent} {envelope : Bytes}
    (supplemented : Supplemented .appMessage depthLimit event.message envelope) :
    applyEntry handler group { event with message := envelope } = applyEntry handler group event := by
  have decoded : Message.decode (α := AppMessage) envelope = Message.decode event.message :=
    supplemented.decode
  simp only [applyEntry, decoded, applyMessage, inside group event envelope]

/-- Fields of newer peers are ignored.  Behind bytes that decode as a message of any kind, undeclared
fields make no difference, whatever follows them; nor do they inside the messages that are in it.  A
payload that is supplemented by such fields fails to be applied exactly if the plain one does, in the
same way, and leads to the same conversations and members; and an entry of a message log is applied
the same if its envelope is supplemented. -/
theorem undeclared_fields_ignored :
    (∀ (kind : Kind) (value : kind.Value) (first fields last : Bytes),
      Message.decode first = .ok value →
        WellFormed (Message.Undeclared kind.Value) depthLimit fields →
          Message.decode (α := kind.Value) (first ++ fields ++ last) =
            Message.decode (first ++ last)) ∧
      (∀ (kind : Kind) (bytes longer : Bytes), Supplemented kind depthLimit bytes longer →
        Message.decode (α := kind.Value) longer = Message.decode bytes) ∧
      (∀ (account payload : Bytes) (announcing : Bool) (handed : Handed) (desk : Desk AnyStore),
        Reachable desk.store → handed.SupplementedBy payload →
          let plain := (handed.apply account announcing).run desk
          let longer := ((handed.withPayload payload).apply account announcing).run desk
          longer.1 = plain.1 ∧
            longer.2.store.records.conversations = plain.2.store.records.conversations ∧
            longer.2.store.records.members = plain.2.store.records.members) ∧
      ∀ (account envelope : Bytes) (group : String) (event : MessageEvent)
        (handler : Handler (Desk AnyStore)), handler ∈ [toStore account, toStoreSilently account] →
          Supplemented .appMessage depthLimit event.message envelope →
            applyEntry handler group { event with message := envelope } =
              applyEntry handler group event := by
  refine ⟨?_, fun kind bytes longer supplemented => supplemented.decode, ?_, ?_⟩
  · intro kind value first fields last decodes undeclared
    exact (Kind.supplemented_of_decode decodes undeclared last).decode
  · intro account payload announcing handed desk reachable supplemented
    exact Handed.apply_supplemented reachable.sound supplemented
  · intro account envelope group event handler among supplemented
    have inside : LooksInside handler := by
      obtain rfl | among := List.mem_cons.mp among
      · exact toStore_looksInside account
      · obtain rfl := List.mem_singleton.mp among
        exact toStoreSilently_looksInside account
    exact applyEntry_supplemented inside group supplemented

/-- A key of a newer version in a group. -/
theorem newer_key (levels : Nat) :
    WellFormed (Message.Undeclared (Kind.Value .group)) (levels + 1) ([0x1a] ++ ([1] ++ [9]) ++ []) :=
  have opens : Tag.Spells ⟨3, .lengthDelimited⟩ [0x1a] := Tag.spells_byte rfl (by decide) (by decide)
  .scalar opens (by decide) (.block (Varint.spells_byte rfl (by decide))) .nil

/-- The payload of a group that was joined, with a key of a newer version in the group and an
undeclared group of fields behind it. -/
theorem newer_payload_supplemented :
    Supplemented .groupJoined depthLimit [0x12, 3, 0x0a, 1, 7]
      [0x12, 6, 0x0a, 1, 7, 0x1a, 1, 9, 0x2b, 0x08, 0x96, 0x01, 0x2c] := by
  have keyed : Supplemented .group 99 ([0x0a, 1, 7] ++ []) ([0x0a, 1, 7] ++ [0x1a, 1, 9] ++ []) :=
    .fields ⟨({ key := [7] } : Group), by cbv⟩ (newer_key 98) []
  have further : WellFormed (Message.Undeclared (Kind.Value .groupJoined)) depthLimit
      ([0x2b] ++ ([0x08] ++ [0x96, 0x01] ++ []) ++ [0x2c] ++ []) :=
    have opens : Tag.Spells ⟨5, .startGroup⟩ [0x2b] := Tag.spells_byte rfl (by decide) (by decide)
    have closes : Tag.Spells ⟨5, .endGroup⟩ [0x2c] := Tag.spells_byte rfl (by decide) (by decide)
    have inside : Tag.Spells ⟨1, .varint⟩ [0x08] := Tag.spells_byte rfl (by decide) (by decide)
    have number : Varint.Spells 150 [0x96, 0x01] :=
      ⟨.more (by decide) (.last (by decide)), by decide, by decide⟩
    .group opens (by decide) (.scalar inside trivial (.varint number) .nil) closes .nil
  have group : Kind.groupJoined.Encloses 2 .group := ⟨_, _, _, .tail _ (.head _)⟩
  have opens : Tag.Spells ⟨2, .lengthDelimited⟩ [0x12] := Tag.spells_byte rfl (by decide) (by decide)
  have once : Supplemented .groupJoined depthLimit ([] ++ ([0x12] ++ ([3] ++ [0x0a, 1, 7])) ++ [])
      ([] ++ ([0x12] ++ ([6] ++ [0x0a, 1, 7, 0x1a, 1, 9])) ++ []) :=
    .inside ⟨({} : GroupJoined), by cbv⟩ group opens (Varint.spells_byte rfl (by decide))
      (Varint.spells_byte rfl (by decide)) keyed []
  have reads : Kind.groupJoined.Reads depthLimit [0x12, 6, 0x0a, 1, 7, 0x1a, 1, 9] :=
    ⟨({ group := some { key := [7] } } : GroupJoined), by decide +kernel⟩
  exact .again once (.fields reads further [])

/-- A group that was joined, told by a newer peer: decoded, and written as a conversation, as it would
be if nothing had been added.  A group is read alike with and without a key of a newer version even if
what follows breaks off, and so is an envelope with an undeclared number behind its fields. -/
theorem newer_group_joined :
    let event : MetadataEvent :=
      { context := some { id := [1], group := [2] }
        metadata := some { eventType := EventType.groupJoined.number }
        event := [0x12, 3, 0x0a, 1, 7] }
    let payload := [0x12, 6, 0x0a, 1, 7, 0x1a, 1, 9, 0x2b, 0x08, 0x96, 0x01, 0x2c]
    let newer := Handed.withPayload payload (.metadata event)
    let message : MessageEvent := { context := some { id := [1], group := [2] }, message := [0x08, 2] }
    let desk : Desk AnyStore := { store := .inTables {} }
    let handler : Handler (Desk AnyStore) := toStore [9]
    Message.decode payload = .ok ({ group := some { key := [7] } } : GroupJoined) ∧
      Message.decode (α := Group) ([0x0a, 1, 7] ++ [0x1a, 1, 9] ++ [0x80]) = .error (.ofFault .varint) ∧
      ((newer.apply [9] true).run desk).2.store.records.conversations = [⟨"Bw", .multiMember⟩] ∧
      applyEntry handler "Ag" { message with message := [0x08, 2, 0x25, 1, 2, 3, 4] } =
        applyEntry handler "Ag" message := by
  intro event payload newer message desk handler
  obtain ⟨behind, within, applied, entered⟩ := undeclared_fields_ignored
  have supplemented : (Handed.metadata event).SupplementedBy payload := by
    intro kind read
    obtain rfl : Kind.groupJoined = kind := Option.some.inj read
    exact newer_payload_supplemented
  have read : Message.decode [0x0a, 1, 7] = .ok ({ key := [7] } : Group) := by cbv
  have number : WellFormed (Message.Undeclared (Kind.Value .appMessage)) depthLimit
      ([0x25] ++ [1, 2, 3, 4] ++ []) :=
    have opens : Tag.Spells ⟨4, .fixed32⟩ [0x25] := Tag.spells_byte rfl (by decide) (by decide)
    .scalar opens (by decide) (.fixed32 rfl) .nil
  have envelope : Supplemented .appMessage depthLimit ([0x08, 2] ++ [])
      ([0x08, 2] ++ [0x25, 1, 2, 3, 4] ++ []) :=
    .fields ⟨({ type := 2 } : AppMessage), by cbv⟩ number []
  refine ⟨?_, ?_, ?_, ?_⟩
  · refine (within .groupJoined _ payload newer_payload_supplemented).trans ?_
    decide +kernel
  · refine (behind .group _ _ _ [0x80] read (newer_key 99)).trans ?_
    cbv
  · refine (applied [9] payload true _ desk .tables supplemented).2.1.trans ?_
    decide +kernel
  · exact entered [9] _ "Ag" message handler (.head _) envelope

end Replay

end GroupReplay
