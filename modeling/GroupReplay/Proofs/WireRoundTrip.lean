import GroupReplay.Wire.Kind
import Mathlib.Data.List.Basic

/-!
Reading what was written.  A codec is faithful if it absorbs what it wrote for a later value onto an
earlier one and ends at their join, one payload after the other and whatever bytes follow.  A message
is if its fields have numbers of their own, accessors that fit together and faithful codecs, and its
default value adds nothing.  What is written for one value and then read onto another comes to their
join, and read onto the default value to the value itself.

Lengths are written as numbers of 64 bits, so all this is about values whose encoding is shorter than
`lengthLimit`.
-/

namespace GroupReplay.Wire

/-- The least length that is too great for the number in front of a block. -/
def lengthLimit : Nat := 0x10000000000000000

theorem length_le_writeBlock (block : Bytes) : block.length ≤ (writeBlock block).length := by
  simp [writeBlock]

namespace Codec

variable {β : Type} {codec : Codec β} {depth levels : Nat}

/-- Payloads that are absorbed one after the other, whatever follows them, with the value before the
first and the value after the last. -/
inductive Absorbs (codec : Codec β) (depth : Nat) : β → List Bytes → β → Prop where
  | nil (value : β) : Absorbs codec depth value [] value
  | cons {value next last : β} {payload : Bytes} {payloads : List Bytes}
      (first : ∀ rest, codec.absorb depth value (payload ++ rest) = .ok (next, rest))
      (others : Absorbs codec depth next payloads last) :
      Absorbs codec depth value (payload :: payloads) last

theorem Absorbs.single {value next : β} {payload : Bytes}
    (first : ∀ rest, codec.absorb depth value (payload ++ rest) = .ok (next, rest)) :
    codec.Absorbs depth value [payload] next :=
  .cons first (.nil next)

/-- A codec reads what it wrote for a later value onto an earlier one, if so many levels of depth are
left, and the value of an absent field adds nothing to a later one. -/
structure Faithful (codec : Codec β) (levels : Nat) : Prop where
  join_empty : ∀ value, codec.join codec.empty value = value
  absorbs : ∀ {depth}, levels ≤ depth → ∀ earlier later,
    (∀ payload ∈ codec.payloads later, payload.length < lengthLimit) →
      codec.Absorbs depth earlier (codec.payloads later) (codec.join earlier later)

theorem Faithful.mono {levels' : Nat} (faithful : codec.Faithful levels) (more : levels ≤ levels') :
    codec.Faithful levels' :=
  ⟨faithful.join_empty, fun enough => faithful.absorbs (Nat.le_trans more enough)⟩

theorem lift_ok {read : Bytes → Except Fault (β × Bytes)} {bytes rest : Bytes} {value : β}
    (ok : read bytes = .ok (value, rest)) : lift read bytes = .ok (value, rest) := by
  rw [lift, ok]

/-- A scalar field is faithful if its reader undoes its writer. -/
theorem scalar_faithful [DecidableEq β] {wireType : WireType} {empty : β} {write : β → Bytes}
    {size : β → Nat} {read : Bytes → Except Fault (β × Bytes)}
    {shortens : ∀ {bytes value rest}, read bytes = .ok (value, rest) → rest.length ≤ bytes.length}
    (undoes : ∀ value rest, (write value).length < lengthLimit →
      read (write value ++ rest) = .ok (value, rest)) :
    (scalar wireType empty write size read shortens).Faithful 0 where
  join_empty value := by
    simp only [scalar]
    split
    · next absent => exact absent.symm
    · rfl
  absorbs _ earlier later fits := by
    simp only [scalar] at fits ⊢
    split at fits
    · next absent =>
      rw [if_pos absent, if_pos absent]
      exact .nil earlier
    · next present =>
      rw [if_neg present, if_neg present]
      exact .single fun rest => lift_ok (undoes later rest (fits _ (List.mem_singleton_self _)))

/-- A number field is faithful if its conversions undo each other below 2⁶⁴. -/
theorem number_faithful [DecidableEq β] {empty : β} {toNat : β → Nat} {ofNat : Nat → β}
    (small : ∀ value, toNat value < 0x10000000000000000)
    (undoes : ∀ value, ofNat (toNat value) = value) : (number empty toNat ofNat).Faithful 0 :=
  scalar_faithful fun value rest _ => by
    rw [readAs, Varint.read_write _ _ (small value)]
    simp only [undoes]

theorem bool_faithful : bool.Faithful 0 :=
  number_faithful (by decide) (by decide)

theorem uint64_faithful : uint64.Faithful 0 :=
  number_faithful UInt64.toNat_lt fun _ => UInt64.ofNat_toNat

theorem int64_faithful : int64.Faithful 0 :=
  number_faithful (fun value => value.toUInt64.toNat_lt) fun value => by
    rw [UInt64.ofNat_toNat, Int64.toInt64_toUInt64]

theorem int32_faithful : int32.Faithful 0 :=
  number_faithful (fun value => value.toInt64.toUInt64.toNat_lt) fun value => by
    rw [UInt64.ofNat_toNat, Int64.toInt64_toUInt64, Int32.toInt32_toInt64]

theorem readBlock_written {block : Bytes} (fits : (writeBlock block).length < lengthLimit)
    (rest : Bytes) : readBlock (writeBlock block ++ rest) = .ok (block, rest) :=
  readBlock_writeBlock block rest (Nat.lt_of_le_of_lt (length_le_writeBlock block) fits)

theorem bytes_faithful : bytes.Faithful 0 :=
  scalar_faithful fun _ rest fits => readBlock_written fits rest

theorem text_faithful : text.Faithful 0 :=
  scalar_faithful fun value rest fits => by
    simp only [readText, readBlock_written fits rest, Bytes.toText?_ofText]

theorem repeatedBytes_faithful : repeatedBytes.Faithful 0 where
  join_empty _ := rfl
  absorbs {depth} _ earlier later fits := by
    induction later generalizing earlier with
    | nil =>
      have same : repeatedBytes.join earlier [] = earlier := List.append_nil earlier
      rw [same]
      exact .nil earlier
    | cons block others ih =>
      obtain ⟨here, later⟩ := List.forall_mem_cons.mp fits
      have same : repeatedBytes.join earlier (block :: others) =
          repeatedBytes.join (earlier ++ [block]) others := List.append_cons earlier block others
      rw [same]
      refine .cons (fun rest => lift_ok ?_) (ih (earlier ++ [block]) later)
      rw [readOneMore, readBlock_written here rest]

end Codec

namespace Field

variable {α : Type}

/-- A field's accessors fit together. -/
structure Lawful (field : Field α) : Prop where
  get_set : ∀ part value, field.get (field.set part value) = part
  set_set : ∀ part earlier value, field.set part (field.set earlier value) = field.set part value
  set_get : ∀ value, field.set (field.get value) value = value

end Field

namespace Message

/-- Fields have different numbers, which fit into a tag. -/
abbrev Numbered (α : Type) [Message α] : Prop :=
  ((fields (α := α)).map (·.number)).Nodup ∧
    ∀ number ∈ (fields (α := α)).map (·.number), 0 < number ∧ number < 0x20000000

/-- A message type whose fields read what they wrote, so many levels of depth provided, and whose
default value adds nothing. -/
structure Faithful (α : Type) [Message α] (levels : Nat) : Prop where
  numbered : Numbered α
  accessors : (fields (α := α)).Forall (·.Lawful)
  codecs : (fields (α := α)).Forall (·.codec.Faithful levels)
  join_empty : ∀ value : α, join empty value = value

variable {α : Type} [Message α] {levels depth left : Nat}

theorem mergeUntil_next {bytes rest after : Bytes} {tag : Tag} {value next : α}
    (more : left < bytes.length) (opened : Tag.read bytes = .ok (tag, rest))
    (absorbed : absorb tag depth value rest = .ok (next, after)) :
    mergeUntil left depth value bytes = mergeUntil left depth next after := by
  rw [mergeUntil, if_neg (Nat.not_le.mpr more)]
  split
  · next fails => rw [opened] at fails; cases fails
  · next found =>
    rw [opened] at found
    cases found
    split
    · next fails => rw [absorbed] at fails; cases fails
    · next found => rw [absorbed] at found; cases found; rfl

theorem mergeUntil_done (value : α) (rest : Bytes) :
    mergeUntil rest.length depth value rest = .ok (value, rest) := by
  rw [mergeUntil, if_pos (Nat.le_refl _)]

namespace Faithful

variable (faithful : Faithful α levels)
include faithful

theorem lawful {field : Field α} (declared : field ∈ Message.fields (α := α)) : field.Lawful :=
  List.forall_iff_forall_mem.mp faithful.accessors field declared

theorem field {field : Field α} (declared : field ∈ Message.fields (α := α)) :
    field.codec.Faithful levels :=
  List.forall_iff_forall_mem.mp faithful.codecs field declared

theorem field?_number {field : Field α} (declared : field ∈ Message.fields (α := α)) :
    field? α field.number = some field := by
  obtain ⟨before, after, split⟩ := List.append_of_mem declared
  have distinct := faithful.numbered.1
  rw [split, List.map_append, List.map_cons, List.nodup_append] at distinct
  rw [field?, List.find?_eq_some_iff_append]
  refine ⟨decide_eq_true rfl, before, after, split, fun other earlier => ?_⟩
  have differs := distinct.2.2 _ (List.mem_map_of_mem earlier) _ (List.mem_cons_self ..)
  simpa using differs

theorem read_tag {field : Field α} (declared : field ∈ Message.fields (α := α)) (rest : Bytes) :
    Tag.read (field.tag.write ++ rest) = .ok (field.tag, rest) := by
  obtain ⟨positive, narrow⟩ := faithful.numbered.2 _ (List.mem_map_of_mem declared)
  exact Tag.read_write rest positive narrow

/-- Payloads of a field, each after its tag, are absorbed into the field's part of a value. -/
theorem mergeUntil_payloads {field : Field α} (declared : field ∈ Message.fields (α := α))
    {part last : field.β} {payloads : List Bytes}
    (absorbs : field.codec.Absorbs depth part payloads last) {value : α}
    (held : field.get value = part) {rest : Bytes} (room : left ≤ rest.length) :
    mergeUntil left depth value (payloads.flatMap (field.tag.write ++ ·) ++ rest) =
      mergeUntil left depth (field.set last value) rest := by
  have accessors := faithful.lawful declared
  induction absorbs generalizing value with
  | nil part => rw [← held, accessors.set_get]; rfl
  | @cons part next last payload payloads first others ih =>
    have following : List.flatMap (field.tag.write ++ ·) (payload :: payloads) ++ rest =
        field.tag.write ++ (payload ++ (payloads.flatMap (field.tag.write ++ ·) ++ rest)) := by
      simp only [List.flatMap_cons, List.append_assoc]
    have tagged : 0 < field.tag.write.length :=
      List.length_pos_iff.mpr (Varint.write_ne_nil _)
    have more : left < (List.flatMap (field.tag.write ++ ·) (payload :: payloads) ++ rest).length := by
      rw [following]
      simp only [List.length_append]
      omega
    have absorbed : absorb field.tag depth value
        (payload ++ (payloads.flatMap (field.tag.write ++ ·) ++ rest)) =
          .ok (field.set next value, payloads.flatMap (field.tag.write ++ ·) ++ rest) := by
      have found : field? α field.tag.number = some field := faithful.field?_number declared
      simp only [absorb, found, Field.absorb, held, first]
      exact if_neg (not_not.mpr rfl)
    rw [mergeUntil_next more (following ▸ faithful.read_tag declared _) absorbed,
      ih (accessors.get_set next value), accessors.set_set]

/-- What is written for declared fields of one value is read onto another as their join. -/
theorem mergeUntil_fields (enough : levels ≤ depth) {declared : List (Field α)}
    (among : declared ⊆ Message.fields) (earlier later : α)
    (fits : (declared.flatMap (·.encode later)).length < lengthLimit) {rest : Bytes}
    (room : left ≤ rest.length) :
    mergeUntil left depth earlier (declared.flatMap (·.encode later) ++ rest) =
      mergeUntil left depth (declared.foldl (fun value field => field.join value later) earlier)
        rest := by
  induction declared generalizing earlier with
  | nil => rfl
  | cons field others ih =>
    obtain ⟨here, there⟩ := List.cons_subset.mp among
    rw [List.flatMap_cons, List.length_append] at fits
    have short (payload : Bytes) (written : payload ∈ field.codec.payloads (field.get later)) :
        payload.length < lengthLimit := by
      have part : payload.length ≤ (field.encode later).length := by
        obtain ⟨before, after, split⟩ := List.append_of_mem written
        rw [Field.encode, split]
        simp only [List.flatMap_append, List.flatMap_cons, List.length_append]
        omega
      omega
    have absorbs := (faithful.field here).absorbs enough (field.get earlier)
      (field.get later) short
    rw [List.flatMap_cons, List.append_assoc, List.foldl_cons, Field.encode,
      faithful.mergeUntil_payloads here absorbs rfl (by rw [List.length_append]; omega)]
    exact ih there _ (by omega)

/-- What is written for one value is read onto another as their join, and what follows is left. -/
theorem mergeUntil_encode (enough : levels ≤ depth) (earlier later : α)
    (fits : (encode later).length < lengthLimit) (rest : Bytes) :
    mergeUntil rest.length depth earlier (encode later ++ rest) =
      .ok (join earlier later, rest) :=
  (faithful.mergeUntil_fields enough (List.Subset.refl _) earlier later fits (Nat.le_refl _)).trans
    (mergeUntil_done _ rest)

theorem mergeBlock_encodeDelimited (enough : levels < depth) (earlier later : α)
    (fits : (encode later).length < lengthLimit) (rest : Bytes) :
    mergeBlock depth earlier (encodeDelimited later ++ rest) = .ok (join earlier later, rest) := by
  have whole : (encode later ++ rest).length - (encode later).length = rest.length := by
    rw [List.length_append, Nat.add_sub_cancel_left]
  rw [mergeBlock, if_neg (by omega), encodeDelimited, writeBlock, List.append_assoc,
    Varint.read_write _ _ fits]
  simp only [whole, faithful.mergeUntil_encode (by omega : levels ≤ depth - 1) earlier later fits]
  rw [if_neg (by rw [List.length_append]; omega), if_pos trivial]

/-- Decoding an encoding gives the value back. -/
theorem decode_encode (shallow : levels ≤ depthLimit) (value : α)
    (fits : (encode value).length < lengthLimit) : decode (encode value) = .ok value := by
  have merged := faithful.mergeUntil_encode shallow empty value fits []
  rw [List.append_nil] at merged
  rw [decode, merge]
  exact merged ▸ congrArg Except.ok (faithful.join_empty value)

/-- A message inside a message takes a level of depth more. -/
theorem codec : (Codec.message α).Faithful (levels + 1) where
  join_empty value := by cases value <;> rfl
  absorbs {depth} enough earlier later fits := by
    cases later with
    | none => cases earlier <;> exact .nil _
    | some inner =>
      have short : (Message.encode inner).length < lengthLimit :=
        Nat.lt_of_le_of_lt (length_le_writeBlock _) (fits _ (List.mem_singleton_self _))
      have joined : some (Message.join (earlier.getD Message.empty) inner) =
          (Codec.message α).join earlier (some inner) := by
        cases earlier with
        | none => exact congrArg some (faithful.join_empty inner)
        | some outer => rfl
      refine .single fun rest => ?_
      simp only [Codec.message] at joined ⊢
      rw [faithful.mergeBlock_encodeDelimited enough _ inner short]
      exact congrArg (fun part => Except.ok (part, rest)) joined

theorem mono {levels' : Nat} (more : levels ≤ levels') : Faithful α levels' where
  numbered := faithful.numbered
  accessors := faithful.accessors
  codecs := List.forall_iff_forall_mem.mpr fun _ declared => (faithful.field declared).mono more
  join_empty := faithful.join_empty

end Faithful

end Message

/-! ### The declared messages -/

section Declared

open Codec

theorem ConfigurationRequest.faithful : Message.Faithful ConfigurationRequest 0 where
  numbered := by decide
  accessors := trivial
  codecs := trivial
  join_empty _ := rfl

theorem Configuration.faithful : Message.Faithful Configuration 0 where
  numbered := by decide
  accessors := by (repeat' constructor) <;> intros <;> rfl
  codecs := ⟨bytes_faithful, bytes_faithful, bytes_faithful, text_faithful⟩
  join_empty _ := (mk.injEq ..).mpr
    ⟨bytes_faithful.join_empty _, bytes_faithful.join_empty _, bytes_faithful.join_empty _,
     text_faithful.join_empty _⟩

theorem ActivateGroupRequest.faithful : Message.Faithful ActivateGroupRequest 0 where
  numbered := by decide
  accessors := by (repeat' constructor) <;> intros <;> rfl
  codecs := ⟨bytes_faithful, bool_faithful⟩
  join_empty _ := (mk.injEq ..).mpr
    ⟨bytes_faithful.join_empty _, bool_faithful.join_empty _⟩

theorem ActivateGroupReply.faithful : Message.Faithful ActivateGroupReply 0 where
  numbered := by decide
  accessors := trivial
  codecs := trivial
  join_empty _ := rfl

theorem DeactivateGroupRequest.faithful : Message.Faithful DeactivateGroupRequest 0 where
  numbered := by decide
  accessors := by (repeat' constructor) <;> intros <;> rfl
  codecs := bytes_faithful
  join_empty _ := (mk.injEq ..).mpr (bytes_faithful.join_empty _)

theorem DeactivateGroupReply.faithful : Message.Faithful DeactivateGroupReply 0 where
  numbered := by decide
  accessors := trivial
  codecs := trivial
  join_empty _ := rfl

theorem LogListRequest.faithful : Message.Faithful LogListRequest 0 where
  numbered := by decide
  accessors := by (repeat' constructor) <;> intros <;> rfl
  codecs :=
    ⟨bytes_faithful, bytes_faithful, bool_faithful, bytes_faithful, bool_faithful, bool_faithful⟩
  join_empty _ := (mk.injEq ..).mpr
    ⟨bytes_faithful.join_empty _, bytes_faithful.join_empty _, bool_faithful.join_empty _,
     bytes_faithful.join_empty _, bool_faithful.join_empty _, bool_faithful.join_empty _⟩

theorem EventContext.faithful : Message.Faithful EventContext 0 where
  numbered := by decide
  accessors := by (repeat' constructor) <;> intros <;> rfl
  codecs := ⟨bytes_faithful, repeatedBytes_faithful, bytes_faithful⟩
  join_empty _ := (mk.injEq ..).mpr
    ⟨bytes_faithful.join_empty _, repeatedBytes_faithful.join_empty _,
     bytes_faithful.join_empty _⟩

theorem Metadata.faithful : Message.Faithful Metadata 0 where
  numbered := by decide
  accessors := by (repeat' constructor) <;> intros <;> rfl
  codecs := ⟨int32_faithful, bytes_faithful, bytes_faithful⟩
  join_empty _ := (mk.injEq ..).mpr
    ⟨int32_faithful.join_empty _, bytes_faithful.join_empty _, bytes_faithful.join_empty _⟩

theorem MetadataEvent.faithful : Message.Faithful MetadataEvent 1 where
  numbered := by decide
  accessors := by (repeat' constructor) <;> intros <;> rfl
  codecs :=
    ⟨EventContext.faithful.codec, Metadata.faithful.codec, bytes_faithful.mono (Nat.zero_le _)⟩
  join_empty _ := (mk.injEq ..).mpr
    ⟨EventContext.faithful.codec.join_empty _, Metadata.faithful.codec.join_empty _,
     bytes_faithful.join_empty _⟩

theorem MessageHeaders.faithful : Message.Faithful MessageHeaders 0 where
  numbered := by decide
  accessors := by (repeat' constructor) <;> intros <;> rfl
  codecs := ⟨uint64_faithful, bytes_faithful, bytes_faithful⟩
  join_empty _ := (mk.injEq ..).mpr
    ⟨uint64_faithful.join_empty _, bytes_faithful.join_empty _, bytes_faithful.join_empty _⟩

theorem MessageEvent.faithful : Message.Faithful MessageEvent 1 where
  numbered := by decide
  accessors := by (repeat' constructor) <;> intros <;> rfl
  codecs :=
    ⟨EventContext.faithful.codec, MessageHeaders.faithful.codec,
     bytes_faithful.mono (Nat.zero_le _)⟩
  join_empty _ := (mk.injEq ..).mpr
    ⟨EventContext.faithful.codec.join_empty _, MessageHeaders.faithful.codec.join_empty _,
     bytes_faithful.join_empty _⟩

theorem Group.faithful : Message.Faithful Group 0 where
  numbered := by decide
  accessors := by (repeat' constructor) <;> intros <;> rfl
  codecs := ⟨bytes_faithful, bytes_faithful, int32_faithful⟩
  join_empty _ := (mk.injEq ..).mpr
    ⟨bytes_faithful.join_empty _, bytes_faithful.join_empty _, int32_faithful.join_empty _⟩

theorem GroupJoined.faithful : Message.Faithful GroupJoined 1 where
  numbered := by decide
  accessors := by (repeat' constructor) <;> intros <;> rfl
  codecs := ⟨bytes_faithful.mono (Nat.zero_le _), Group.faithful.codec⟩
  join_empty _ := (mk.injEq ..).mpr
    ⟨bytes_faithful.join_empty _, Group.faithful.codec.join_empty _⟩

theorem DeviceAdded.faithful : Message.Faithful DeviceAdded 0 where
  numbered := by decide
  accessors := by (repeat' constructor) <;> intros <;> rfl
  codecs := ⟨bytes_faithful, bytes_faithful, bytes_faithful⟩
  join_empty _ := (mk.injEq ..).mpr
    ⟨bytes_faithful.join_empty _, bytes_faithful.join_empty _, bytes_faithful.join_empty _⟩

theorem AppMessage.faithful : Message.Faithful AppMessage 0 where
  numbered := by decide
  accessors := by (repeat' constructor) <;> intros <;> rfl
  codecs := ⟨int32_faithful, bytes_faithful, int64_faithful, text_faithful⟩
  join_empty _ := (mk.injEq ..).mpr
    ⟨int32_faithful.join_empty _, bytes_faithful.join_empty _, int64_faithful.join_empty _,
     text_faithful.join_empty _⟩

theorem UserMessage.faithful : Message.Faithful UserMessage 0 where
  numbered := by decide
  accessors := by (repeat' constructor) <;> intros <;> rfl
  codecs := text_faithful
  join_empty _ := (mk.injEq ..).mpr (text_faithful.join_empty _)

/-- Messages of every kind read what they wrote. -/
theorem Kind.faithful (kind : Kind) : Message.Faithful kind.Value 1 := by
  cases kind with
  | configurationRequest => exact .mono ConfigurationRequest.faithful (Nat.zero_le 1)
  | configuration => exact .mono Configuration.faithful (Nat.zero_le 1)
  | activateGroupRequest => exact .mono ActivateGroupRequest.faithful (Nat.zero_le 1)
  | activateGroupReply => exact .mono ActivateGroupReply.faithful (Nat.zero_le 1)
  | deactivateGroupRequest => exact .mono DeactivateGroupRequest.faithful (Nat.zero_le 1)
  | deactivateGroupReply => exact .mono DeactivateGroupReply.faithful (Nat.zero_le 1)
  | logListRequest => exact .mono LogListRequest.faithful (Nat.zero_le 1)
  | eventContext => exact .mono EventContext.faithful (Nat.zero_le 1)
  | metadata => exact .mono Metadata.faithful (Nat.zero_le 1)
  | metadataEvent => exact MetadataEvent.faithful
  | messageHeaders => exact .mono MessageHeaders.faithful (Nat.zero_le 1)
  | messageEvent => exact MessageEvent.faithful
  | group => exact .mono Group.faithful (Nat.zero_le 1)
  | groupJoined => exact GroupJoined.faithful
  | deviceAdded => exact .mono DeviceAdded.faithful (Nat.zero_le 1)
  | appMessage => exact .mono AppMessage.faithful (Nat.zero_le 1)
  | userMessage => exact .mono UserMessage.faithful (Nat.zero_le 1)

end Declared

end GroupReplay.Wire
