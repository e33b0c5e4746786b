import GroupReplay.Proofs.WireRoundTrip
import Mathlib.Algebra.Order.BigOperators.Group.List
import Mathlib.Algebra.Order.Group.Nat
import Mathlib.Data.Nat.Log

/-!
The length that is counted before anything is written.  A number takes a byte for every seven of its
bits, which `Varint.size` computes without dividing by seven; that is right for numbers of 64 bits and
for no others.  A codec is measured if the sizes it counts are those of the payloads it writes, and a
message is if its fields are.  Together with what `WireRoundTrip` says, a message of any kind is read
back from an encoding of the counted length, which no other message of its kind has.
-/

namespace GroupReplay.Wire

namespace Varint

theorem log2_of_large {n : Nat} (large : 128 ≤ n) : Nat.log2 n = Nat.log2 (n / 128) + 7 := by
  have seven : n / 128 = n / 2 ^ 7 := rfl
  have enough : 7 ≤ Nat.log 2 n := (Nat.le_log_iff_pow_le (by decide) (by omega)).mpr large
  rw [Nat.log2_eq_log_two, Nat.log2_eq_log_two, seven, Nat.log_div_base_pow]
  omega

/-- One byte, and one more for every seven bits below the highest. -/
theorem length_write (n : Nat) : (write n).length = Nat.log2 (max n 1) / 7 + 1 := by
  fun_induction write n with
  | case1 n small =>
    have bits : Nat.log2 (max n 1) < 7 := (Nat.log2_lt (by omega)).mpr (by omega)
    rw [List.length_singleton]
    omega
  | case2 n large ih =>
    have positive : max (n / 128) 1 = n / 128 := by omega
    rw [positive] at ih
    have bits : Nat.log2 n = Nat.log2 (n / 128) + 7 := log2_of_large (by omega)
    rw [List.length_cons, ih, Nat.max_eq_left (by omega), bits]
    omega

/-- The counted size is that of the bytes, up to 64 bits. -/
theorem size_eq_length_write {n : Nat} (small : n < lengthLimit) : size n = (write n).length := by
  have sixtyFour : ∀ bits < 64, (bits * 9 + 73) / 64 = bits / 7 + 1 := by decide
  have bits : Nat.log2 (max n 1) < 64 := (Nat.log2_lt (by omega)).mpr (by
    unfold lengthLimit at small
    omega)
  rw [length_write, size, sixtyFour _ bits]

end Varint

theorem Tag.size_eq_length_write {tag : Tag} (narrow : tag.number < 0x20000000) :
    tag.size = tag.write.length := by
  have code := tag.wireType.code_lt
  exact Varint.size_eq_length_write (by unfold lengthLimit; omega)

/-- The size counted for a block: that of its length, and its own. -/
theorem blockSize_eq_length {block : Bytes} (fits : (writeBlock block).length < lengthLimit) :
    Varint.size block.length + block.length = (writeBlock block).length := by
  have short : block.length < lengthLimit := Nat.lt_of_le_of_lt (length_le_writeBlock block) fits
  rw [writeBlock, List.length_append, Varint.size_eq_length_write short]

namespace Codec

variable {β : Type} {codec : Codec β}

/-- A codec counts the sizes of the payloads it writes. -/
def Measured (codec : Codec β) : Prop :=
  ∀ value, (∀ payload ∈ codec.payloads value, payload.length < lengthLimit) →
    codec.sizes value = (codec.payloads value).map List.length

/-- A scalar field is measured if the size of its one payload is. -/
theorem scalar_measured [DecidableEq β] {wireType : WireType} {empty : β} {write : β → Bytes}
    {size : β → Nat} {read : Bytes → Except Fault (β × Bytes)}
    {shortens : ∀ {bytes value rest}, read bytes = .ok (value, rest) → rest.length ≤ bytes.length}
    (counts : ∀ value, (write value).length < lengthLimit → size value = (write value).length) :
    (scalar wireType empty write size read shortens).Measured := by
  intro value fits
  simp only [scalar] at fits ⊢
  split at fits
  · next absent => rw [if_pos absent, if_pos absent]; rfl
  · next present =>
    rw [if_neg present, if_neg present, counts value (fits _ (List.mem_singleton_self _))]
    rfl

theorem number_measured [DecidableEq β] {empty : β} {toNat : β → Nat} {ofNat : Nat → β}
    (small : ∀ value, toNat value < lengthLimit) : (number empty toNat ofNat).Measured :=
  scalar_measured fun value _ => Varint.size_eq_length_write (small value)

theorem bool_measured : bool.Measured := number_measured (by decide)

theorem uint64_measured : uint64.Measured := number_measured UInt64.toNat_lt

theorem int64_measured : int64.Measured := number_measured fun value => value.toUInt64.toNat_lt

theorem int32_measured : int32.Measured :=
  number_measured fun value => value.toInt64.toUInt64.toNat_lt

theorem bytes_measured : bytes.Measured := scalar_measured fun _ => blockSize_eq_length

/-- A text is as long as its UTF-8 form. -/
theorem text_measured : text.Measured := scalar_measured fun _ => blockSize_eq_length

theorem repeatedBytes_measured : repeatedBytes.Measured := by
  intro blocks fits
  have counted : ∀ block ∈ blocks,
      Varint.size block.length + block.length = (writeBlock block).length := fun block among =>
    blockSize_eq_length (fits _ (List.mem_map_of_mem among))
  exact (List.map_congr_left counted).trans List.map_map.symm

end Codec

namespace Field

variable {α : Type} {field : Field α}

/-- A field is as long as counted if its codec is measured. -/
theorem encodedLength_eq (measured : field.codec.Measured) (narrow : field.number < 0x20000000)
    {value : α} (fits : (field.encode value).length < lengthLimit) :
    field.encodedLength value = (field.encode value).length := by
  have whole : (field.encode value).length =
      ((field.codec.payloads (field.get value)).map fun payload =>
        (field.tag.write ++ payload).length).sum := List.length_flatMap
  have short : ∀ payload ∈ field.codec.payloads (field.get value),
      payload.length < lengthLimit := by
    intro payload written
    have part := List.le_sum_of_mem
      (List.mem_map_of_mem (f := fun payload => (field.tag.write ++ payload).length) written)
    rw [List.length_append] at part
    omega
  have each : ∀ payload ∈ field.codec.payloads (field.get value),
      field.tag.size + payload.length = (field.tag.write ++ payload).length := by
    intro payload _
    have tag : field.tag.size = field.tag.write.length := Tag.size_eq_length_write narrow
    rw [List.length_append, tag]
  rw [encodedLength, measured _ short, List.map_map, whole]
  exact congrArg total (List.map_congr_left each)

end Field

namespace Message

/-- A message is as long as counted before it is written. -/
def Measured (α : Type) [Message α] : Prop :=
  ∀ value : α, (encode value).length < lengthLimit → encodedLength value = (encode value).length

variable {α : Type} [Message α]

/-- Messages are measured if the codecs of their fields are. -/
theorem Measured.of_codecs (numbered : Numbered α)
    (codecs : (fields (α := α)).Forall (·.codec.Measured)) : Measured α := by
  intro value fits
  have whole : (encode value).length =
      ((fields (α := α)).map fun field => (field.encode value).length).sum := List.length_flatMap
  have each : ∀ field ∈ fields (α := α),
      field.encodedLength value = (field.encode value).length := by
    intro field declared
    have part := List.le_sum_of_mem
      (List.mem_map_of_mem (f := fun field => (field.encode value).length) declared)
    exact field.encodedLength_eq (List.forall_iff_forall_mem.mp codecs field declared)
      (numbered.2 _ (List.mem_map_of_mem declared)).2 (by omega)
  rw [whole, encodedLength, List.map_congr_left each]
  rfl

/-- A message inside a message is counted as a block of its own counted length. -/
theorem Measured.codec (measured : Measured α) : (Codec.message α).Measured := by
  intro value fits
  cases value with
  | none => rfl
  | some inner =>
    have block : (encodeDelimited inner).length < lengthLimit := fits _ (List.mem_singleton_self _)
    have short : (encode inner).length < lengthLimit :=
      Nat.lt_of_le_of_lt (length_le_writeBlock _) block
    have counted : Varint.size (encodedLength inner) + encodedLength inner =
        (encodeDelimited inner).length := by
      rw [measured inner short]
      exact blockSize_eq_length block
    exact congrArg (fun size => [size]) counted

end Message

section Declared

open Codec

theorem EventContext.measured : Message.Measured EventContext :=
  .of_codecs EventContext.faithful.numbered ⟨bytes_measured, repeatedBytes_measured, bytes_measured⟩

theorem Metadata.measured : Message.Measured Metadata :=
  .of_codecs Metadata.faithful.numbered ⟨int32_measured, bytes_measured, bytes_measured⟩

theorem MessageHeaders.measured : Message.Measured MessageHeaders :=
  .of_codecs MessageHeaders.faithful.numbered ⟨uint64_measured, bytes_measured, bytes_measured⟩

theorem Group.measured : Message.Measured Group :=
  .of_codecs Group.faithful.numbered ⟨bytes_measured, bytes_measured, int32_measured⟩

/-- Messages of every kind are as long as counted. -/
theorem Kind.measured (kind : Kind) : Message.Measured kind.Value := by
  cases kind with
  | eventContext => exact EventContext.measured
  | metadata => exact Metadata.measured
  | messageHeaders => exact MessageHeaders.measured
  | group => exact Group.measured
  | configurationRequest | activateGroupReply | deactivateGroupReply =>
    exact .of_codecs (Kind.faithful _).numbered trivial
  | configuration =>
    exact .of_codecs Configuration.faithful.numbered
      ⟨bytes_measured, bytes_measured, bytes_measured, text_measured⟩
  | activateGroupRequest =>
    exact .of_codecs ActivateGroupRequest.faithful.numbered ⟨bytes_measured, bool_measured⟩
  | deactivateGroupRequest =>
    exact .of_codecs DeactivateGroupRequest.faithful.numbered bytes_measured
  | logListRequest =>
    exact .of_codecs LogListRequest.faithful.numbered
      ⟨bytes_measured, bytes_measured, bool_measured, bytes_measured, bool_measured,
       bool_measured⟩
  | metadataEvent =>
    exact .of_codecs MetadataEvent.faithful.numbered
      ⟨EventContext.measured.codec, Metadata.measured.codec, bytes_measured⟩
  | messageEvent =>
    exact .of_codecs MessageEvent.faithful.numbered
      ⟨EventContext.measured.codec, MessageHeaders.measured.codec, bytes_measured⟩
  | groupJoined =>
    exact .of_codecs GroupJoined.faithful.numbered ⟨bytes_measured, Group.measured.codec⟩
  | deviceAdded =>
    exact .of_codecs DeviceAdded.faithful.numbered
      ⟨bytes_measured, bytes_measured, bytes_measured⟩
  | appMessage =>
    exact .of_codecs AppMessage.faithful.numbered
      ⟨int32_measured, bytes_measured, int64_measured, text_measured⟩
  | userMessage => exact .of_codecs UserMessage.faithful.numbered text_measured

end Declared

namespace Kind

variable {kind : Kind}

theorem decode_encode (value : kind.Value) (fits : (Message.encode value).length < lengthLimit) :
    Message.decode (Message.encode value) = .ok value :=
  kind.faithful.decode_encode (by decide) value fits

theorem encode_injective {value other : kind.Value}
    (fits : (Message.encode value).length < lengthLimit)
    (same : Message.encode other = Message.encode value) : other = value := by
  have read := decode_encode other (same ▸ fits)
  rw [same, decode_encode value fits] at read
  exact (Except.ok.inj read).symm

/-- An encoding of any kind is read back as the value it was written for, has the length that was
counted for it, and is the encoding of no other value.  Its length has to be a number of 64 bits, as
that of any block is that fits into memory. -/
theorem encoding_exact (kind : Kind) (value : kind.Value)
    (fits : (Message.encode value).length < lengthLimit) :
    Message.decode (Message.encode value) = .ok value ∧
      Message.encodedLength value = (Message.encode value).length ∧
        ∀ other : kind.Value, Message.encode other = Message.encode value → other = value :=
  ⟨decode_encode value fits, kind.measured value fits, fun _ same => encode_injective fits same⟩

/-- An event whose context is present but empty and whose type no variant has, and an application
message whose numbers are all negative: each of the latter takes ten bytes. -/
theorem encoding_exact_extremes :
    let event : MetadataEvent :=
      { context := some {}, metadata := some { eventType := -7, payload := [0xff] } }
    let message : AppMessage := { type := -1, sentDate := -9223372036854775808, target := "ü" }
    (Message.decode (Message.encode event) = .ok event ∧
        Message.encodedLength event = (Message.encode event).length ∧
          ∀ other : MetadataEvent, Message.encode other = Message.encode event → other = event) ∧
      (Message.decode (Message.encode message) = .ok message ∧
        Message.encodedLength message = (Message.encode message).length ∧
          ∀ other : AppMessage, Message.encode other = Message.encode message →
            other = message) ∧
      (Message.encode event).length = 18 ∧ (Message.encode message).length = 26 := by
  intro event message
  have eventLength : (Message.encode event).length = 18 := by decide +kernel
  have messageLength : (Message.encode message).length = 26 := by decide +kernel
  exact ⟨encoding_exact .metadataEvent event (eventLength ▸ by decide),
    encoding_exact .appMessage message (messageLength ▸ by decide), eventLength, messageLength⟩

end Kind

end GroupReplay.Wire
