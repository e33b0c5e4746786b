import GroupReplay.Proofs.WireRoundTrip

/-!
What a reader makes of some bytes it makes of them whatever bytes follow, and how far it gets does not
depend on the value that it reads onto.  A codec for which both hold is steady, and so is a message
whose codecs are.  Bytes that were read as a steady message can therefore be taken off the front of
longer ones: the rest is read onto the value that they came to, with the result or the error that this
has.
-/

namespace GroupReplay.Wire

/-! ### Numbers, tags and blocks -/

namespace Varint

theorem readWithin_append {budget n : Nat} {bytes rest : Bytes} (more : Bytes)
    (ok : readWithin budget bytes = some (n, rest)) :
    readWithin budget (bytes ++ more) = some (n, rest ++ more) := by
  induction budget generalizing bytes n with
  | zero => simp [readWithin] at ok
  | succ budget ih =>
    cases bytes with
    | nil => simp [readWithin] at ok
    | cons byte tail =>
      rw [readWithin] at ok
      rw [List.cons_append, readWithin]
      split at ok
      · next single =>
        rw [if_pos single]
        split at ok
        · cases ok
        · next fits =>
          cases ok
          rw [if_neg fits]
      · next longer =>
        obtain ⟨⟨m, after⟩, inner, same⟩ := Option.map_eq_some_iff.mp ok
        cases same
        rw [if_neg longer, ih inner]
        rfl

theorem read_append {n : Nat} {bytes rest : Bytes} (more : Bytes)
    (ok : read bytes = .ok (n, rest)) : read (bytes ++ more) = .ok (n, rest ++ more) := by
  unfold read at ok
  split at ok
  · next found =>
    cases ok
    rw [read, readWithin_append more found]
  · cases ok

end Varint

theorem Tag.read_append {tag : Tag} {bytes rest : Bytes} (more : Bytes)
    (ok : Tag.read bytes = .ok (tag, rest)) :
    Tag.read (bytes ++ more) = .ok (tag, rest ++ more) := by
  unfold Tag.read at ok
  split at ok
  · cases ok
  · next key after found =>
    rw [Tag.read, Varint.read_append more found]
    split at ok
    · cases ok
    · next narrow =>
      simp only [narrow, if_false]
      split at ok
      · cases ok
      · next announced =>
        split at ok
        · cases ok
        · next numbered =>
          cases ok
          simp only [numbered, if_false]

theorem readBlock_append {block bytes rest : Bytes} (more : Bytes)
    (ok : readBlock bytes = .ok (block, rest)) :
    readBlock (bytes ++ more) = .ok (block, rest ++ more) := by
  unfold readBlock at ok
  split at ok
  · cases ok
  · next length after found =>
    rw [readBlock, Varint.read_append more found]
    split at ok
    · cases ok
    · next enough =>
      cases ok
      have enough : length ≤ after.length := Nat.le_of_not_lt enough
      simp only [List.length_append]
      rw [if_neg (by omega), List.take_append_of_le_length enough,
        List.drop_append_of_le_length enough]

/-! ### Skipping -/

theorem skipBytes_append {count : Nat} {bytes rest : Bytes} (more : Bytes)
    (ok : skipBytes count bytes = .ok rest) : skipBytes count (bytes ++ more) = .ok (rest ++ more) := by
  unfold skipBytes at ok
  split at ok
  · cases ok
  · next enough =>
    cases ok
    have enough : count ≤ bytes.length := Nat.le_of_not_lt enough
    rw [skipBytes, if_neg (by rw [List.length_append]; omega),
      List.drop_append_of_le_length enough]

theorem skipScalar_append {wireType : WireType} {bytes rest : Bytes} (more : Bytes)
    (ok : skipScalar wireType bytes = .ok rest) :
    skipScalar wireType (bytes ++ more) = .ok (rest ++ more) := by
  cases wireType with
  | varint =>
    simp only [skipScalar, Except.map] at ok ⊢
    split at ok
    · cases ok
    · next found =>
      cases ok
      rw [Varint.read_append more found]
  | lengthDelimited =>
    simp only [skipScalar, Except.map] at ok ⊢
    split at ok
    · cases ok
    · next found =>
      cases ok
      rw [readBlock_append more found]
  | fixed64 | fixed32 => exact skipBytes_append more ok
  | startGroup | endGroup => cases ok

section Groups

variable {depth innermost : Nat} {others : List Nat} {tag : Tag} {bytes rest after : Bytes}

/-- The end of the innermost group. -/
theorem skipGroups_end (opens : Tag.read bytes = .ok (tag, rest)) (ends : tag.wireType = .endGroup)
    (same : tag.number = innermost) :
    skipGroups depth (innermost :: others) bytes = skipGroups depth others rest := by
  rw [skipGroups]
  split
  · next fails => rw [opens] at fails; cases fails
  · next found =>
    rw [opens] at found
    cases found
    rw [if_pos ends, if_pos same]

/-- The start of a group inside the innermost one. -/
theorem skipGroups_start (opens : Tag.read bytes = .ok (tag, rest))
    (starts : tag.wireType = .startGroup) (room : others.length + 1 < depth) :
    skipGroups depth (innermost :: others) bytes =
      skipGroups depth (tag.number :: innermost :: others) rest := by
  rw [skipGroups]
  split
  · next fails => rw [opens] at fails; cases fails
  · next found =>
    rw [opens] at found
    cases found
    rw [if_neg (by simp [starts]), if_neg (Nat.not_le.mpr room), if_pos starts]

/-- A field inside the innermost group that is no group itself. -/
theorem skipGroups_scalar (opens : Tag.read bytes = .ok (tag, rest))
    (noEnd : tag.wireType ≠ .endGroup) (noStart : tag.wireType ≠ .startGroup)
    (room : others.length + 1 < depth) (skipped : skipScalar tag.wireType rest = .ok after) :
    skipGroups depth (innermost :: others) bytes =
      skipGroups depth (innermost :: others) after := by
  rw [skipGroups]
  split
  · next fails => rw [opens] at fails; cases fails
  · next found =>
    rw [opens] at found
    cases found
    rw [if_neg noEnd, if_neg (Nat.not_le.mpr room), if_neg noStart]
    split
    · next fails => rw [skipped] at fails; cases fails
    · next found =>
      rw [skipped] at found
      cases found
      rfl

theorem skipGroups_append {opened : List Nat} (more : Bytes)
    (ok : skipGroups depth opened bytes = .ok rest) :
    skipGroups depth opened (bytes ++ more) = .ok (rest ++ more) := by
  fun_induction skipGroups depth opened bytes with
  | case1 =>
    cases ok
    rw [skipGroups]
  | case2 | case4 | case5 | case7 => cases ok
  | case3 _ _ _ _ found ends ih =>
    rw [skipGroups_end (Tag.read_append more found) ends rfl]
    exact ih ok
  | case6 _ _ _ _ _ found _ room starts ih =>
    rw [skipGroups_start (Tag.read_append more found) starts (Nat.lt_of_not_le room)]
    exact ih ok
  | case8 _ _ _ _ _ found noEnd room noStart _ skipped ih =>
    rw [skipGroups_scalar (Tag.read_append more found) noEnd noStart (Nat.lt_of_not_le room)
      (skipScalar_append more skipped)]
    exact ih ok

end Groups

theorem skipField_append {depth : Nat} {tag : Tag} {bytes rest : Bytes} (more : Bytes)
    (ok : skipField depth tag bytes = .ok rest) :
    skipField depth tag (bytes ++ more) = .ok (rest ++ more) := by
  unfold skipField at ok ⊢
  split at ok
  · cases ok
  · next deep =>
    rw [if_neg deep]
    split at ok
    · exact skipGroups_append more ok
    · exact skipScalar_append more ok

/-! ### Codecs -/

namespace Codec

variable {β : Type} {codec : Codec β}

/-- A codec absorbs what it absorbs whatever bytes follow, and takes the same bytes whatever the value
so far. -/
structure Steady (codec : Codec β) : Prop where
  append : ∀ {depth value bytes next rest} (more : Bytes),
    codec.absorb depth value bytes = .ok (next, rest) →
      codec.absorb depth value (bytes ++ more) = .ok (next, rest ++ more)
  onto : ∀ {depth value bytes next rest} (other : β),
    codec.absorb depth value bytes = .ok (next, rest) →
      ∃ otherNext, codec.absorb depth other bytes = .ok (otherNext, rest)

theorem ok_of_lift {read : Bytes → Except Fault (β × Bytes)} {bytes rest : Bytes} {value : β}
    (ok : lift read bytes = .ok (value, rest)) : read bytes = .ok (value, rest) := by
  unfold lift at ok
  split at ok
  · cases ok
  · next found =>
    cases ok
    exact found

/-- A scalar field is steady if its reader makes the same of its bytes whatever follows. -/
theorem scalar_steady [DecidableEq β] {wireType : WireType} {empty : β} {write : β → Bytes}
    {size : β → Nat} {read : Bytes → Except Fault (β × Bytes)}
    {shortens : ∀ {bytes value rest}, read bytes = .ok (value, rest) → rest.length ≤ bytes.length}
    (append : ∀ {bytes value rest} (more : Bytes), read bytes = .ok (value, rest) →
      read (bytes ++ more) = .ok (value, rest ++ more)) :
    (scalar wireType empty write size read shortens).Steady where
  append more ok := lift_ok (append more (ok_of_lift ok))
  onto _ ok := ⟨_, ok⟩

theorem number_steady [DecidableEq β] (empty : β) (toNat : β → Nat) (ofNat : Nat → β) :
    (number empty toNat ofNat).Steady :=
  scalar_steady fun more ok => by
    unfold readAs at ok
    split at ok
    · cases ok
    · next found =>
      cases ok
      rw [readAs, Varint.read_append more found]

theorem bytes_steady : bytes.Steady := scalar_steady readBlock_append

theorem text_steady : text.Steady :=
  scalar_steady fun more ok => by
    unfold readText at ok
    split at ok
    · cases ok
    · next found =>
      split at ok
      · cases ok
      · next reads =>
        cases ok
        simp only [readText, readBlock_append more found, reads]

theorem repeatedBytes_steady : repeatedBytes.Steady where
  append more ok := by
    refine lift_ok ?_
    have ok := ok_of_lift ok
    unfold readOneMore at ok
    split at ok
    · cases ok
    · next found =>
      cases ok
      rw [readOneMore, readBlock_append more found]
  onto other ok := by
    have ok := ok_of_lift ok
    unfold readOneMore at ok
    split at ok
    · cases ok
    · next block _ found =>
      cases ok
      exact ⟨other ++ [block], lift_ok (by rw [readOneMore, found])⟩

end Codec

/-! ### Messages -/

namespace Message

/-- A message whose fields are steady. -/
def Steady (α : Type) [Message α] : Prop := (fields (α := α)).Forall (·.codec.Steady)

variable {α : Type} [Message α] {left stop depth : Nat} {tag : Tag} {value next : α}
  {bytes rest : Bytes}

namespace Steady

variable (steady : Steady α)
include steady

theorem field {number : Nat} {field : Field α} (declared : field? α number = some field) :
    field.codec.Steady :=
  List.forall_iff_forall_mem.mp steady field (List.mem_of_find?_eq_some declared)

theorem absorb_append (more : Bytes) (ok : absorb tag depth value bytes = .ok (next, rest)) :
    absorb tag depth value (bytes ++ more) = .ok (next, rest ++ more) := by
  unfold absorb at ok ⊢
  split at ok
  · next field declared =>
    unfold Field.absorb at ok ⊢
    split at ok
    · cases ok
    · next same =>
      rw [if_neg same]
      split at ok
      · cases ok
      · next found =>
        cases ok
        rw [(steady.field declared).append more found]
  · split at ok
    · cases ok
    · next found =>
      cases ok
      rw [skipField_append more found]

theorem absorb_onto (other : α) (ok : absorb tag depth value bytes = .ok (next, rest)) :
    ∃ otherNext, absorb tag depth other bytes = .ok (otherNext, rest) := by
  unfold absorb at ok ⊢
  split at ok
  · next field declared =>
    unfold Field.absorb at ok ⊢
    split at ok
    · cases ok
    · next same =>
      rw [if_neg same]
      split at ok
      · cases ok
      · next found =>
        cases ok
        obtain ⟨part, absorbed⟩ := (steady.field declared).onto (field.get other) found
        exact ⟨field.set part other, by rw [absorbed]⟩
  · split at ok
    · cases ok
    · next found =>
      cases ok
      exact ⟨other, rfl⟩

/-- Bytes that were read up to some point can be taken off the front of longer ones that are read at
least as far. -/
theorem mergeUntil_append (more : Bytes) (further : stop ≤ left + more.length)
    (ok : mergeUntil left depth value bytes = .ok (next, rest)) :
    mergeUntil stop depth value (bytes ++ more) = mergeUntil stop depth next (rest ++ more) := by
  fun_induction mergeUntil left depth value bytes with
  | case1 => cases ok; rfl
  | case2 | case3 => cases ok
  | case4 value bytes unread tag after found next after' absorbed ih =>
    have unread : stop < (bytes ++ more).length := by
      rw [List.length_append]
      omega
    rw [mergeUntil_next unread (Tag.read_append more found) (steady.absorb_append more absorbed)]
    exact ih ok

theorem mergeUntil_onto (other : α)
    (ok : mergeUntil left depth value bytes = .ok (next, rest)) :
    ∃ otherNext, mergeUntil left depth other bytes = .ok (otherNext, rest) := by
  fun_induction mergeUntil left depth value bytes generalizing other with
  | case1 value bytes all =>
    cases ok
    exact ⟨other, by rw [mergeUntil, if_pos all]⟩
  | case2 | case3 => cases ok
  | case4 value bytes unread tag after found next after' absorbed ih =>
    obtain ⟨otherNext, absorbedToo⟩ := steady.absorb_onto other absorbed
    rw [mergeUntil_next (Nat.lt_of_not_le unread) found absorbedToo]
    exact ih otherNext ok

end Steady

/-- No more bytes are left than were to be. -/
theorem length_le_of_mergeUntil (ok : mergeUntil left depth value bytes = .ok (next, rest)) :
    rest.length ≤ left := by
  fun_induction mergeUntil left depth value bytes with
  | case1 _ _ all => cases ok; exact all
  | case2 | case3 => cases ok
  | case4 _ _ _ _ _ _ _ _ _ ih => exact ih ok

/-- A block is its length and bytes that are read to their end. -/
theorem mergeBlock_ok_iff : mergeBlock depth value bytes = .ok (next, rest) ↔
    depth ≠ 0 ∧ ∃ length after, Varint.read bytes = .ok (length, after) ∧
      length ≤ after.length ∧ rest.length = after.length - length ∧
        mergeUntil rest.length (depth - 1) value after = .ok (next, rest) := by
  constructor
  · intro ok
    unfold mergeBlock at ok
    split at ok
    · cases ok
    · next deep =>
      split at ok
      · cases ok
      · next length after found =>
        split at ok
        · cases ok
        · next enough =>
          split at ok
          · cases ok
          · next merged =>
            split at ok
            · next whole =>
              cases ok
              exact ⟨deep, length, after, found, Nat.le_of_not_lt enough, whole, whole ▸ merged⟩
            · cases ok
  · rintro ⟨deep, length, after, found, enough, whole, merged⟩
    rw [mergeBlock, if_neg deep, found]
    simp only
    rw [if_neg (Nat.not_lt.mpr enough), ← whole, merged]
    exact if_pos rfl

namespace Steady

variable (steady : Steady α)
include steady

theorem mergeBlock_append (more : Bytes) (ok : mergeBlock depth value bytes = .ok (next, rest)) :
    mergeBlock depth value (bytes ++ more) = .ok (next, rest ++ more) := by
  obtain ⟨deep, length, after, found, enough, whole, merged⟩ := mergeBlock_ok_iff.mp ok
  have longer : (rest ++ more).length = rest.length + more.length := List.length_append
  refine mergeBlock_ok_iff.mpr ⟨deep, length, after ++ more, Varint.read_append more found, ?_, ?_, ?_⟩
  · rw [List.length_append]
    omega
  · rw [List.length_append, List.length_append]
    omega
  · rw [steady.mergeUntil_append more (Nat.le_of_eq longer) merged, mergeUntil_done]

theorem mergeBlock_onto (other : α) (ok : mergeBlock depth value bytes = .ok (next, rest)) :
    ∃ otherNext, mergeBlock depth other bytes = .ok (otherNext, rest) := by
  obtain ⟨deep, length, after, found, enough, whole, merged⟩ := mergeBlock_ok_iff.mp ok
  obtain ⟨otherNext, mergedToo⟩ := steady.mergeUntil_onto other merged
  exact ⟨otherNext, mergeBlock_ok_iff.mpr ⟨deep, length, after, found, enough, whole, mergedToo⟩⟩

/-- A message inside a message is steady if it is steady itself. -/
theorem codec : (Codec.message α).Steady where
  append more ok := by
    simp only [Codec.message] at ok ⊢
    split at ok
    · cases ok
    · next found =>
      cases ok
      rw [steady.mergeBlock_append more found]
  onto other ok := by
    simp only [Codec.message] at ok ⊢
    split at ok
    · cases ok
    · next found =>
      cases ok
      obtain ⟨inner, merged⟩ := steady.mergeBlock_onto (other.getD Message.empty) found
      exact ⟨some inner, by rw [merged]⟩

end Steady

theorem merge_ok_iff : merge value bytes = .ok next ↔
    mergeUntil 0 depthLimit value bytes = .ok (next, []) := by
  unfold merge
  cases merged : mergeUntil 0 depthLimit value bytes with
  | error e => simp [Except.map]
  | ok result =>
    obtain ⟨after, rest⟩ := result
    have all : rest = [] := List.length_eq_zero_iff.mp (Nat.le_zero.mp (length_le_of_mergeUntil merged))
    simp [Except.map, all]

/-- Reading on after bytes that were read is reading what follows onto their value. -/
theorem Steady.merge_append (steady : Steady α) (more : Bytes) (reads : merge value bytes = .ok next) :
    merge value (bytes ++ more) = merge next more := by
  have continued := steady.mergeUntil_append more (Nat.zero_le _) (merge_ok_iff.mp reads)
  rw [merge, continued, List.nil_append, merge]

/-- As `Steady.merge_append`, from the start. -/
theorem Steady.decode_append (steady : Steady α) (more : Bytes) (reads : decode bytes = .ok value) :
    decode (bytes ++ more) = merge value more :=
  steady.merge_append more reads

end Message

/-! ### The declared messages -/

section Declared

open Codec

theorem EventContext.steady : Message.Steady EventContext :=
  ⟨bytes_steady, repeatedBytes_steady, bytes_steady⟩

theorem Metadata.steady : Message.Steady Metadata :=
  ⟨number_steady .., bytes_steady, bytes_steady⟩

theorem MessageHeaders.steady : Message.Steady MessageHeaders :=
  ⟨number_steady .., bytes_steady, bytes_steady⟩

theorem Group.steady : Message.Steady Group := ⟨bytes_steady, bytes_steady, number_steady ..⟩

/-- Messages of every kind are steady. -/
theorem Kind.steady (kind : Kind) : Message.Steady kind.Value := by
  cases kind with
  | eventContext => exact EventContext.steady
  | metadata => exact Metadata.steady
  | messageHeaders => exact MessageHeaders.steady
  | group => exact Group.steady
  | configurationRequest | activateGroupReply | deactivateGroupReply => exact trivial
  | configuration => exact ⟨bytes_steady, bytes_steady, bytes_steady, text_steady⟩
  | activateGroupRequest => exact ⟨bytes_steady, number_steady ..⟩
  | deactivateGroupRequest => exact bytes_steady
  | logListRequest =>
    exact ⟨bytes_steady, bytes_steady, number_steady .., bytes_steady, number_steady ..,
      number_steady ..⟩
  | metadataEvent => exact ⟨EventContext.steady.codec, Metadata.steady.codec, bytes_steady⟩
  | messageEvent => exact ⟨EventContext.steady.codec, MessageHeaders.steady.codec, bytes_steady⟩
  | groupJoined => exact ⟨bytes_steady, Group.steady.codec⟩
  | deviceAdded => exact ⟨bytes_steady, bytes_steady, bytes_steady⟩
  | appMessage => exact ⟨number_steady .., bytes_steady, number_steady .., text_steady⟩
  | userMessage => exact text_steady

end Declared

end GroupReplay.Wire
