import GroupReplay.Proofs.FurtherBytes

/-!
Fields that a message does not declare.  `WellFormed` is the grammar of fields as any peer may write
them: a tag, and a number, four or eight bytes, a block, or fields up to the tag that ends the group;
numbers need not be spelled in as few bytes as possible.  Such fields, if they are of numbers that the
message does not declare and lie in no more groups than there are levels of depth, are read past as if
they were not there, wherever they stand between two fields of a message.
-/

namespace GroupReplay.Wire

/-! ### Well-formed fields -/

namespace Varint

/-- Bytes of seven bits each, lowest first, all but the last with the high bit set. -/
inductive Digits : Bytes → Nat → Prop where
  | last {byte : UInt8} (unmarked : byte.toNat < 128) : Digits [byte] byte.toNat
  | more {byte : UInt8} {bytes : Bytes} {n : Nat} (marked : 128 ≤ byte.toNat)
      (others : Digits bytes n) : Digits (byte :: bytes) (byte.toNat - 128 + 128 * n)

/-- Bytes that spell a number of 64 bits: at most ten. -/
structure Spells (n : Nat) (bytes : Bytes) : Prop where
  digits : Digits bytes n
  few : bytes.length ≤ 10
  small : n < lengthLimit

end Varint

/-- Bytes that spell a tag. -/
structure Tag.Spells (tag : Tag) (bytes : Bytes) : Prop where
  key : Varint.Spells (tag.number * 8 + tag.wireType.code) bytes
  positive : 0 < tag.number
  narrow : tag.number < 0x20000000

/-- What follows the tag of a field that is no group. -/
inductive Payload : WireType → Bytes → Prop where
  | varint {bytes : Bytes} {n : Nat} (spells : Varint.Spells n bytes) : Payload .varint bytes
  | fixed64 {bytes : Bytes} (eight : bytes.length = 8) : Payload .fixed64 bytes
  | fixed32 {bytes : Bytes} (four : bytes.length = 4) : Payload .fixed32 bytes
  | block {length block : Bytes} (spells : Varint.Spells block.length length) :
      Payload .lengthDelimited (length ++ block)

/-- Fields of admitted numbers, in at most so many levels.  A group takes a level for itself, and the
fields in it may be of any number. -/
inductive WellFormed : (Nat → Prop) → Nat → Bytes → Prop where
  | nil {admitted : Nat → Prop} {levels : Nat} : WellFormed admitted levels []
  | scalar {admitted : Nat → Prop} {levels : Nat} {tag : Tag} {opening payload rest : Bytes}
      (opens : tag.Spells opening) (admits : admitted tag.number)
      (holds : Payload tag.wireType payload) (others : WellFormed admitted (levels + 1) rest) :
      WellFormed admitted (levels + 1) (opening ++ payload ++ rest)
  | group {admitted : Nat → Prop} {levels number : Nat} {opening inside closing rest : Bytes}
      (opens : Tag.Spells ⟨number, .startGroup⟩ opening) (admits : admitted number)
      (holds : WellFormed (fun _ => True) levels inside)
      (closes : Tag.Spells ⟨number, .endGroup⟩ closing)
      (others : WellFormed admitted (levels + 1) rest) :
      WellFormed admitted (levels + 1) (opening ++ inside ++ closing ++ rest)

/-! ### Reading what is spelled -/

namespace Varint

theorem readWithin_digits {n budget : Nat} {bytes : Bytes} (digits : Digits bytes n)
    (few : bytes.length ≤ budget + 1) (fits : n < capacity budget) (more : Bytes) :
    readWithin (budget + 1) (bytes ++ more) = some (n, more) := by
  induction digits generalizing budget with
  | @last byte unmarked =>
    rw [List.cons_append, readWithin, if_pos unmarked, if_neg]
    · rfl
    · rintro ⟨rfl, large⟩
      exact absurd fits (Nat.not_lt.mpr large)
  | @more byte bytes n marked others ih =>
    have nonempty : 0 < bytes.length := by cases others <;> simp
    rw [List.length_cons] at few
    obtain ⟨budget, rfl⟩ : ∃ fewer, budget = fewer + 1 := ⟨budget - 1, by omega⟩
    have fits : n < capacity budget := by
      rw [capacity] at fits
      omega
    rw [List.cons_append, readWithin, if_neg (Nat.not_lt.mpr marked), ih (by omega) fits]
    rfl

theorem Spells.read {n : Nat} {bytes : Bytes} (spells : Spells n bytes) (more : Bytes) :
    Varint.read (bytes ++ more) = .ok (n, more) := by
  have few : bytes.length ≤ 9 + 1 := spells.few
  rw [Varint.read, readWithin_digits spells.digits few spells.small]

/-- A number of seven bits is spelled by one byte. -/
theorem spells_byte {n : Nat} {byte : UInt8} (is : byte.toNat = n) (small : n < 128) :
    Spells n [byte] := by
  subst is
  exact ⟨.last small, Nat.le_add_left 1 9, Nat.lt_trans small (by decide)⟩

theorem Spells.length_pos {n : Nat} {bytes : Bytes} (spells : Spells n bytes) : 0 < bytes.length := by
  cases spells.digits <;> simp

end Varint

theorem Tag.Spells.read {tag : Tag} {bytes : Bytes} (spells : tag.Spells bytes) (more : Bytes) :
    Tag.read (bytes ++ more) = .ok (tag, more) := by
  have code := tag.wireType.code_lt
  have narrow := spells.narrow
  have modulus : (tag.number * 8 + tag.wireType.code) % 8 = tag.wireType.code := by omega
  have quotient : (tag.number * 8 + tag.wireType.code) / 8 = tag.number := by omega
  simp only [Tag.read, spells.key.read more, modulus, quotient, WireType.ofCode?_code]
  rw [if_neg (by omega), if_neg (Nat.ne_of_gt spells.positive)]

/-- The tag of a field of a number below sixteen is spelled by one byte. -/
theorem Tag.spells_byte {tag : Tag} {byte : UInt8}
    (is : byte.toNat = tag.number * 8 + tag.wireType.code) (small : tag.number < 16)
    (positive : 0 < tag.number) : tag.Spells [byte] where
  key := Varint.spells_byte is (by have := tag.wireType.code_lt; omega)
  positive := positive
  narrow := Nat.lt_trans small (by decide)

theorem Payload.skip {wireType : WireType} {bytes : Bytes} (payload : Payload wireType bytes)
    (more : Bytes) : skipScalar wireType (bytes ++ more) = .ok more := by
  cases payload with
  | varint spells => simp only [skipScalar, Except.map, spells.read more]
  | fixed64 eight =>
    simp only [skipScalar, skipBytes]
    rw [if_neg (by rw [List.length_append]; omega), ← eight, List.drop_left]
  | fixed32 four =>
    simp only [skipScalar, skipBytes]
    rw [if_neg (by rw [List.length_append]; omega), ← four, List.drop_left]
  | @block length block spells =>
    rw [List.append_assoc]
    simp only [skipScalar, Except.map, readBlock, spells.read (block ++ more)]
    rw [if_neg (by rw [List.length_append]; omega), List.drop_left]

theorem Payload.no_group {wireType : WireType} {bytes : Bytes} (payload : Payload wireType bytes) :
    wireType ≠ .endGroup ∧ wireType ≠ .startGroup := by
  cases payload <;> exact ⟨nofun, nofun⟩

/-! ### Skipping -/

namespace WellFormed

variable {admitted : Nat → Prop} {levels depth : Nat} {fields : Bytes}

/-- Fields inside open groups are skipped up to whatever follows them. -/
theorem skipGroups (wellFormed : WellFormed admitted levels fields) {innermost : Nat}
    {others : List Nat} (room : others.length + 1 + levels ≤ depth) (more : Bytes) :
    Wire.skipGroups depth (innermost :: others) (fields ++ more) =
      Wire.skipGroups depth (innermost :: others) more := by
  induction wellFormed generalizing innermost others more with
  | nil => rfl
  | @scalar _ _ _ _ payload rest opens _ holds _ ih =>
    obtain ⟨noEnd, noStart⟩ := holds.no_group
    rw [List.append_assoc, List.append_assoc,
      skipGroups_scalar (opens.read _) noEnd noStart (by omega) (holds.skip (rest ++ more))]
    exact ih room more
  | group opens _ _ closes _ ihInside ih =>
    simp only [List.append_assoc]
    rw [skipGroups_start (opens.read _) rfl (by omega),
      ihInside (by rw [List.length_cons]; omega), skipGroups_end (closes.read _) rfl rfl]
    exact ih room more

end WellFormed

namespace Message

variable {α : Type} [Message α] {left depth levels : Nat} {fields : Bytes}

/-- A number that no field of a message has. -/
def Undeclared (α : Type) [Message α] (number : Nat) : Prop :=
  ∀ field ∈ Message.fields (α := α), field.number ≠ number

instance (number : Nat) : Decidable (Undeclared α number) :=
  inferInstanceAs (Decidable (∀ field ∈ Message.fields (α := α), field.number ≠ number))

theorem field?_undeclared {number : Nat} (undeclared : Undeclared α number) :
    field? α number = none :=
  List.find?_eq_none.mpr fun field declared => by simpa using undeclared field declared

/-- A field of an undeclared number is skipped. -/
theorem absorb_undeclared {tag : Tag} {value : α} {bytes rest : Bytes}
    (undeclared : Undeclared α tag.number) (skipped : skipField depth tag bytes = .ok rest) :
    absorb tag depth value bytes = .ok (value, rest) := by
  simp only [absorb, field?_undeclared undeclared, skipped]

/-- Fields of undeclared numbers are read past. -/
theorem mergeUntil_undeclared (wellFormed : WellFormed (Undeclared α) levels fields)
    (room : levels ≤ depth) (value : α) {more : Bytes} (unread : left ≤ more.length) :
    mergeUntil left depth value (fields ++ more) = mergeUntil left depth value more := by
  generalize numbers : Undeclared α = admitted at wellFormed
  induction wellFormed with
  | nil => rfl
  | @scalar _ _ tag opening payload rest opens admits holds others ih =>
    subst numbers
    have deep : depth ≠ 0 := by omega
    have skipped : skipField depth tag (payload ++ (rest ++ more)) = .ok (rest ++ more) := by
      rw [skipField, if_neg deep]
      split
      · next starts => exact absurd starts holds.no_group.2
      · exact holds.skip (rest ++ more)
    have further : left < (opening ++ (payload ++ (rest ++ more))).length := by
      have := opens.key.length_pos
      simp only [List.length_append]
      omega
    simp only [List.append_assoc]
    rw [mergeUntil_next further (opens.read _) (absorb_undeclared admits skipped)]
    exact ih room rfl
  | @group _ _ number opening inside closing rest opens admits holds closes others _ ih =>
    subst numbers
    have deep : depth ≠ 0 := by omega
    have skipped : skipField depth ⟨number, .startGroup⟩ (inside ++ (closing ++ (rest ++ more))) =
        .ok (rest ++ more) := by
      rw [skipField, if_neg deep]
      simp only
      rw [holds.skipGroups (by rw [List.length_nil]; omega), skipGroups_end (closes.read _) rfl rfl,
        Wire.skipGroups]
    have further : left < (opening ++ (inside ++ (closing ++ (rest ++ more)))).length := by
      have := opens.key.length_pos
      simp only [List.length_append]
      omega
    simp only [List.append_assoc]
    rw [mergeUntil_next further (opens.read _) (absorb_undeclared admits skipped)]
    exact ih room rfl

/-- Reading a field is reading its tag, then what follows the tag, and then the fields after it. -/
theorem mergeUntil_step {tag : Tag} {value : α} {bytes rest : Bytes} (unread : left < bytes.length)
    (opens : Tag.read bytes = .ok (tag, rest)) :
    mergeUntil left depth value bytes =
      absorb tag depth value rest >>= fun (next, after) => mergeUntil left depth next after := by
  cases absorbed : absorb tag depth value rest with
  | ok result => exact mergeUntil_next unread opens absorbed
  | error e =>
    rw [mergeUntil, if_neg (Nat.not_le.mpr unread)]
    split
    · next fails => rw [opens] at fails; cases fails
    · next found =>
      rw [opens] at found
      cases found
      split
      · next fails => rw [absorbed] at fails; cases fails; rfl
      · next found => rw [absorbed] at found; cases found

/-- A block is read as its bytes are up to what follows them. -/
theorem mergeBlock_spelled {length block : Bytes} (spells : Varint.Spells block.length length)
    (value : α) (rest : Bytes) :
    mergeBlock (depth + 1) value (length ++ (block ++ rest)) =
      mergeUntil rest.length depth value (block ++ rest) >>= fun (next, after) =>
        if after.length = rest.length then .ok (next, after) else .error (.ofFault .overrun) := by
  have whole : (block ++ rest).length - block.length = rest.length := by
    rw [List.length_append, Nat.add_sub_cancel_left]
  rw [mergeBlock, if_neg (Nat.succ_ne_zero depth), spells.read]
  simp only
  rw [if_neg (by rw [List.length_append]; omega), whole, Nat.add_sub_cancel]
  cases mergeUntil rest.length depth value (block ++ rest) <;> rfl

end Message

/-! ### Supplemented messages -/

/-- Bytes that are read to their end as a message of a kind, with so many levels of depth left. -/
def Kind.Reads (kind : Kind) (depth : Nat) (bytes : Bytes) : Prop :=
  ∃ value : kind.Value, Message.mergeUntil 0 depth Message.empty bytes = .ok (value, [])

/-- Messages of a kind hold messages of another under a number. -/
def Kind.Encloses (kind : Kind) (number : Nat) (inner : Kind) : Prop :=
  ∃ name get set, Field.mk number name (.message inner.Value) get set ∈
    Message.fields (α := kind.Value)

/-- The bytes of a message, and the same with undeclared fields between two of its fields, or between
two fields of a message in it, whose length is spelled anew, at any number of places.  What stands
behind them may be anything. -/
inductive Supplemented : Kind → Nat → Bytes → Bytes → Prop where
  | fields {kind : Kind} {depth : Nat} {first fields : Bytes} (reads : kind.Reads depth first)
      (undeclared : WellFormed (Message.Undeclared kind.Value) depth fields) (last : Bytes) :
      Supplemented kind depth (first ++ last) (first ++ fields ++ last)
  | inside {kind inner : Kind} {depth number : Nat}
      {first opening length block length' block' : Bytes} (reads : kind.Reads (depth + 1) first)
      (encloses : kind.Encloses number inner)
      (opens : Tag.Spells ⟨number, .lengthDelimited⟩ opening)
      (spells : Varint.Spells block.length length) (spells' : Varint.Spells block'.length length')
      (supplemented : Supplemented inner depth block block') (last : Bytes) :
      Supplemented kind (depth + 1) (first ++ (opening ++ (length ++ block)) ++ last)
        (first ++ (opening ++ (length' ++ block')) ++ last)
  | again {kind : Kind} {depth : Nat} {bytes longer longest : Bytes}
      (once : Supplemented kind depth bytes longer) (twice : Supplemented kind depth longer longest) :
      Supplemented kind depth bytes longest

/-- Bytes that are read to their end are read off the front of longer ones, onto any value. -/
theorem Kind.Reads.onto {kind : Kind} {depth : Nat} {bytes : Bytes} (reads : kind.Reads depth bytes)
    (value : kind.Value) : ∃ next : kind.Value, ∀ {left : Nat} {more : Bytes}, left ≤ more.length →
      Message.mergeUntil left depth value (bytes ++ more) =
        Message.mergeUntil left depth next more := by
  obtain ⟨_, merged⟩ := reads
  obtain ⟨next, mergedToo⟩ := kind.steady.mergeUntil_onto value merged
  refine ⟨next, fun room => ?_⟩
  exact kind.steady.mergeUntil_append _ (by omega) mergedToo

theorem Kind.Encloses.field {kind inner : Kind} {number : Nat} (encloses : kind.Encloses number inner) :
    ∃ name get set, Message.field? kind.Value number =
      some (Field.mk number name (.message inner.Value) get set) := by
  obtain ⟨name, get, set, declared⟩ := encloses
  exact ⟨name, get, set, kind.faithful.field?_number declared⟩

/-- A message is read as it is when it is supplemented. -/
theorem Supplemented.mergeUntil {kind : Kind} {depth left : Nat} {bytes longer : Bytes}
    (supplemented : Supplemented kind depth bytes longer) (value : kind.Value) {more : Bytes}
    (room : left ≤ more.length) :
    Message.mergeUntil left depth value (longer ++ more) =
      Message.mergeUntil left depth value (bytes ++ more) := by
  induction supplemented generalizing left more with
  | fields reads undeclared last =>
    obtain ⟨next, merged⟩ := reads.onto value
    have room : left ≤ (last ++ more).length := by
      rw [List.length_append]
      omega
    simp only [List.append_assoc]
    rw [merged (by simp only [List.length_append] at room ⊢; omega), merged room,
      Message.mergeUntil_undeclared undeclared (Nat.le_refl _) next room]
  | @inside kind inner depth number first opening length block length' block' reads encloses opens
      spells spells' _ last ih =>
    obtain ⟨next, merged⟩ := reads.onto value
    obtain ⟨name, get, set, found⟩ := encloses.field
    have step {size content : Bytes} (spelled : Varint.Spells content.length size) :
        Message.mergeUntil left (depth + 1) value
            (first ++ (opening ++ (size ++ content)) ++ last ++ more) =
          Message.absorb ⟨number, .lengthDelimited⟩ (depth + 1) next
              (size ++ (content ++ (last ++ more))) >>= fun (after, rest) =>
            Message.mergeUntil left (depth + 1) after rest := by
      have nonempty := opens.key.length_pos
      simp only [List.append_assoc]
      rw [merged (by simp only [List.length_append]; omega)]
      exact Message.mergeUntil_step (by simp only [List.length_append]; omega) (opens.read _)
    have block := fun inside : inner.Value => ih inside (Nat.le_refl (last ++ more).length)
    rw [step spells', step spells]
    simp only [Message.absorb, found, Field.absorb, Codec.message,
      Message.mergeBlock_spelled spells', Message.mergeBlock_spelled spells, block]
  | again _ _ once twice => exact (twice value room).trans (once value room)

/-- A message is decoded as it is when it is supplemented. -/
theorem Supplemented.decode {kind : Kind} {bytes longer : Bytes}
    (supplemented : Supplemented kind depthLimit bytes longer) :
    Message.decode (α := kind.Value) longer = Message.decode bytes := by
  have merged := supplemented.mergeUntil Message.empty (Nat.zero_le ([] : Bytes).length)
  rw [List.append_nil, List.append_nil] at merged
  rw [Message.decode, Message.merge, merged, ← Message.merge, ← Message.decode]

end GroupReplay.Wire
