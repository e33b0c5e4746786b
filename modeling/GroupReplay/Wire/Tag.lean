import GroupReplay.Wire.Varint

/-!
Tags, which open every field, and the skipping of fields that no message declares.  A skipped
group may hold groups; `skipGroups` keeps the numbers of the open ones and ends with the outermost.
Every reader here leaves fewer bytes than it was given, which is what lets messages be read by
recursion on their length.
-/

namespace GroupReplay.Wire

/-- Field number and layout of the bytes that follow. -/
structure Tag where
  number : Nat
  wireType : WireType
  deriving DecidableEq, Repr

namespace Tag

/-- The bytes of a tag. -/
def write (tag : Tag) : Bytes := Varint.write (tag.number * 8 + tag.wireType.code)

/-- How many bytes a tag takes. -/
def size (tag : Tag) : Nat := Varint.size (tag.number * 8 + tag.wireType.code)

/-- The tag at the start of `bytes`.  A tag wider than 32 bits is refused before its layout, and
that before a field number of zero. -/
def read (bytes : Bytes) : Except Fault (Tag × Bytes) :=
  match Varint.read bytes with
  | .error fault => .error fault
  | .ok (key, rest) =>
    if 0x100000000 ≤ key then .error (.wideTag key)
    else match WireType.ofCode? (key % 8) with
      | none => .error (.wireTypeCode (key % 8))
      | some wireType =>
        if key / 8 = 0 then .error .zeroField else .ok (⟨key / 8, wireType⟩, rest)

theorem read_shortens {bytes rest : Bytes} {tag : Tag} (ok : read bytes = .ok (tag, rest)) :
    rest.length < bytes.length := by
  unfold read at ok
  split at ok
  · cases ok
  · next found =>
    have := Varint.read_shortens found
    split at ok
    · cases ok
    · split at ok
      · cases ok
      · split at ok
        · cases ok
        · cases ok; exact this

theorem read_write {tag : Tag} (rest : Bytes) (positive : 0 < tag.number)
    (narrow : tag.number < 0x20000000) : read (tag.write ++ rest) = .ok (tag, rest) := by
  have code := tag.wireType.code_lt
  have modulus : (tag.number * 8 + tag.wireType.code) % 8 = tag.wireType.code := by omega
  have quotient : (tag.number * 8 + tag.wireType.code) / 8 = tag.number := by omega
  simp only [read, write]
  rw [Varint.read_write _ _ (by omega)]
  simp only [modulus, quotient, WireType.ofCode?_code]
  rw [if_neg (by omega), if_neg (by omega)]

end Tag

/-- The bytes of a block: its length, then itself. -/
def writeBlock (block : Bytes) : Bytes := Varint.write block.length ++ block

/-- The block at the start of `bytes` and the bytes after it. -/
def readBlock (bytes : Bytes) : Except Fault (Bytes × Bytes) :=
  match Varint.read bytes with
  | .error fault => .error fault
  | .ok (length, rest) =>
    if rest.length < length then .error .underflow
    else .ok (rest.take length, rest.drop length)

theorem readBlock_shortens {bytes block rest : Bytes} (ok : readBlock bytes = .ok (block, rest)) :
    rest.length ≤ bytes.length := by
  unfold readBlock at ok
  split at ok
  · cases ok
  · next found =>
    have := Varint.read_shortens found
    split at ok
    · cases ok
    · cases ok; simp only [List.length_drop]; omega

theorem readBlock_writeBlock (block rest : Bytes) (fits : block.length < 0x10000000000000000) :
    readBlock (writeBlock block ++ rest) = .ok (block, rest) := by
  simp only [readBlock, writeBlock, List.append_assoc]
  rw [Varint.read_write _ _ fits]
  simp

/-- Skips a fixed number of bytes. -/
def skipBytes (count : Nat) (bytes : Bytes) : Except Fault Bytes :=
  if bytes.length < count then .error .underflow else .ok (bytes.drop count)

/-- Skips the bytes after a tag in a layout that holds no further tags. -/
def skipScalar (wireType : WireType) (bytes : Bytes) : Except Fault Bytes :=
  match wireType with
  | .varint => (Varint.read bytes).map (·.2)
  | .fixed64 => skipBytes 8 bytes
  | .fixed32 => skipBytes 4 bytes
  | .lengthDelimited => (readBlock bytes).map (·.2)
  | .startGroup | .endGroup => .error .endGroup

theorem skipScalar_shortens {wireType : WireType} {bytes rest : Bytes}
    (ok : skipScalar wireType bytes = .ok rest) : rest.length ≤ bytes.length := by
  cases wireType with
  | varint =>
    simp only [skipScalar, Except.map] at ok
    split at ok
    · cases ok
    · next found => cases ok; exact Nat.le_of_lt (Varint.read_shortens found)
  | lengthDelimited =>
    simp only [skipScalar, Except.map] at ok
    split at ok
    · cases ok
    · next found => cases ok; exact readBlock_shortens found
  | fixed64 | fixed32 =>
    simp only [skipScalar, skipBytes] at ok
    split at ok
    · cases ok
    · cases ok; simp
  | startGroup | endGroup => simp [skipScalar] at ok

/-- Skips to the end of the outermost of the groups whose numbers are `opened`, innermost first.
Inside `k` groups a field is refused when no more than `k` levels of depth are left. -/
def skipGroups (depth : Nat) (opened : List Nat) (bytes : Bytes) : Except Fault Bytes :=
  match opened with
  | [] => .ok bytes
  | innermost :: others =>
    match _read : Tag.read bytes with
    | .error fault => .error fault
    | .ok (tag, rest) =>
      if tag.wireType = .endGroup then
        if tag.number = innermost then skipGroups depth others rest else .error .endGroup
      else if depth ≤ others.length + 1 then .error .depth
      else if tag.wireType = .startGroup then skipGroups depth (tag.number :: opened) rest
      else
        match _skipped : skipScalar tag.wireType rest with
        | .error fault => .error fault
        | .ok rest => skipGroups depth opened rest
termination_by bytes.length
decreasing_by
  all_goals have shorter := Tag.read_shortens _read
  · exact shorter
  · exact shorter
  · exact Nat.lt_of_le_of_lt (skipScalar_shortens _skipped) shorter

/-- Skips the field whose tag has been read. -/
def skipField (depth : Nat) (tag : Tag) (bytes : Bytes) : Except Fault Bytes :=
  if depth = 0 then .error .depth
  else match tag.wireType with
    | .startGroup => skipGroups depth [tag.number] bytes
    | wireType => skipScalar wireType bytes

theorem skipGroups_shortens {depth : Nat} {opened : List Nat} {bytes rest : Bytes}
    (ok : skipGroups depth opened bytes = .ok rest) : rest.length ≤ bytes.length := by
  fun_induction skipGroups depth opened bytes with
  | case1 => cases ok; exact Nat.le_refl _
  | case2 | case4 | case5 | case7 => cases ok
  | case3 _ _ _ _ found _ ih | case6 _ _ _ _ _ found _ _ _ ih =>
    exact Nat.le_trans (ih ok) (Nat.le_of_lt (Tag.read_shortens found))
  | case8 _ _ _ _ _ found _ _ _ _ skipped ih =>
    exact Nat.le_trans (ih ok)
      (Nat.le_trans (skipScalar_shortens skipped) (Nat.le_of_lt (Tag.read_shortens found)))

theorem skipField_shortens {depth : Nat} {tag : Tag} {bytes rest : Bytes}
    (ok : skipField depth tag bytes = .ok rest) : rest.length ≤ bytes.length := by
  unfold skipField at ok
  split at ok
  · cases ok
  · split at ok
    · exact skipGroups_shortens ok
    · exact skipScalar_shortens ok

end GroupReplay.Wire
