import GroupReplay.Wire.Tag

/-!
How the values of a single field are written, read and joined.  A `Codec` lists the payloads of a
value, each of which is written after a tag of its own, and absorbs one payload at a time into the
value read so far.  Scalars keep the later payload, lists collect all of them, and a value equal
to the default is not written at all.
-/

namespace GroupReplay.Wire

/-- A field's values of type `β`. -/
structure Codec (β : Type) where
  /-- The layout of every payload. -/
  wireType : WireType
  /-- The value of a field that is absent. -/
  empty : β
  /-- An earlier value overlaid by a later one. -/
  join : β → β → β
  /-- What is written for a value, tags aside. -/
  payloads : β → List Bytes
  /-- How long the payloads are, counted without writing them. -/
  sizes : β → List Nat
  /-- Reads one payload onto the value so far, with the levels of depth that are left. -/
  absorb : Nat → β → Bytes → Except DecodeError (β × Bytes)
  absorb_shortens : ∀ {depth value bytes value' rest},
    absorb depth value bytes = .ok (value', rest) → rest.length ≤ bytes.length

namespace Codec

variable {β : Type}

/-- Lifts a reader whose faults lie in the field itself, keeping what it leaves. -/
def lift (read : Bytes → Except Fault (β × Bytes)) (bytes : Bytes) :
    Except DecodeError (β × Bytes) :=
  match read bytes with
  | .error fault => .error (.ofFault fault)
  | .ok result => .ok result

theorem lift_shortens {read : Bytes → Except Fault (β × Bytes)}
    (shortens : ∀ {bytes value rest}, read bytes = .ok (value, rest) → rest.length ≤ bytes.length)
    {bytes rest : Bytes} {value : β} (ok : lift read bytes = .ok (value, rest)) :
    rest.length ≤ bytes.length := by
  unfold lift at ok
  split at ok
  · cases ok
  · next found => cases ok; exact shortens found

/-- A field that holds at most one value and is left out when that is the default. -/
def scalar [DecidableEq β] (wireType : WireType) (empty : β) (write : β → Bytes) (size : β → Nat)
    (read : Bytes → Except Fault (β × Bytes))
    (shortens : ∀ {bytes value rest}, read bytes = .ok (value, rest) → rest.length ≤ bytes.length) :
    Codec β where
  wireType
  empty
  join earlier later := if later = empty then earlier else later
  payloads value := if value = empty then [] else [write value]
  sizes value := if value = empty then [] else [size value]
  absorb _ _ := lift read
  absorb_shortens ok := lift_shortens shortens ok

/-- A reader followed by a total conversion. -/
def readAs (convert : Nat → β) (bytes : Bytes) : Except Fault (β × Bytes) :=
  match Varint.read bytes with
  | .error fault => .error fault
  | .ok (n, rest) => .ok (convert n, rest)

theorem readAs_shortens {convert : Nat → β} {bytes rest : Bytes} {value : β}
    (ok : readAs convert bytes = .ok (value, rest)) : rest.length ≤ bytes.length := by
  unfold readAs at ok
  split at ok
  · cases ok
  · next found => cases ok; exact Nat.le_of_lt (Varint.read_shortens found)

/-- A number field: a value stands for a number below 2⁶⁴. -/
def number [DecidableEq β] (empty : β) (toNat : β → Nat) (ofNat : Nat → β) : Codec β :=
  scalar .varint empty (fun value => Varint.write (toNat value))
    (fun value => Varint.size (toNat value)) (readAs ofNat) readAs_shortens

/-- Booleans: any number but zero is true. -/
def bool : Codec Bool := number false (fun b => if b then 1 else 0) (· ≠ 0)

/-- Unsigned numbers of 64 bits. -/
def uint64 : Codec UInt64 := number 0 UInt64.toNat UInt64.ofNat

/-- Signed numbers of 64 bits, in two's complement. -/
def int64 : Codec Int64 := number 0 (fun n => n.toUInt64.toNat) (fun n => (UInt64.ofNat n).toInt64)

/-- Signed numbers of 32 bits, written as their 64-bit form; reading drops the upper half. -/
def int32 : Codec Int32 :=
  number 0 (fun n => n.toInt64.toUInt64.toNat) (fun n => (UInt64.ofNat n).toInt64.toInt32)

/-- Byte strings. -/
def bytes : Codec Bytes :=
  scalar .lengthDelimited [] writeBlock (fun value => Varint.size value.length + value.length)
    readBlock readBlock_shortens

/-- A block that has to be UTF-8. -/
def readText (bytes : Bytes) : Except Fault (String × Bytes) :=
  match readBlock bytes with
  | .error fault => .error fault
  | .ok (block, rest) =>
    match Bytes.toText? block with
    | none => .error .text
    | some text => .ok (text, rest)

theorem readText_shortens {bytes rest : Bytes} {text : String}
    (ok : readText bytes = .ok (text, rest)) : rest.length ≤ bytes.length := by
  unfold readText at ok
  split at ok
  · cases ok
  · next found =>
    split at ok
    · cases ok
    · cases ok; exact readBlock_shortens found

/-- Texts, in UTF-8. -/
def text : Codec String :=
  scalar .lengthDelimited "" (fun value => writeBlock (.ofText value))
    (fun value => Varint.size value.utf8ByteSize + value.utf8ByteSize) readText readText_shortens

/-- One more block for a list. -/
def readOneMore (earlier : List Bytes) (bytes : Bytes) :
    Except Fault (List Bytes × Bytes) :=
  match readBlock bytes with
  | .error fault => .error fault
  | .ok (block, rest) => .ok (earlier ++ [block], rest)

theorem readOneMore_shortens {earlier list : List Bytes} {bytes rest : Bytes}
    (ok : readOneMore earlier bytes = .ok (list, rest)) : rest.length ≤ bytes.length := by
  unfold readOneMore at ok
  split at ok
  · cases ok
  · next found => cases ok; exact readBlock_shortens found

/-- Lists of byte strings, empty ones included: a payload for every element. -/
def repeatedBytes : Codec (List Bytes) where
  wireType := .lengthDelimited
  empty := []
  join earlier later := earlier ++ later
  payloads := List.map writeBlock
  sizes := List.map fun block => Varint.size block.length + block.length
  absorb _ earlier := lift (readOneMore earlier)
  absorb_shortens ok := lift_shortens readOneMore_shortens ok

end Codec

end GroupReplay.Wire
