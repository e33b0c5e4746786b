import GroupReplay.Bytes

/-!
What can be wrong with an encoded message, and the wording of it.  A `DecodeError` is a fault
together with the fields it was met in, innermost first.
-/

namespace GroupReplay.Wire

/-- How the bytes after a field's tag are laid out. -/
inductive WireType where
  | varint
  | fixed64
  | lengthDelimited
  | startGroup
  | endGroup
  | fixed32
  deriving DecidableEq, Repr

namespace WireType

/-- The three bits that announce a layout. -/
def code : WireType → Nat
  | varint => 0
  | fixed64 => 1
  | lengthDelimited => 2
  | startGroup => 3
  | endGroup => 4
  | fixed32 => 5

/-- The layout announced by three bits; six and seven announce none. -/
def ofCode? : Nat → Option WireType
  | 0 => some varint
  | 1 => some fixed64
  | 2 => some lengthDelimited
  | 3 => some startGroup
  | 4 => some endGroup
  | 5 => some fixed32
  | _ => none

theorem ofCode?_code (w : WireType) : ofCode? w.code = some w := by cases w <;> rfl

theorem code_lt (w : WireType) : w.code < 8 := by cases w <;> decide

/-- The layout's name in error texts. -/
def name : WireType → String
  | varint => "Varint"
  | fixed64 => "SixtyFourBit"
  | lengthDelimited => "LengthDelimited"
  | startGroup => "StartGroup"
  | endGroup => "EndGroup"
  | fixed32 => "ThirtyTwoBit"

end WireType

/-- A single thing wrong with encoded bytes. -/
inductive Fault where
  /-- A number that does not end, or does not fit 64 bits. -/
  | varint
  /-- Fewer bytes are left than announced. -/
  | underflow
  /-- The fields of a message run past its announced length. -/
  | overrun
  /-- A tag with field number zero. -/
  | zeroField
  /-- A tag wider than 32 bits. -/
  | wideTag (tag : Nat)
  /-- Three bits that announce no layout. -/
  | wireTypeCode (code : Nat)
  /-- A declared field in another layout than its own. -/
  | wireType (found expected : WireType)
  /-- The end of a group that is not the open one. -/
  | endGroup
  /-- Groups or messages nested too deeply. -/
  | depth
  /-- Text that is not UTF-8. -/
  | text
  deriving DecidableEq, Repr

/-- The wording of a fault. -/
def Fault.message : Fault → String
  | .varint => "invalid varint"
  | .underflow => "buffer underflow"
  | .overrun => "delimited length exceeded"
  | .zeroField => "invalid tag value: 0"
  | .wideTag tag => s!"invalid key value: {tag}"
  | .wireTypeCode code => s!"invalid wire type value: {code}"
  | .wireType found expected => s!"invalid wire type: {found.name} (expected {expected.name})"
  | .endGroup => "unexpected end group tag"
  | .depth => "recursion limit reached"
  | .text => "invalid string value: data is not UTF-8 encoded"

/-- A fault and the fields it lies in, innermost first, each as message and field name. -/
structure DecodeError where
  fault : Fault
  fields : List (String × String)
  deriving DecidableEq, Repr

namespace DecodeError

/-- A fault met outside every declared field. -/
def ofFault (fault : Fault) : DecodeError := ⟨fault, []⟩

/-- The error as seen from the message around the field it was met in. -/
def inField (message field : String) (e : DecodeError) : DecodeError :=
  { e with fields := e.fields ++ [(message, field)] }

/-- The wording of a decode error. -/
def message (e : DecodeError) : String :=
  let place := e.fields.map fun (message, field) => message ++ "." ++ field ++ ": "
  "failed to decode Protobuf message: " ++ String.join place ++ e.fault.message

end DecodeError

end GroupReplay.Wire
