import GroupReplay.Wire.Codec

/-!
Messages: named records of declared fields.  `encode` writes the fields in order of declaration,
`merge` reads fields in any order onto an existing value and skips those that are not declared,
and `decode` merges onto the default value.  `join` is the field-wise overlay of two values, which
is what reading two encodings one after the other comes to.
-/

namespace GroupReplay.Wire

/-- The sum of sizes. -/
def total (sizes : List Nat) : Nat := sizes.foldr (· + ·) 0

/-- A declared field of the messages of type `α`. -/
structure Field (α : Type) where
  number : Nat
  name : String
  {β : Type}
  codec : Codec β
  get : α → β
  set : β → α → α

/-- A message type: its name, its default value and its fields. -/
class Message (α : Type) where
  name : String
  empty : α
  fields : List (Field α)

namespace Field

variable {α : Type}

/-- What opens every payload of the field. -/
def tag (field : Field α) : Tag := ⟨field.number, field.codec.wireType⟩

/-- The field's part of an encoded message. -/
def encode (field : Field α) (value : α) : Bytes :=
  (field.codec.payloads (field.get value)).flatMap (field.tag.write ++ ·)

/-- The length of the field's part, counted without writing it. -/
def encodedLength (field : Field α) (value : α) : Nat :=
  total ((field.codec.sizes (field.get value)).map (field.tag.size + ·))

/-- Reads one payload of the field, whose tag has been read. -/
def absorb (field : Field α) (message : String) (wireType : WireType) (depth : Nat) (value : α)
    (bytes : Bytes) : Except DecodeError (α × Bytes) :=
  if wireType ≠ field.codec.wireType then
    .error ⟨.wireType wireType field.codec.wireType, [(message, field.name)]⟩
  else
    match field.codec.absorb depth (field.get value) bytes with
    | .error e => .error (e.inField message field.name)
    | .ok (part, rest) => .ok (field.set part value, rest)

theorem absorb_shortens {field : Field α} {message : String} {wireType : WireType} {depth : Nat}
    {value value' : α} {bytes rest : Bytes}
    (ok : field.absorb message wireType depth value bytes = .ok (value', rest)) :
    rest.length ≤ bytes.length := by
  unfold absorb at ok
  split at ok
  · cases ok
  · split at ok
    · cases ok
    · next found => cases ok; exact field.codec.absorb_shortens found

/-- The field's value in `later` overlaid on that in `earlier`. -/
def join (field : Field α) (earlier later : α) : α :=
  field.set (field.codec.join (field.get earlier) (field.get later)) earlier

end Field

namespace Message

variable {α : Type} [Message α]

/-- The declared field of a number. -/
def field? (α : Type) [Message α] (number : Nat) : Option (Field α) :=
  (fields (α := α)).find? (·.number = number)

/-- Reads what follows a tag: one payload of a declared field, or a field to skip. -/
def absorb (tag : Tag) (depth : Nat) (value : α) (bytes : Bytes) : Except DecodeError (α × Bytes) :=
  match field? α tag.number with
  | some field => field.absorb (name α) tag.wireType depth value bytes
  | none =>
    match skipField depth tag bytes with
    | .error fault => .error (.ofFault fault)
    | .ok rest => .ok (value, rest)

theorem absorb_shortens {tag : Tag} {depth : Nat} {value value' : α} {bytes rest : Bytes}
    (ok : absorb tag depth value bytes = .ok (value', rest)) : rest.length ≤ bytes.length := by
  unfold absorb at ok
  split at ok
  · exact Field.absorb_shortens ok
  · split at ok
    · cases ok
    · next found => cases ok; exact skipField_shortens found

/-- Reads fields until no more than `left` bytes are left.  The last field may run past that
point; the caller says what that means. -/
def mergeUntil (left depth : Nat) (value : α) (bytes : Bytes) : Except DecodeError (α × Bytes) :=
  if bytes.length ≤ left then .ok (value, bytes)
  else
    match _tag : Tag.read bytes with
    | .error fault => .error (.ofFault fault)
    | .ok (tag, rest) =>
      match _part : absorb tag depth value rest with
      | .error e => .error e
      | .ok (value, rest) => mergeUntil left depth value rest
termination_by bytes.length
decreasing_by exact Nat.lt_of_le_of_lt (absorb_shortens _part) (Tag.read_shortens _tag)

/-- Reads a message preceded by its length, on a level of its own. -/
def mergeBlock (depth : Nat) (value : α) (bytes : Bytes) : Except DecodeError (α × Bytes) :=
  if depth = 0 then .error (.ofFault .depth)
  else match Varint.read bytes with
    | .error fault => .error (.ofFault fault)
    | .ok (length, rest) =>
      if rest.length < length then .error (.ofFault .underflow)
      else
        match mergeUntil (rest.length - length) (depth - 1) value rest with
        | .error e => .error e
        | .ok (value, after) =>
          if after.length = rest.length - length then .ok (value, after)
          else .error (.ofFault .overrun)

theorem mergeBlock_shortens {depth : Nat} {value value' : α} {bytes rest : Bytes}
    (ok : mergeBlock depth value bytes = .ok (value', rest)) : rest.length ≤ bytes.length := by
  unfold mergeBlock at ok
  split at ok
  · cases ok
  · split at ok
    · cases ok
    · next found =>
      have := Varint.read_shortens found
      split at ok
      · cases ok
      · split at ok
        · cases ok
        · split at ok
          · cases ok; omega
          · cases ok

/-- The encoding of a message. -/
def encode (value : α) : Bytes := (fields (α := α)).flatMap (·.encode value)

/-- The length of the encoding, counted without writing it. -/
def encodedLength (value : α) : Nat :=
  total ((fields (α := α)).map (·.encodedLength value))

/-- The encoding preceded by its length. -/
def encodeDelimited (value : α) : Bytes := writeBlock (encode value)

/-- The field-wise overlay of `later` on `earlier`. -/
def join (earlier later : α) : α :=
  (fields (α := α)).foldl (fun value field => field.join value later) earlier

end Message

/-- How many levels of messages and groups may lie inside each other. -/
def depthLimit : Nat := 100

namespace Message

variable {α : Type} [Message α]

/-- Reads all of `bytes` onto a value. -/
def merge (value : α) (bytes : Bytes) : Except DecodeError α :=
  (mergeUntil 0 depthLimit value bytes).map (·.1)

/-- Reads all of `bytes` as a message. -/
def decode (bytes : Bytes) : Except DecodeError α := merge empty bytes

/-- Reads a message preceded by its length, and leaves what follows. -/
def decodeDelimited (bytes : Bytes) : Except DecodeError (α × Bytes) :=
  mergeBlock depthLimit empty bytes

end Message

/-- An optional message inside a message.  A present but empty one is written as an empty block,
and later payloads are read onto earlier ones. -/
def Codec.message (γ : Type) [Message γ] : Codec (Option γ) where
  wireType := .lengthDelimited
  empty := none
  join
    | earlier, none => earlier
    | none, some later => some later
    | some earlier, some later => some (Message.join earlier later)
  payloads value := value.toList.map Message.encodeDelimited
  sizes value := value.toList.map fun inner =>
    Varint.size (Message.encodedLength inner) + Message.encodedLength inner
  absorb depth value bytes :=
    match Message.mergeBlock depth (value.getD Message.empty) bytes with
    | .error e => .error e
    | .ok (inner, rest) => .ok (some inner, rest)
  absorb_shortens ok := by
    split at ok
    · cases ok
    · next found => cases ok; exact Message.mergeBlock_shortens found

end GroupReplay.Wire
