import GroupReplay.Bytes

/-!
The text form of group, device and event keys: unpadded base64 over the URL-safe alphabet.
`Key.encode` regroups bytes into symbols of six bits, `Key.decode` regroups them back and refuses
every text that no byte string is written as: a foreign symbol, padding, a length that leaves a
single symbol over, or a last symbol whose unused bits are not zero.
-/

namespace GroupReplay.Key

/-- Why a text is no key.  Offsets count bytes of its UTF-8 form. -/
inductive DecodeError where
  /-- A byte outside the alphabet, or padding where none could stand. -/
  | symbol (byte : UInt8) (offset : Nat)
  /-- The last symbol has bits that belong to no byte. -/
  | lastSymbol (byte : UInt8) (offset : Nat)
  /-- A single symbol is left over; the length is that of the text up to it. -/
  | length (bytes : Nat)
  /-- The text ends in padding. -/
  | padding
  deriving DecidableEq, Repr

/-- The wording of a decode error. -/
def DecodeError.message : DecodeError → String
  | .symbol byte offset => s!"Invalid symbol {byte.toNat}, offset {offset}."
  | .lastSymbol byte offset => s!"Invalid last symbol {byte.toNat}, offset {offset}."
  | .length bytes => s!"Invalid input length: {bytes}"
  | .padding => "Invalid padding"

/-- The character that stands for six bits. -/
def symbol (bits : Nat) : Char :=
  if bits < 26 then Char.ofNat (65 + bits)
  else if bits < 52 then Char.ofNat (71 + bits)
  else if bits < 62 then Char.ofNat (bits - 4)
  else if bits = 62 then '-'
  else '_'

/-- The six bits that a byte of text stands for, when it is in the alphabet. -/
def bits? (byte : UInt8) : Option Nat :=
  let code := byte.toNat
  if 65 ≤ code ∧ code ≤ 90 then some (code - 65)
  else if 97 ≤ code ∧ code ≤ 122 then some (code - 71)
  else if 48 ≤ code ∧ code ≤ 57 then some (code + 4)
  else if code = 45 then some 62
  else if code = 95 then some 63
  else none

/-- The padding byte, which no key holds. -/
def pad : UInt8 := 61

/-- The symbols of a byte string: four for three bytes, then three for two or two for one. -/
def symbols : Bytes → List Char
  | x :: y :: z :: rest =>
    symbol (x.toNat / 4) :: symbol (x.toNat % 4 * 16 + y.toNat / 16) ::
      symbol (y.toNat % 16 * 4 + z.toNat / 64) :: symbol (z.toNat % 64) :: symbols rest
  | [x, y] =>
    [symbol (x.toNat / 4), symbol (x.toNat % 4 * 16 + y.toNat / 16), symbol (y.toNat % 16 * 4)]
  | [x] => [symbol (x.toNat / 4), symbol (x.toNat % 4 * 16)]
  | [] => []

/-- The text of a key. -/
def encode (key : Bytes) : String := String.ofList (symbols key)

/-- The three bytes of four groups of six bits. -/
def threeBytes (a b c d : Nat) : Bytes :=
  [UInt8.ofNat (a * 4 + b / 16), UInt8.ofNat (b % 16 * 16 + c / 4), UInt8.ofNat (c % 4 * 64 + d)]

/-- The bits of a byte of text, or the error that it is no symbol. -/
def bitsAt (byte : UInt8) (offset : Nat) : Except DecodeError Nat :=
  match bits? byte with
  | some bits => .ok bits
  | none => .error (.symbol byte offset)

/-- The bits of all bytes from `offset` on, or the first of them that is no symbol. -/
def allBits (offset : Nat) : Bytes → Except DecodeError (List Nat)
  | [] => .ok []
  | byte :: rest => do
    let bits ← bitsAt byte offset
    let more ← allBits (offset + 1) rest
    return bits :: more

/-- The bytes of the last one to four symbols, which stand before any padding. -/
def lastBytes (offset : Nat) (text : Bytes) : List Nat → Except DecodeError Bytes
  | [a, b, c, d] => .ok (threeBytes a b c d)
  | [a, b, c] =>
    if c % 4 = 0 then .ok ((threeBytes a b c 0).take 2)
    else .error (.lastSymbol (text.getD 2 0) (offset + 2))
  | [a, b] =>
    if b % 16 = 0 then .ok ((threeBytes a b 0 0).take 1)
    else .error (.lastSymbol (text.getD 1 0) (offset + 1))
  | bits => .error (.length (offset + bits.length))

/-- Reads the last group, of at most four bytes.  Padding after two or three symbols is named as
such; anywhere else it is a foreign symbol. -/
def decodeTail (offset : Nat) (text : Bytes) : Except DecodeError Bytes := do
  let body := text.takeWhile (· != pad)
  let padding := text.dropWhile (· != pad)
  let bits ← allBits offset body
  if padding ≠ [] ∧ (body.length < 2 ∨ padding.any (· != pad)) then
    throw (.symbol pad (offset + body.length))
  else if padding ≠ [] then
    throw .padding
  else
    lastBytes offset text bits

/-- Reads groups of four symbols while more text follows, then the last group. -/
def decodeFrom (offset : Nat) : Bytes → Except DecodeError Bytes
  | [] => .ok []
  | a :: b :: c :: d :: e :: rest => do
    match ← allBits offset [a, b, c, d] with
    | [p, q, r, s] => return threeBytes p q r s ++ (← decodeFrom (offset + 4) (e :: rest))
    | _ => return []
  | tail => decodeTail offset tail

/-- The key that a text stands for.  Where one byte is left over after groups of four, a foreign
last byte is reported ahead of any earlier error. -/
def decode (text : String) : Except DecodeError Bytes :=
  let bytes := Bytes.ofText text
  let last := bytes.getLastD 0
  if bytes.length % 4 = 1 ∧ last ≠ pad ∧ bits? last = none then
    .error (.symbol last (bytes.length - 1))
  else
    decodeFrom 0 bytes

end GroupReplay.Key
