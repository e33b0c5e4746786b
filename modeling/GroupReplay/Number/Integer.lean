/-!
Integers of 64 bits written in digits of some base.
-/

namespace GroupReplay.Number

/-- The value of a digit or letter, ASCII alone. -/
def digitValue? (c : Char) : Option Nat :=
  if c.isDigit then some (c.toNat - '0'.toNat)
  else if c.isUpper then some (c.toNat - 'A'.toNat + 10)
  else if c.isLower then some (c.toNat - 'a'.toNat + 10)
  else none

/-- The value of one or more digits of a base. -/
def ofDigits? (base : Nat) (digits : List Char) : Option Nat :=
  if digits.isEmpty then none
  else digits.foldlM (fun value c =>
    (digitValue? c).bind fun digit => if digit < base then some (value * base + digit) else none) 0

/-- A sign, if there is one, and what follows it. -/
def splitSign : List Char → Bool × List Char
  | '-' :: rest => (true, rest)
  | '+' :: rest => (false, rest)
  | rest => (false, rest)

/-- An integer that fits 64 bits, its sign before its digits. -/
def int64OfBase? (base : Nat) (text : List Char) : Option Int :=
  let (negative, digits) := splitSign text
  (ofDigits? base digits).bind fun size =>
    if negative then if size ≤ 0x8000000000000000 then some (-(size : Int)) else none
    else if size < 0x8000000000000000 then some size
    else none

/-- An integer that fits 64 bits, in decimal digits. -/
def int64? (text : String) : Option Int := int64OfBase? 10 text.toList

end GroupReplay.Number
