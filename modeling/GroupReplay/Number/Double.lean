import GroupReplay.Number.Integer

/-!
Doubles as exact values, and how decimal digits round to them: to the nearest, and of two at the
same distance to the one with an even mantissa.
-/

namespace GroupReplay.Number

/-- A double. -/
inductive Double where
  | nan
  | infinite (negative : Bool)
  /-- The mantissa times a power of two.  The mantissa has at most 53 bits; it has less only at the
  least exponent, -1074. -/
  | finite (negative : Bool) (mantissa : Nat) (exponent : Int)
  deriving DecidableEq, Repr

namespace Double

/-- The least mantissa of 53 bits. -/
def leastNormal : Nat := 0x10000000000000

/-- The integer nearest to a quotient, of two the even one. -/
def roundQuotient (numerator denominator : Nat) : Nat :=
  let quotient := numerator / denominator
  let twice := 2 * (numerator % denominator)
  if denominator < twice ∨ (twice = denominator ∧ quotient % 2 = 1) then quotient + 1 else quotient

/-- A numerator and denominator with the ratio of a given pair times a power of a base. -/
def scale (base : Nat) (exponent : Int) (numerator denominator : Nat) : Nat × Nat :=
  if 0 ≤ exponent then (numerator * Nat.pow base exponent.toNat, denominator)
  else (numerator, denominator * Nat.pow base (-exponent).toNat)

/-- The double nearest to a quotient of two positive integers. -/
def ofQuotient (negative : Bool) (numerator denominator : Nat) : Double :=
  let guess : Int := max ((numerator.log2 : Int) - denominator.log2 - 53) (-1074)
  let (n, d) := scale 2 (-guess) numerator denominator
  let exponent := if 2 * leastNormal ≤ n / d then guess + 1 else guess
  let (n, d) := scale 2 (-exponent) numerator denominator
  let mantissa := roundQuotient n d
  let (mantissa, exponent) :=
    if mantissa = 2 * leastNormal then (leastNormal, exponent + 1) else (mantissa, exponent)
  if 971 < exponent then .infinite negative else .finite negative mantissa exponent

/-- The double nearest to digits times a power of ten.  No power is formed that the range of doubles
makes needless. -/
def ofDecimal (negative : Bool) (digits : Nat) (exponent : Int) : Double :=
  let size : Int := (Nat.toDigits 10 digits).length
  if digits = 0 ∨ size + exponent < -400 then .finite negative 0 (-1074)
  else if 400 < size + exponent then .infinite negative
  else
    let (n, d) := scale 10 exponent digits 1
    ofQuotient negative n d

/-- The exponent of ten, zero when none is written. -/
def exponent? : List Char → Option Int
  | [] => some 0
  | mark :: rest =>
    if mark = 'e' ∨ mark = 'E' then
      let (negative, digits) := splitSign rest
      (ofDigits? 10 digits).map fun size => if negative then -(size : Int) else size
    else none

/-- An unsigned decimal: digits, of which some may stand after a point, and an exponent. -/
def decimal? (negative : Bool) (text : List Char) : Option Double :=
  let whole := text.takeWhile Char.isDigit
  let (fraction, rest) := match text.dropWhile Char.isDigit with
    | '.' :: rest => (rest.takeWhile Char.isDigit, rest.dropWhile Char.isDigit)
    | rest => ([], rest)
  (ofDigits? 10 (whole ++ fraction)).bind fun digits =>
    (exponent? rest).map fun exponent =>
      ofDecimal negative digits (exponent - fraction.length)

/-- Reads a double: a decimal, an infinity or no number, with a sign before it or none. -/
def ofText? (text : String) : Option Double :=
  let (negative, rest) := splitSign text.toList
  let word := (String.ofList rest).toLower
  if word = "inf" ∨ word = "infinity" then some (.infinite negative)
  else if word = "nan" then some .nan
  else decimal? negative rest

end Double

end GroupReplay.Number
