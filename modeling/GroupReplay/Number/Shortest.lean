import GroupReplay.Number.Double

/-!
The fewest decimal digits that round to a double, and of those the nearest; they are written without
an exponent.
-/

namespace GroupReplay.Number.Double

/-- Digits times a power of ten. -/
structure Decimal where
  digits : Nat
  exponent : Int
  deriving DecidableEq, Repr

/-- Compares digits times a power of ten with a positive mantissa, counted in quarters, times a
power of two. -/
def compareDecimal (decimal : Decimal) (quarters : Nat) (exponent : Int) : Ordering :=
  let (left, right) := scale 10 decimal.exponent decimal.digits 1
  let (left, right) := scale 2 (2 - exponent) left right
  compare left (quarters * right)

/-- Whether a decimal rounds to a double. -/
def Decimal.roundsTo (decimal : Decimal) (mantissa : Nat) (exponent : Int) : Bool :=
  -- Below a power of two the gap to the next double is half as wide.
  let narrow := mantissa = leastNormal ∧ -1074 < exponent
  let low := if narrow then 4 * mantissa - 1 else 4 * mantissa - 2
  let high := 4 * mantissa + 2
  let even := mantissa % 2 = 0
  let fromLow := compareDecimal decimal low exponent
  let fromHigh := compareDecimal decimal high exponent
  (fromLow = .gt || (even && fromLow = .eq)) && (fromHigh = .lt || (even && fromHigh = .eq))

/-- The neighbours of a positive double among the multiples of a power of ten. -/
def neighbours (mantissa : Nat) (exponent power : Int) : Decimal × Decimal :=
  let (n, d) := scale 2 exponent mantissa 1
  let (n, d) := scale 10 (-power) n d
  (⟨n / d, power⟩, ⟨n / d + 1, power⟩)

/-- The neighbour that rounds to a double, of two the nearer, of two equally near the upper. -/
def nearest? (mantissa : Nat) (exponent power : Int) : Option Decimal :=
  let (lower, upper) := neighbours mantissa exponent power
  match lower.roundsTo mantissa exponent, upper.roundsTo mantissa exponent with
  | true, false => some lower
  | false, true => some upper
  | false, false => none
  | true, true =>
    let middle : Decimal := ⟨lower.digits * 10 + 5, power - 1⟩
    if compareDecimal middle (4 * mantissa) exponent = .gt then some lower else some upper

/-- Tries finer and finer powers of ten. -/
def search (mantissa : Nat) (exponent : Int) : Nat → Int → Decimal
  | 0, power => (neighbours mantissa exponent power).1
  | steps + 1, power =>
    match nearest? mantissa exponent power with
    | some decimal => decimal
    | none => search mantissa exponent steps (power - 1)

/-- The shortest decimal that rounds to a positive double. -/
def shortest (mantissa : Nat) (exponent : Int) : Decimal :=
  let (n, d) := scale 2 exponent mantissa 1
  let size : Int := (Nat.toDigits 10 (n / d)).length
  let lowest : Int := (Nat.toDigits 10 (d / n)).length
  search mantissa exponent 20 (if n < d then 1 - lowest else size)

/-- Writes a decimal without an exponent and without idle zeros after the point. -/
def Decimal.render (decimal : Decimal) : String :=
  let digits := Nat.toDigits 10 decimal.digits
  if 0 ≤ decimal.exponent then
    String.ofList (digits ++ List.replicate decimal.exponent.toNat '0')
  else
    let places := (-decimal.exponent).toNat
    let digits := List.replicate (places + 1 - digits.length) '0' ++ digits
    let whole := digits.take (digits.length - places)
    let fraction := (digits.drop (digits.length - places)).reverse.dropWhile (· = '0')
    if fraction.isEmpty then String.ofList whole
    else String.ofList (whole ++ '.' :: fraction.reverse)

/-- The text of a double. -/
def render : Double → String
  | nan => "NaN"
  | infinite negative => if negative then "-inf" else "inf"
  | finite negative mantissa exponent =>
    let size := if mantissa = 0 then "0" else (shortest mantissa exponent).render
    if negative then "-" ++ size else size

end GroupReplay.Number.Double
