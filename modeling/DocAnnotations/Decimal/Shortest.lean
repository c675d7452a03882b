import DocAnnotations.Decimal.Reading

/-!
# The shortest decimal of a floating value

The decimal chosen for a value is, among those that read back as the value, one with the fewest
digits; among these the closest to the exact value; of two equally close the one that a `Tie`
names.  A decimal reads back when it lies between the halfway points to the neighbouring values; a
halfway point itself reads back exactly if the mantissa is even.
-/

namespace DocAnnotations.Decimal

/-- Which of two neighbouring multiples of a power of ten a value halfway between them goes to. -/
inductive Tie where
  | up
  | toEven
deriving DecidableEq

/-- Compares `a * 10 ^ i` with `n * 2 ^ j`. -/
def compareScaled (a : Nat) (i : Int) (n : Nat) (j : Int) : Ordering :=
  compare (a * tenTo i * twoTo (-j)) (n * twoTo j * tenTo (-i))

namespace Dyadic

variable (x : Dyadic)

/-- Whether `digits * 10 ^ exponent` is rounded to the value. -/
def readsBack (digits : Nat) (exponent : Int) : Bool :=
  let low := if x.narrowBelow then 4 * x.mantissa - 1 else 4 * x.mantissa - 2
  let high := 4 * x.mantissa + 2
  let atEnds := x.mantissa % 2 == 0
  let above := compareScaled digits exponent low (x.exponent - 2)
  let below := compareScaled digits exponent high (x.exponent - 2)
  (above == .gt || (atEnds && above == .eq)) && (below == .lt || (atEnds && below == .eq))

/-- The least `k` with the value below `10 ^ k`, for a positive value. -/
def decimalSize : Int :=
  let num := x.mantissa * twoTo x.exponent
  let den := twoTo (-x.exponent)
  if den ≤ num then decimalLength (num / den)
  else
    let k : Int := 1 - decimalLength (den / num)
    if compareScaled 1 k x.mantissa x.exponent == .gt then k else k + 1

/-- The value in units of `10 ^ exponent`, rounded down. -/
def floorAt (exponent : Int) : Nat :=
  (x.mantissa * twoTo x.exponent * tenTo (-exponent)) / (twoTo (-x.exponent) * tenTo exponent)

/-- The multiple of `10 ^ exponent` that reads back, if one does; of two the closer one. -/
def onGrid? (tie : Tie) (exponent : Int) : Option Nat :=
  let low := x.floorAt exponent
  match x.readsBack low exponent, x.readsBack (low + 1) exponent with
  | true, true =>
    match compareScaled (2 * low + 1) exponent (2 * x.mantissa) x.exponent with
    | .gt => some low
    | .lt => some (low + 1)
    | .eq => if tie = .toEven ∧ low % 2 = 0 then some low else some (low + 1)
  | true, false => some low
  | false, true => some (low + 1)
  | false, false => none

/-- The exact value as digits and exponent. -/
def exact : Nat × Int :=
  if x.exponent < 0 then (x.mantissa * Nat.pow 5 (-x.exponent).toNat, x.exponent)
  else (x.mantissa * twoTo x.exponent, 0)

end Dyadic

/-- Moves up to `n` zeros from the end of the digits into the exponent. -/
def stripZeros : Nat → Nat × Int → Nat × Int
  | 0, d => d
  | n + 1, (digits, exponent) =>
    if digits % 10 = 0 then stripZeros n (digits / 10, exponent + 1) else (digits, exponent)

/-- How many significant digits are tried; seventeen identify every value of at most 64 bits. -/
def maxDigits : Nat := 17

/-- The shortest decimal of a positive value, as digits and exponent.  Coarser grids are tried
first. -/
def Dyadic.shortest (x : Dyadic) (tie : Tie) : Nat × Int :=
  let size := x.decimalSize
  let found := (List.range maxDigits).findSome? fun (n : Nat) =>
    let exponent := size - 1 - n
    (x.onGrid? tie exponent).map fun digits => (digits, exponent)
  match found with
  | some d => stripZeros maxDigits d
  | none => x.exact

end DocAnnotations.Decimal
