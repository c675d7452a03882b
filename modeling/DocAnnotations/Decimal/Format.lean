/-!
# Binary floating formats

A floating value is kept as its bit pattern, a natural number: a sign bit, exponent bits and
fraction bits.  Patterns are never normalised, so the payload of a NaN survives.

**Formats.**  `single` and `double` are the two formats; everything else is for any `BinaryFormat`.
`BinaryFormat.toDyadic` gives the exact number that a magnitude stands for, as a mantissa and a
power of two, and says whether the magnitude below it is nearer than the one above.

**Rounding to a format.**  All arithmetic on values goes through exact integers: a quotient of
naturals is scaled by a power of two and rounded once, halves to even.
-/

namespace DocAnnotations.Decimal

/-! ## Powers -/

/-- The power of two with the given exponent; one where the exponent is negative. -/
def twoTo (e : Int) : Nat := Nat.pow 2 e.toNat

/-- The power of ten with the given exponent; one where the exponent is negative. -/
def tenTo (e : Int) : Nat := Nat.pow 10 e.toNat

/-! ## Formats -/

/-- The widths of a binary format. -/
structure BinaryFormat where
  fractionBits : Nat
  exponentBits : Nat
deriving DecidableEq

/-- The 32-bit format. -/
def single : BinaryFormat := ⟨23, 8⟩

/-- The 64-bit format. -/
def double : BinaryFormat := ⟨52, 11⟩

/-- The exact value of a finite magnitude: `mantissa * 2 ^ exponent`. -/
structure Dyadic where
  mantissa : Nat
  exponent : Int
  /-- Whether the gap to the value below is half of the gap to the value above. -/
  narrowBelow : Bool

namespace BinaryFormat

variable (f : BinaryFormat)

/-- The weight of the sign bit. -/
def signBit : Nat := twoTo (f.fractionBits + f.exponentBits)

/-- The exponent of the least positive value. -/
def minExponent : Int := 2 - twoTo (f.exponentBits - 1) - f.fractionBits

/-- The pattern of positive infinity; patterns above it, up to the sign bit, are not numbers. -/
def infinity : Nat := (twoTo f.exponentBits - 1) * twoTo f.fractionBits

/-- The pattern without its sign. -/
def magnitude (bits : Nat) : Nat := bits % f.signBit

/-- Whether the sign bit is set. -/
def isNegative (bits : Nat) : Bool := f.signBit ≤ bits

/-- Whether a pattern stands for no number. -/
def isNaN (bits : Nat) : Bool := f.infinity < f.magnitude bits

/-- Whether a pattern stands for an infinity. -/
def isInfinite (bits : Nat) : Bool := f.magnitude bits == f.infinity

/-- A magnitude with a sign. -/
def withSign (negative : Bool) (magnitude : Nat) : Nat :=
  if negative then f.signBit + magnitude else magnitude

/-- The exact value of a magnitude below infinity. -/
def toDyadic (magnitude : Nat) : Dyadic :=
  let field := magnitude / twoTo f.fractionBits
  let fraction := magnitude % twoTo f.fractionBits
  if field = 0 then ⟨fraction, f.minExponent, false⟩
  else ⟨twoTo f.fractionBits + fraction, f.minExponent + field - 1, fraction == 0 && field > 1⟩

end BinaryFormat

/-! ## Rounding to a format -/

/-- The quotient of two naturals, rounded to the nearest natural, a half to the even neighbour. -/
def roundQuotient (num den : Nat) : Nat :=
  let q := num / den
  let r := num % den
  if 2 * r < den then q
  else if den < 2 * r then q + 1
  else if q % 2 = 0 then q else q + 1

/-- The greatest `k` with `2 ^ k ≤ num / den`, for positive `num` and `den`. -/
def ratioLog2 (num den : Nat) : Int :=
  let k : Int := (num.log2 : Int) - den.log2
  if num * twoTo (-k) < den * twoTo k then k - 1 else k

/-- The magnitude nearest to `num / den`, a tie going to the even mantissa; infinity from the value
on that rounds to one power of two too high. -/
def BinaryFormat.nearest (f : BinaryFormat) (num den : Nat) : Nat :=
  if num = 0 then 0
  else
    let e := max (ratioLog2 num den - f.fractionBits) f.minExponent
    let m := roundQuotient (num * twoTo (-e)) (den * twoTo e)
    min ((e - f.minExponent).toNat * twoTo f.fractionBits + m) f.infinity

/-- The magnitude nearest to the product of two magnitudes below infinity. -/
def BinaryFormat.product (f : BinaryFormat) (a b : Nat) : Nat :=
  let x := f.toDyadic a
  let y := f.toDyadic b
  let e := x.exponent + y.exponent
  f.nearest (x.mantissa * y.mantissa * twoTo e) (twoTo (-e))

/-- The magnitude nearest to the quotient of two magnitudes below infinity, the second not zero. -/
def BinaryFormat.quotient (f : BinaryFormat) (a b : Nat) : Nat :=
  let x := f.toDyadic a
  let y := f.toDyadic b
  let e := x.exponent - y.exponent
  f.nearest (x.mantissa * twoTo e) (y.mantissa * twoTo (-e))

/-- The pattern nearest to an integer. -/
def BinaryFormat.ofInt (f : BinaryFormat) (n : Int) : Nat :=
  f.withSign (n < 0) (f.nearest n.natAbs 1)

end DocAnnotations.Decimal
