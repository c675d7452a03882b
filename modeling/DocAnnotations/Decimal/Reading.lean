import DocAnnotations.Decimal.Format
import DocAnnotations.Text.Digit

/-!
# Reading decimals

A decimal is an optional sign, digits with at most one point among them or at either end, and an
optional exponent.  At least one digit stands before the exponent, and one in it.

**Numerals.**  `Numeral.ofChars?` takes a text apart, and leaves the digits as one natural number
with the power of ten that they are times.

**Rounding.**  The value is rounded once, directly to the format asked for.  An exponent may have
any number of digits, so values outside the range of every format are recognised by their size
first.
-/

namespace DocAnnotations.Decimal

/-- A number as its digits say it: `digits * 10 ^ exponent` with a sign of its own. -/
structure Numeral where
  negative : Bool
  digits : Nat
  exponent : Int
deriving DecidableEq

/-- A sign at the front, true for minus, and the rest. -/
def takeSign : List Char → Bool × List Char
  | '-' :: cs => (true, cs)
  | '+' :: cs => (false, cs)
  | cs => (false, cs)

/-- The exponent behind a mantissa: nothing, or its letter, an optional sign and digits. -/
def exponent? : List Char → Option Int
  | [] => some 0
  | c :: cs =>
    if c == 'e' || c == 'E' then
      let (negative, cs) := takeSign cs
      (Text.numberOf? 10 cs).map fun n => if negative then -(n : Int) else n
    else none

/-- The numeral that a text is. -/
def Numeral.ofChars? (cs : List Char) : Option Numeral :=
  let (negative, cs) := takeSign cs
  let whole := cs.takeWhile Char.isDigit
  let (fraction, tail) := match cs.dropWhile Char.isDigit with
    | '.' :: rest => (rest.takeWhile Char.isDigit, rest.dropWhile Char.isDigit)
    | rest => ([], rest)
  match Text.numberOf? 10 (whole ++ fraction), exponent? tail with
  | some digits, some e => some ⟨negative, digits, e - fraction.length⟩
  | _, _ => none

/-- How many digits a natural number has; zero has one. -/
def decimalLength (n : Nat) : Nat := (Nat.toDigits 10 n).length

/-- Decimal exponents past this bound, either way, lead to infinity or zero in every format of at
most 64 bits, whatever the digits. -/
def exponentBound : Int := 400

/-- The pattern nearest to a numeral.  Values outside the range of any format are recognised by
their size, so that no huge power is ever computed. -/
def BinaryFormat.ofNumeral (f : BinaryFormat) (x : Numeral) : Nat :=
  let size := x.exponent + decimalLength x.digits
  f.withSign x.negative <|
    if x.digits = 0 || size < -exponentBound then 0
    else if size > exponentBound then f.infinity
    else f.nearest (x.digits * tenTo x.exponent) (tenTo (-x.exponent))

end DocAnnotations.Decimal
