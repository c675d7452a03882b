import DocAnnotations.Decimal.Shortest

/-!
# Laying out a decimal

A chosen decimal is digits and a power of ten.  It is written positionally, with at least one digit
on either side of the point, or with one digit before the point and an exponent.

A `Layout` says for which powers of ten the one form ends and the other begins, and how the exponent
is marked.  The same decimals are written differently as literals, in documents of single precision
and in those of double precision, so the layout is a parameter.
-/

namespace DocAnnotations.Decimal

/-- How a decimal is written. -/
structure Layout where
  /-- The least exponent of the leading digit that is written positionally. -/
  plainFrom : Int
  /-- The least exponent above it that is not. -/
  plainBelow : Int
  /-- Whether a positive exponent has a sign. -/
  plusSign : Bool
  /-- Which of two equally close shortest decimals is written. -/
  tie : Tie

/-- A run of zeros. -/
def zeros (n : Nat) : List Char := List.replicate n '0'

/-- The positional form of `digits * 10 ^ exponent`. -/
def positional (digits : List Char) (exponent : Int) : List Char :=
  let places := (-exponent).toNat
  if 0 ≤ exponent then digits ++ zeros exponent.toNat ++ ['.', '0']
  else if places < digits.length then
    digits.take (digits.length - places) ++ '.' :: digits.drop (digits.length - places)
  else '0' :: '.' :: zeros (places - digits.length) ++ digits

/-- The form with an exponent, `leading` being the exponent of the first digit. -/
def scientific (plusSign : Bool) (digits : List Char) (leading : Int) : List Char :=
  let point := if digits.length > 1 then ['.'] else []
  let sign := if leading < 0 then ['-'] else if plusSign then ['+'] else []
  digits.take 1 ++ point ++ digits.drop 1 ++ 'e' :: sign ++ Nat.toDigits 10 leading.natAbs

/-- Writes `digits * 10 ^ exponent`. -/
def Layout.write (l : Layout) (digits : Nat) (exponent : Int) : List Char :=
  let ds := Nat.toDigits 10 digits
  let leading := exponent + ds.length - 1
  if l.plainFrom ≤ leading && leading < l.plainBelow then positional ds exponent
  else scientific l.plusSign ds leading

/-- Writes a finite pattern by its shortest decimal; zeros keep their sign. -/
def Layout.finite (l : Layout) (f : BinaryFormat) (bits : Nat) : List Char :=
  let sign := if f.isNegative bits then ['-'] else []
  if f.magnitude bits = 0 then sign ++ "0.0".toList
  else
    let (digits, exponent) := (f.toDyadic (f.magnitude bits)).shortest l.tie
    sign ++ l.write digits exponent

end DocAnnotations.Decimal
