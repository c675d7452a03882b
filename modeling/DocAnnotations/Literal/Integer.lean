import DocAnnotations.Text.Affix
import DocAnnotations.Text.Digit

/-!
# Integer literals

An integer literal has an optional minus sign, digits, and an optional long suffix.  `0x` makes the
digits hexadecimal, a leading zero with more behind it octal.  A decimal literal must lie in the
signed range of its type; at 32 and 64 bits the others may use all bits, the highest of them as
sign.
-/

namespace DocAnnotations

/-- An integer literal taken apart. -/
structure IntegerLiteral where
  negative : Bool
  magnitude : Nat
  base : Nat
  longSuffix : Bool
deriving DecidableEq

namespace IntegerLiteral

/-- The text before a long suffix, and whether there was one. -/
def splitSuffix (cs : List Char) : List Char × Bool :=
  match cs.getLast? with
  | some 'l' => (cs.dropLast, true)
  | some 'L' => (cs.dropLast, true)
  | _ => (cs, false)

/-- The base that the front of the digits gives, and the digits behind the mark. -/
def splitBase : List Char → Nat × List Char
  | '0' :: 'x' :: cs => (16, cs)
  | '0' :: 'X' :: cs => (16, cs)
  | '0' :: c :: cs => (8, c :: cs)
  | cs => (10, cs)

/-- The literal that a text is. -/
def ofChars? (cs : List Char) : Option IntegerLiteral :=
  let (negative, cs) := match cs with
    | '-' :: cs => (true, cs)
    | cs => (false, cs)
  let (cs, longSuffix) := splitSuffix cs
  let (base, digits) := splitBase cs
  (Text.numberOf? base digits).map fun magnitude => ⟨negative, magnitude, base, longSuffix⟩

/-- The value of the magnitude as `bits` bits, the highest a sign bit if `wraps` allows it. -/
def signed? (bits : Nat) (wraps : Bool) (l : IntegerLiteral) : Option Int :=
  let half := Nat.pow 2 (bits - 1)
  if l.magnitude < half || (l.negative && l.magnitude = half) then some l.magnitude
  else if wraps && l.magnitude < Nat.pow 2 bits then some (l.magnitude - Nat.pow 2 bits : Int)
  else none

/-- The value of the literal in a type of the given width. -/
def fit? (bits : Nat) (l : IntegerLiteral) : Option Int :=
  (l.signed? bits (32 ≤ bits && l.base != 10)).map fun n => if l.negative then -n else n

end IntegerLiteral

end DocAnnotations
