/-!
# Digits and numbers in a base

Digits are those of ASCII; letters of either case stand for the values from ten on.
-/

namespace DocAnnotations.Text

/-- The value of a digit or letter. -/
def digitValue? (c : Char) : Option Nat :=
  if '0' ≤ c && c ≤ '9' then some (c.toNat - '0'.toNat)
  else if 'a' ≤ c && c ≤ 'z' then some (c.toNat - 'a'.toNat + 10)
  else if 'A' ≤ c && c ≤ 'Z' then some (c.toNat - 'A'.toNat + 10)
  else none

/-- The value of a digit of the given base. -/
def digitOf? (base : Nat) (c : Char) : Option Nat :=
  match digitValue? c with
  | some d => if d < base then some d else none
  | none => none

/-- A hexadecimal digit, of either case. -/
def isHexDigit (c : Char) : Bool := (digitOf? 16 c).isSome

/-- The number that digits stand for, behind the value of the digits before. -/
def numberFrom? (base : Nat) : Nat → List Char → Option Nat
  | n, [] => some n
  | n, c :: cs =>
    match digitOf? base c with
    | some d => numberFrom? base (n * base + d) cs
    | none => none

/-- The number that a text of digits stands for; there is at least one. -/
def numberOf? (base : Nat) (cs : List Char) : Option Nat :=
  if cs.isEmpty then none else numberFrom? base 0 cs

end DocAnnotations.Text
