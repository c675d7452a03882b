import DocAnnotations.Decimal.Reading

/-!
# Floating literals

A floating literal is a decimal with an optional suffix of its own type.  It is rounded once,
directly to its type.  Values that overflow, and values other than zero that round to zero, are out
of range.
-/

namespace DocAnnotations

open Decimal

/-- Why a text is no literal of a floating type. -/
inductive FloatingFault where
  /-- The text has the suffix of the other floating type. -/
  | otherSuffix
  | malformed
  | outOfRange
deriving DecidableEq

/-- A decimal as a pattern of the given format. -/
def floatingOfChars (f : BinaryFormat) (cs : List Char) : Except FloatingFault Nat :=
  match Numeral.ofChars? cs with
  | none => .error .malformed
  | some numeral =>
    let bits := f.ofNumeral numeral
    if f.isInfinite bits || (f.magnitude bits = 0 && numeral.digits != 0) then .error .outOfRange
    else .ok bits

/-- A literal as a pattern of the given format, of which the suffixes are given in lower case. -/
def floatingLiteral (f : BinaryFormat) (own other : Char) (cs : List Char) :
    Except FloatingFault Nat :=
  match cs.getLast?.map Char.toLower with
  | none => .error .malformed
  | some last =>
    if last = other then .error .otherSuffix
    else if last = own then floatingOfChars f cs.dropLast
    else floatingOfChars f cs

end DocAnnotations
