import DocAnnotations.Decimal.Layout
import DocAnnotations.Text.Blank
import DocAnnotations.Text.Printable
import DocAnnotations.Value

/-!
# Text of values

A value is written as a literal that means it: longs with `L`, floats with `f`, texts between quotes
with escapes.

Floating values are written by their shortest decimal, positionally from `0.0001` up to below `10 ^
16`, and with an exponent outside of that.

Annotations are written with all their elements in order, so the text of a value that has all
elements needs no defaults to be read.
-/

namespace DocAnnotations

open Text Decimal

/-- Floating values are positional from `10 ^ -4` up to below `10 ^ 16`, and a positive exponent
has no sign. -/
def valueLayout : Layout := ⟨-4, 16, false, .up⟩

/-- A floating value of the given format. -/
def floatingChars (f : BinaryFormat) (bits : Nat) : List Char :=
  if f.isNaN bits then "NaN".toList
  else if f.isInfinite bits then (if f.isNegative bits then "-inf" else "inf").toList
  else valueLayout.finite f bits

/-- An integer in decimal. -/
def integerChars (n : Int) : List Char :=
  if n < 0 then '-' :: Nat.toDigits 10 n.natAbs else Nat.toDigits 10 n.natAbs

/-- A character between the given quotes: named escapes, and numbers for control characters. -/
def escapedChar (quote c : Char) : List Char :=
  if c = '\x08' then ['\\', 'b']
  else if c = '\t' then ['\\', 't']
  else if c = '\n' then ['\\', 'n']
  else if c = '\x0c' then ['\\', 'f']
  else if c = '\r' then ['\\', 'r']
  else if c = '\\' then ['\\', '\\']
  else if c = quote then ['\\', quote]
  else if isControl c then '\\' :: 'u' :: (hexPadded 4 c.toNat).toList
  else [c]

/-- A text between the given quotes. -/
def quotedChars (quote : Char) (cs : List Char) : List Char :=
  quote :: cs.flatMap (escapedChar quote) ++ [quote]

mutual

/-- The text of a value. -/
def Value.chars : Value → List Char
  | .byte v => integerChars v.toInt
  | .short v => integerChars v.toInt
  | .int v => integerChars v.toInt
  | .long v => integerChars v.toInt ++ ['L']
  | .float bits => floatingChars single bits.toNat ++ ['f']
  | .double bits => floatingChars double bits.toNat
  | .boolean v => (if v then "true" else "false").toList
  | .char c => quotedChars '\'' [c]
  | .string s => quotedChars '"' s.toList
  | .classRef c => c.render.toList ++ ".class".toList
  | .enum e => e.render.toList
  | .nested a => Annotation.chars a
  | .array vs => '{' :: commaSeparated (elementsChars vs) ++ ['}']

/-- The texts of several values. -/
def elementsChars : List Value → List (List Char)
  | [] => []
  | v :: vs => v.chars :: elementsChars vs

/-- The text of an annotation: its pairs always stand in parentheses. -/
def Annotation.chars : Annotation → List Char
  | ⟨typeName, elements⟩ =>
    '@' :: typeName.toList ++ '(' :: commaSeparated (namedChars elements) ++ [')']

/-- The texts of several elements with their names. -/
def namedChars : List (String × Value) → List (List Char)
  | [] => []
  | (name, v) :: es => (name.toList ++ '=' :: v.chars) :: namedChars es

end

/-- The text of a value. -/
def Value.render (v : Value) : String := String.ofList v.chars

/-- The text of an annotation. -/
def Annotation.render (a : Annotation) : String := String.ofList a.chars

end DocAnnotations
