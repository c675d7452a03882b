import DocAnnotations.Descriptor

/-!
# Class literals and enum constants

A class literal is a class name with a pair of brackets for each array dimension, and `.class`,
which may be left out.  An enum constant is the name of its enum, qualified or simple, a dot and the
constant.
-/

namespace DocAnnotations

open Text

/-- A reversed text behind the reversed pairs of brackets at its front, and how many there are. -/
def dropBrackets : (count : Nat) → List Char → Nat × List Char
  | count, ']' :: '[' :: cs => dropBrackets (count + 1) cs
  | count, cs => (count, cs)

/-- The name and dimensions that a class literal says, if its form is right.  There are no arrays
of `void`. -/
def classLiteral? (cs : List Char) : Option ClassRef :=
  let body := (dropEnd? ".class".toList cs).getD cs
  let (dimensions, reversed) := dropBrackets 0 body.reverse
  let base := reversed.reverse
  if maxDimensions < dimensions || base.isEmpty || base.contains '[' || base.contains ']' then none
  else
    let name := String.ofList base
    if name = "void" && 0 < dimensions then none else some ⟨name, dimensions⟩

/-- The type name and constant of an enum constant. -/
def enumLiteral? (cs : List Char) : Option EnumRef :=
  (splitLast? '.' cs).map fun (typeName, constant) =>
    ⟨String.ofList typeName, String.ofList constant⟩

end DocAnnotations
