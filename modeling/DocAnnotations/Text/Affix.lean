/-!
# Ends of names

Names are dotted: the part behind the last dot is the simple name.  Class literals end in `.class`
and in pairs of brackets.  The functions here take such ends off.
-/

namespace DocAnnotations.Text

/-- The text before the given end, if the text has that end. -/
def dropEnd? (tail cs : List Char) : Option (List Char) :=
  if tail.isSuffixOf cs then some (cs.take (cs.length - tail.length)) else none

/-- The text after the given front, if the text has that front. -/
def dropFront? (front cs : List Char) : Option (List Char) :=
  if front.isPrefixOf cs then some (cs.drop front.length) else none

/-- The parts of a text before and after the last of the given characters, if there is one. -/
def splitLast? (mark : Char) : List Char → Option (List Char × List Char)
  | [] => none
  | c :: cs =>
    match splitLast? mark cs with
    | some (before, after) => some (c :: before, after)
    | none => if c == mark then some ([], cs) else none

/-- The last segment of a dotted name; the name itself where there is no dot. -/
def simpleName (name : String) : String :=
  match splitLast? '.' name.toList with
  | some (_, simple) => String.ofList simple
  | none => name

/-- Texts with a comma and a blank between any two. -/
def commaSeparated (parts : List (List Char)) : List Char := List.intercalate [',', ' '] parts

end DocAnnotations.Text
