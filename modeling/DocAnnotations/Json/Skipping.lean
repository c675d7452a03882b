import DocAnnotations.Json.Scalar

/-!
# Skipping a document

A document without a meaning is passed over without building it, however deeply it is nested.  The
brackets that are open are kept on a stack, so a comma is only known to be followed by an item:
where none follows, the missing item is the fault.
-/

namespace DocAnnotations.Json

/-- The bracket of a list or of an object. -/
inductive Bracket where
  | list
  | object
deriving DecidableEq

namespace Bracket

/-- The closing bracket. -/
def closing : Bracket → Char
  | list => ']'
  | object => '\x7d'

/-- The fault of a text that ends between the brackets. -/
def unclosed : Bracket → JsonFault
  | list => .endInList
  | object => .endInObject

/-- The fault of a text that has neither comma nor closing bracket behind an item. -/
def expectedCommaOrEnd : Bracket → JsonFault
  | list => .expectedListCommaOrEnd
  | object => .expectedObjectCommaOrEnd

end Bracket

/-- The text behind the colon at its front. -/
def skipColon (cs : List Char) : Attempt (List Char) :=
  match skipSpace cs with
  | [] => .error .endInObject
  | ':' :: rest => .ok rest
  | _ => .error .expectedColon

/-- The text at the next item: in an object, behind the name and its colon. -/
def skipToItem : Bracket → List Char → Attempt (List Char)
  | .list, cs => .ok cs
  | .object, cs =>
    match skipSpace cs with
    | [] => .error .endInObject
    | '"' :: rest => do skipColon (← skipChars 0 rest)
    | _ => .error .keyNotString

/-- Goes on behind an item, given the open brackets, the innermost first: to the next item, or out
of all brackets that close here.  Gives the brackets that stay open. -/
def skipClosings : List Bracket → List Char → Attempt (List Bracket × List Char)
  | [], cs => .ok ([], cs)
  | bracket :: outer, cs =>
    match skipSpace cs with
    | [] => .error bracket.unclosed
    | c :: rest =>
      if c = ',' then (skipToItem bracket rest).map fun rest => (bracket :: outer, rest)
      else if c = bracket.closing then skipClosings outer rest
      else .error bracket.expectedCommaOrEnd

/-- Goes on behind the opening bracket of a list or object: to its first item, or out of it. -/
def skipOpening (bracket : Bracket) (outer : List Bracket) (cs : List Char) :
    Attempt (List Bracket × List Char) :=
  match skipSpace cs with
  | [] => .error bracket.unclosed
  | c :: rest =>
    if c = bracket.closing then skipClosings outer rest
    else (skipToItem bracket (c :: rest)).map fun rest => (bracket :: outer, rest)

/-- Goes on to the item behind the one at the front, or out of all brackets. -/
def skipItem (outer : List Bracket) (cs : List Char) :
    Attempt (List Bracket × List Char) :=
  match skipSpace cs with
  | '[' :: rest => skipOpening .list outer rest
  | '\x7b' :: rest => skipOpening .object outer rest
  | rest => do skipClosings outer (← skipScalar rest)

/-- Skips items until all brackets are closed.  An item takes at least one character, so the text
`clock` bounds their number. -/
def skipItems : (clock : List Char) → List Bracket → List Char → Attempt (List Char)
  | [], _, _ => .error .endInValue
  | _ :: clock, outer, cs =>
    match skipItem outer cs with
    | .error fault => .error fault
    | .ok ([], rest) => .ok rest
    | .ok (outer, rest) => skipItems clock outer rest

/-- The text behind the document at its front. -/
def skipDocument (cs : List Char) : Attempt (List Char) := skipItems (' ' :: cs) [] cs

end DocAnnotations.Json
