import DocAnnotations.Json.Decoder

/-!
# Reading a document as a tree

`Json.tree` decodes any document to itself.
-/

namespace DocAnnotations.Json

/-- Reads the document at the front of a text; `item` reads the documents in a list or object, and
without it no list or object may be opened. -/
def readWith (item : Option (List Char → Decoded (Json × List Char))) (cs : List Char) :
    Decoded (Json × List Char) :=
  match skipSpace cs, item with
  | '[' :: rest, some item => do
    let step (found : List Json) (cs : List Char) : Decoded (List Json × List Char) := do
      let (j, rest) ← item cs
      return (j :: found, rest)
    let (found, rest) ← foldItems step rest 0 [] rest
    return (.array found.reverse, rest)
  | '\x7b' :: rest, some item => do
    let step (found : List (String × Json)) (name : String) (cs : List Char) :
        Decoded (List (String × Json) × List Char) := do
      let (j, rest) ← under (.key name) (item (← ofAttempt (skipColon cs)))
      return ((name, j) :: found, rest)
    let (found, rest) ← foldMembers step rest true [] rest
    return (.object found.reverse, rest)
  | '[' :: _, none => fail (.broken .tooDeep)
  | '\x7b' :: _, none => fail (.broken .tooDeep)
  | cs, _ => ofAttempt (readScalar cs)

/-- Reads the document at the front of a text in which the given number of lists and objects may be
open. -/
def readTree : Nat → List Char → Decoded (Json × List Char)
  | 0 => readWith none
  | depth + 1 => readWith (some (readTree depth))

/-- Any document, as it is. -/
def tree : Decoder Json where
  ofTree := .ok
  ofText := readTree

/-- The document at the front of a text, if there is one. -/
def ofString? (text : String) : Option Json := (tree.ofString text).toOption

end DocAnnotations.Json
