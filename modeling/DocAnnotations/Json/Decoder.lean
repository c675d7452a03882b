import DocAnnotations.Json.Skipping
import DocAnnotations.Text.Printable

/-!
# Decoding documents

A `Decoder` turns a document into a value or reports the first fault with the path to it.  It works
on a tree as well as on a text, which it decodes while reading, so that a fault of the text is only
met where the text is read at all.  Members are visited in their order; that a member is missing is
noticed behind the last one.  Members without a meaning are skipped.
-/

namespace DocAnnotations

open Text

namespace Json

/-! ## Faults -/

/-- One step from a document to a part of it. -/
inductive PathStep where
  | key (name : String)
  | index (position : Nat)
  /-- To a member of which no name was found. -/
  | nameless
deriving DecidableEq

/-- What is wrong with a document. -/
inductive DecodeFault where
  | broken (fault : JsonFault)
  | invalidType (found expected : String)
  | invalidValue (found expected : String)
  | invalidLength (length : Nat) (expected : String)
  | missingField (name : String)
  | duplicateField (name : String)
  | unknownVariant (name : String) (expected : List String)
deriving DecidableEq

/-- A text between the quotes that mark names in messages. -/
def marked (s : String) : String := "`" ++ s ++ "`"

/-- The text of the fault. -/
def DecodeFault.message : DecodeFault → String
  | broken fault => fault.message
  | invalidType found expected => s!"invalid type: {found}, expected {expected}"
  | invalidValue found expected => s!"invalid value: {found}, expected {expected}"
  | invalidLength length expected => s!"invalid length {length}, expected {expected}"
  | missingField name => "missing field " ++ marked name
  | duplicateField name => "duplicate field " ++ marked name
  | unknownVariant name expected =>
    "unknown variant " ++ marked name ++ ", expected one of "
      ++ String.intercalate ", " (expected.map marked)

/-- A fault and the path to it. -/
structure DecodeError where
  path : List PathStep
  fault : DecodeFault
deriving DecidableEq

/-- The text of a step at the front of a path. -/
def PathStep.render : PathStep → String
  | key name => name
  | index position => s!"[{position}]"
  | nameless => "?"

/-- The text of a step behind others: names stand behind dots. -/
def PathStep.renderBehind : PathStep → String
  | index position => (index position).render
  | step => "." ++ step.render

/-- The text of a path; the path to the whole document is a dot. -/
def renderPath : List PathStep → String
  | [] => "."
  | step :: path => step.render ++ String.join (path.map PathStep.renderBehind)

/-- The result of decoding. -/
abbrev Decoded := Except DecodeError

/-- A fault of the document itself. -/
def fail {α : Type} (fault : DecodeFault) : Decoded α := .error ⟨[], fault⟩

/-- The result for a part, as a result for the whole. -/
def under {α : Type} (step : PathStep) : Decoded α → Decoded α
  | .ok a => .ok a
  | .error e => .error { e with path := step :: e.path }

/-- A result whose fault is reported at the whole, wherever it was found. -/
def atWhole {α : Type} : Decoded α → Decoded α
  | .ok a => .ok a
  | .error e => fail e.fault

/-- A part of the text of the document itself. -/
def ofAttempt {α : Type} : Attempt α → Decoded α
  | .ok a => .ok a
  | .error fault => fail (.broken fault)

/-- A document as messages name it. -/
def describe : Json → String
  | null => "null"
  | bool value => "boolean " ++ marked (if value then "true" else "false")
  | integer value => "integer " ++ marked (String.ofList (integerChars value))
  | decimal text =>
    let shown := match splitNumber text with
      | .ok (parts, _) =>
        let bits := Decimal.double.withSign parts.negative (parts.magnitude?.getD 0)
        doubleLayout.finite Decimal.double bits
      | .error _ => text
    "floating point " ++ marked (String.ofList shown)
  | string value => "string " ++ shownBetweenQuotes value
  | array _ => "sequence"
  | object _ => "map"

/-- The fault of a document that is not of the expected kind. -/
def unexpected {α : Type} (expected : String) (j : Json) : Decoded α :=
  fail (.invalidType j.describe expected)

/-! ## Lists and objects in a text -/

/-- Where a list or object goes on: at the next item, or behind its closing bracket. -/
inductive Continuation where
  | more (rest : List Char)
  | done (rest : List Char)

/-- How a list goes on behind its opening bracket or behind an item. -/
def nextItem (first : Bool) (cs : List Char) : Attempt Continuation :=
  match skipSpace cs with
  | [] => .error .endInList
  | ']' :: rest => .ok (.done rest)
  | c :: rest =>
    if first then .ok (.more (c :: rest))
    else if c = ',' then
      match skipSpace rest with
      | [] => .error .endInValue
      | ']' :: _ => .error .trailingComma
      | rest => .ok (.more rest)
    else .error .expectedListCommaOrEnd

/-- How an object goes on behind its opening brace or behind a member: behind the opening quote of
a name, or behind the closing brace. -/
def nextMember (first : Bool) (cs : List Char) : Attempt Continuation :=
  match skipSpace cs with
  | [] => .error .endInObject
  | '\x7d' :: rest => .ok (.done rest)
  | c :: rest =>
    if first then if c = '"' then .ok (.more rest) else .error .keyNotString
    else if c = ',' then
      match skipSpace rest with
      | [] => .error .endInValue
      | '"' :: rest => .ok (.more rest)
      | '\x7d' :: _ => .error .trailingComma
      | _ => .error .keyNotString
    else .error .expectedObjectCommaOrEnd

/-- Reads a list from the item at a position on, changing a state at each item.  An item takes at
least one character, so the text `clock` bounds their number. -/
def foldItems {σ : Type} (step : σ → List Char → Decoded (σ × List Char)) :
    (clock : List Char) → (position : Nat) → σ → List Char → Decoded (σ × List Char)
  | [], _, _, _ => fail (.broken .endInList)
  | _ :: clock, position, s, cs =>
    match nextItem (position == 0) cs with
    | .error fault => fail (.broken fault)
    | .ok (.done rest) => .ok (s, rest)
    | .ok (.more rest) =>
      match under (.index position) (step s rest) with
      | .ok (s, rest) => foldItems step clock (position + 1) s rest
      | .error e => .error e

/-- The name of a member behind its opening quote. -/
def readName (cs : List Char) : Attempt (String × List Char) := readChars 0 [] cs

/-- Reads an object on, changing a state at each member.  A step is given the name of the member
and the text behind it. -/
def foldMembers {σ : Type} (step : σ → String → List Char → Decoded (σ × List Char)) :
    (clock : List Char) → (first : Bool) → σ → List Char → Decoded (σ × List Char)
  | [], _, _, _ => under .nameless (fail (.broken .endInObject))
  | _ :: clock, first, s, cs =>
    match nextMember first cs with
    | .error fault => under .nameless (fail (.broken fault))
    | .ok (.done rest) => .ok (s, rest)
    | .ok (.more rest) =>
      match readName rest with
      | .error fault => under .nameless (fail (.broken fault))
      | .ok (name, rest) =>
        match step s name rest with
        | .ok (s, rest) => foldMembers step clock false s rest
        | .error e => .error e

/-! ## Decoders -/

/-- How to decode documents of a kind. -/
structure Decoder (α : Type) where
  ofTree : Json → Decoded α
  /-- Decodes the document at the front of a text in which the given number of lists and objects
  may still be opened. -/
  ofText : (depth : Nat) → List Char → Decoded (α × List Char)

/-- How many lists and objects may be open in a text. -/
def maxDepth : Nat := 127

namespace Decoder

variable {α β : Type}

/-- Decodes the document at the front of a text; what stands behind it is ignored. -/
def ofString (d : Decoder α) (text : String) : Decoded α :=
  (d.ofText maxDepth text.toList).map Prod.fst

/-- Decodes further. -/
def map (f : α → β) (d : Decoder α) : Decoder β where
  ofTree j := (d.ofTree j).map f
  ofText depth cs := (d.ofText depth cs).map fun (a, rest) => (f a, rest)

/-- A word, number or text.  Lists and objects are refused unread. -/
def scalar (accept : Json → Decoded α) : Decoder α where
  ofTree := accept
  ofText _ cs :=
    match skipSpace cs with
    | '[' :: rest => (accept (.array [])).map fun a => (a, rest)
    | '\x7b' :: rest => (accept (.object [])).map fun a => (a, rest)
    | cs => do
      let (j, rest) ← ofAttempt (readScalar cs)
      return (← accept j, rest)

/-- A text. -/
def string : Decoder String := scalar fun j => match j with
  | .string value => .ok value
  | j => unexpected "a string" j

/-- A text or null. -/
def optionalString : Decoder (Option String) := scalar fun j => match j with
  | .null => .ok none
  | j => (string.ofTree j).map some

/-- Items from a position on, added to those already decoded, the last of these first. -/
def itemsOfTree (item : Decoder α) : (position : Nat) → List α → List Json → Decoded (List α)
  | _, found, [] => .ok found.reverse
  | position, found, j :: js =>
    match under (.index position) (item.ofTree j) with
    | .ok a => itemsOfTree item (position + 1) (a :: found) js
    | .error e => .error e

/-- A document in a text that is opened by a bracket: what stands behind the bracket is decoded with
one nesting less. -/
def opened (depth : Nat) (read : (depth : Nat) → List Char → Decoded (α × List Char))
    (cs : List Char) : Decoded (α × List Char) :=
  match depth with
  | 0 => fail (.broken .tooDeep)
  | depth + 1 => read depth cs

/-- The fault of a text that is none of the kinds that a decoder knows. -/
def mismatch (accept : Json → Decoded α) (depth : Nat) (cs : List Char) :
    Decoded (α × List Char) :=
  (scalar accept).ofText depth cs

/-- A list. -/
def list (item : Decoder α) : Decoder (List α) where
  ofTree
    | .array items => itemsOfTree item 0 [] items
    | j => unexpected "a sequence" j
  ofText depth cs :=
    match skipSpace cs with
    | '[' :: rest => opened depth (fun depth rest => do
        let step (found : List α) (cs : List Char) : Decoded (List α × List Char) := do
          let (a, rest) ← item.ofText depth cs
          return (a :: found, rest)
        let (found, rest) ← foldItems step rest 0 [] rest
        return (found.reverse, rest)) rest
    | cs => mismatch (unexpected "a sequence") depth cs

end Decoder

/-! ## Records -/

/-- How to decode records: the words by which messages name them, and the decoders of their fields,
each of which adds a field to what was gathered before it. -/
structure Record (σ α : Type) where
  title : String
  fields : List (String × (σ → Decoder σ))
  start : σ
  /-- Takes what was gathered, or names the first missing field. -/
  finish : σ → Except String α

/-- A field that has to be there. -/
def required {α : Type} (name : String) : Option α → Except String α
  | some a => .ok a
  | none => .error name

/-- A number of elements in words. -/
def countedElements (count : Nat) : String :=
  if count = 1 then "1 element" else s!"{count} elements"

namespace Record

variable {σ α : Type} (r : Record σ α)

/-- The record that was gathered from members. -/
def ofMembers (s : σ) : Decoded α :=
  match r.finish s with
  | .ok a => .ok a
  | .error name => fail (.missingField name)

/-- The record that was gathered from a list; a missing field is named by its position. -/
def ofItems (s : σ) : Decoded α :=
  match r.finish s with
  | .ok a => .ok a
  | .error name =>
    fail (.invalidLength (r.fields.findIdx (·.1 == name))
      s!"{r.title} with {countedElements r.fields.length}")

/-! ### From a tree -/

/-- Gathers members; `seen` are the fields that were met. -/
def gatherMembers : (seen : List String) → σ → List (String × Json) → Decoded σ
  | _, s, [] => .ok s
  | seen, s, (name, j) :: members =>
    match r.fields.lookup name with
    | none => gatherMembers seen s members
    | some field =>
      if seen.contains name then fail (.duplicateField name)
      else
        match under (.key name) ((field s).ofTree j) with
        | .ok s => gatherMembers (name :: seen) s members
        | .error e => .error e

/-- Gathers items, each for the field at its position; `surplus` is the fault of items behind the
last field, given how many there are. -/
def gatherItems (surplus : Nat → DecodeFault) :
    (position : Nat) → List (String × (σ → Decoder σ)) → σ → List Json → Decoded σ
  | _, _, s, [] => .ok s
  | _, [], _, items => fail (surplus items.length)
  | position, (_, field) :: fields, s, j :: items =>
    match under (.index position) ((field s).ofTree j) with
    | .ok s => gatherItems surplus (position + 1) fields s items
    | .error e => .error e

/-- Decodes a tree: an object, or the list of the fields in their order. -/
def ofTree (surplus : (fields surplus : Nat) → DecodeFault) : Json → Decoded α
  | .object members => do r.ofMembers (← r.gatherMembers [] r.start members)
  | .array items => do
    r.ofItems (← gatherItems (surplus r.fields.length) 0 r.fields r.start items)
  | j => unexpected r.title j

/-! ### From a text -/

/-- Reads one member. -/
def readMember (depth : Nat) (state : List String × σ) (name : String) (cs : List Char) :
    Decoded ((List String × σ) × List Char) :=
  let (seen, s) := state
  match r.fields.lookup name with
  | none => do
    let rest ← under (.key name) (ofAttempt (skipDocument (← ofAttempt (skipColon cs))))
    return ((seen, s), rest)
  | some field =>
    if seen.contains name then fail (.duplicateField name)
    else do
      let (s, rest) ← under (.key name) ((field s).ofText depth (← ofAttempt (skipColon cs)))
      return ((name :: seen, s), rest)

/-- The closing bracket of a list of which all fields were read. -/
def closeItems (cs : List Char) : Attempt (List Char) :=
  match skipSpace cs with
  | [] => .error .endInList
  | ']' :: rest => .ok rest
  | ',' :: rest =>
    match skipSpace rest with
    | ']' :: _ => .error .trailingComma
    | _ => .error .trailingCharacters
  | _ => .error .trailingCharacters

/-- Reads items, each for the field at its position.  The list is not read beyond the last field. -/
def readItems (depth : Nat) :
    (position : Nat) → List (String × (σ → Decoder σ)) → σ → List Char → Decoded (σ × List Char)
  | _, [], s, cs => .ok (s, cs)
  | position, (_, field) :: fields, s, cs =>
    match nextItem (position == 0) cs with
    | .error fault => fail (.broken fault)
    | .ok (.done rest) => .ok (s, ']' :: rest)
    | .ok (.more rest) =>
      match under (.index position) ((field s).ofText depth rest) with
      | .ok (s, rest) => readItems depth (position + 1) fields s rest
      | .error e => .error e

/-- Decodes a text: an object, or the list of the fields in their order. -/
def ofText (depth : Nat) (cs : List Char) : Decoded (α × List Char) :=
  match skipSpace cs with
  | '\x7b' :: rest => Decoder.opened depth (fun depth rest => do
      let ((_, s), rest) ← foldMembers (r.readMember depth) rest true ([], r.start) rest
      return (← r.ofMembers s, rest)) rest
  | '[' :: rest => Decoder.opened depth (fun depth rest => do
      let (s, rest) ← readItems depth 0 r.fields r.start rest
      let a ← r.ofItems s
      return (a, ← ofAttempt (closeItems rest))) rest
  | cs => Decoder.mismatch (unexpected r.title) depth cs

/-- The decoder of the records. -/
def decoder : Decoder α where
  ofTree := r.ofTree fun fields surplus =>
    .invalidLength (fields + surplus) "fewer elements in array"
  ofText := r.ofText

end Record

end Json

end DocAnnotations
