import DocAnnotations.Json.Reader

/-!
# Occurrences

An occurrence is a literal found in source, with the member of a class that it stands at.

**Members.**  Members are ordered: the class itself, then fields, then methods, by name and
descriptor.  A `Target` is a class with a member, and is what attributes are for.

**Documents.**  An occurrence is read from an object, and so is its member, whose kind decides which
members of the object it has.  A text and a tree are read alike.
-/

namespace DocAnnotations

open Json

/-- What an annotation is attached to. -/
inductive Member where
  | wholeClass
  | field (name : String)
  | method (name descriptor : String)
deriving DecidableEq, Inhabited

namespace Member

/-- The member as messages name it. -/
def render : Member → String
  | wholeClass => "<class>"
  | field name => name
  | method name descriptor => name ++ descriptor

/-- The order of the members of a class. -/
def compare : Member → Member → Ordering
  | wholeClass, wholeClass => .eq
  | wholeClass, _ => .lt
  | field _, wholeClass => .gt
  | field a, field b => Ord.compare a b
  | field _, method .. => .lt
  | method a d, method b e => (Ord.compare a b).then (Ord.compare d e)
  | method .., _ => .gt

/-- The document of a member. -/
def toJson : Member → Json
  | wholeClass => .object [("kind", .string "class")]
  | field name => .object [("kind", .string "field"), ("name", .string name)]
  | method name descriptor =>
    .object [("kind", .string "method"), ("name", .string name),
      ("descriptor", .string descriptor)]

end Member

/-- A member of a class. -/
structure Target where
  className : String
  member : Member
deriving DecidableEq, Inhabited

/-- Targets are ordered by class, then by member. -/
def Target.compare (a b : Target) : Ordering :=
  (Ord.compare a.className b.className).then (a.member.compare b.member)

/-- A literal found in source. -/
structure Occurrence where
  className : String
  file : String
  line : Nat
  member : Member
  literal : String
deriving DecidableEq, Inhabited

/-- The member of a class at which the literal stands. -/
def Occurrence.target (o : Occurrence) : Target := ⟨o.className, o.member⟩

/-! ## Documents -/

/-- The kinds of member. -/
def memberKinds : List String := ["class", "field", "method"]

/-- The kind of a member. -/
def memberKind : Decoder String := Decoder.scalar fun j => match j with
  | .string kind =>
    if memberKinds.contains kind then .ok kind else fail (.unknownVariant kind memberKinds)
  | j => unexpected "variant identifier" j

/-- What stands beside the kind in the document of a member: nothing for a class, the name of a
field, the name and descriptor of a method. -/
def memberRecord (kind : String) : Record (Option String × Option String) Member :=
  let name : String × (Option String × Option String → Decoder (Option String × Option String)) :=
    ("name", fun (_, d) => Decoder.string.map fun s => (some s, d))
  { start := (none, none)
    title := match kind with
      | "field" => "struct variant MemberRef::Field"
      | _ => "struct variant MemberRef::Method"
    fields := match kind with
      | "class" => []
      | "field" => [name]
      | _ => [name, ("descriptor", fun (n, _) => Decoder.string.map fun s => (n, some s))]
    finish := fun (name, descriptor) => match kind with
      | "class" => return .wholeClass
      | "field" => return .field (← required "name" name)
      | _ => return .method (← required "name" name) (← required "descriptor" descriptor) }

/-- The member of a kind, given what stands beside the kind.  Its faults are reported at the
member. -/
def Member.ofKind (kind : String) (j : Json) : Decoded Member :=
  atWhole <| (memberRecord kind).ofTree
    (fun fields surplus =>
      .invalidLength (fields + surplus) (countedElements fields ++ " in sequence")) j

/-- The member of the kind that was found, if one was. -/
def Member.ofKind? (kind : Option String) (j : Json) : Decoded Member :=
  match kind with
  | some kind => Member.ofKind kind j
  | none => fail (.missingField "kind")

/-- The fault of a document that cannot be that of a member. -/
def unexpectedMember {α : Type} (j : Json) : Decoded α :=
  unexpected "internally tagged enum MemberRef" j

/-- The kind among the members of an object, behind the kind already met. -/
def findMemberKind : Option String → List (String × Json) → Decoded (Option String)
  | found, [] => .ok found
  | found, (name, j) :: members =>
    if name ≠ "kind" then findMemberKind found members
    else if found.isSome then fail (.duplicateField "kind")
    else
      match under (.key "kind") (memberKind.ofTree j) with
      | .ok kind => findMemberKind (some kind) members
      | .error e => .error e

/-- Decodes the tree of a member: an object, or a list that starts with the kind. -/
def memberOfTree : Json → Decoded Member
  | .object members => do Member.ofKind? (← findMemberKind none members) (.object members)
  | .array [] => Member.ofKind? none (.array [])
  | .array (first :: items) => do
    Member.ofKind (← under (.index 0) (memberKind.ofTree first)) (.array items)
  | j => unexpectedMember j

/-- The kind of a member as far as it was met, and what else was read, the last of it first. -/
abbrev KindAnd (α : Type) := Option String × List α

/-- Reads one part of the object of a member. -/
def readMemberPart (depth : Nat) (state : KindAnd (String × Json)) (name : String)
    (cs : List Char) : Decoded (KindAnd (String × Json) × List Char) := do
  let (kind, found) := state
  if name ≠ "kind" then
    let (j, rest) ← under (.key name) (Json.tree.ofText depth (← ofAttempt (skipColon cs)))
    return ((kind, (name, j) :: found), rest)
  else if kind.isSome then fail (.duplicateField "kind")
  else
    let (kind, rest) ← under (.key name) (memberKind.ofText depth (← ofAttempt (skipColon cs)))
    return ((some kind, found), rest)

/-- Reads one item of the list of a member; the first is the kind. -/
def readMemberItem (depth : Nat) (state : KindAnd Json) (cs : List Char) :
    Decoded (KindAnd Json × List Char) := do
  match state with
  | (none, found) =>
    let (kind, rest) ← memberKind.ofText depth cs
    return ((some kind, found), rest)
  | (some kind, found) =>
    let (j, rest) ← Json.tree.ofText depth cs
    return ((some kind, j :: found), rest)

/-- Decodes the text of a member: an object, or a list that starts with the kind.  What stands
beside the kind is set aside until all of it is read. -/
def memberOfText (depth : Nat) (cs : List Char) : Decoded (Member × List Char) :=
  match skipSpace cs with
  | '\x7b' :: rest => Decoder.opened depth (fun depth rest => do
      let ((kind, found), rest) ← foldMembers (readMemberPart depth) rest true (none, []) rest
      return (← Member.ofKind? kind (.object found.reverse), rest)) rest
  | '[' :: rest => Decoder.opened depth (fun depth rest => do
      let ((kind, found), rest) ← foldItems (readMemberItem depth) rest 0 (none, []) rest
      return (← Member.ofKind? kind (.array found.reverse), rest)) rest
  | cs => Decoder.mismatch unexpectedMember depth cs

/-- How members are written: the kind says which other fields there are. -/
def Member.decoder : Decoder Member := ⟨memberOfTree, memberOfText⟩

/-- A line number, which has 32 bits. -/
def lineNumber : Decoder Nat := Decoder.scalar fun j => match j with
  | .integer n =>
    if 0 ≤ n && n < UInt32.size then .ok n.toNat
    else fail (.invalidValue (Json.integer n).describe "u32")
  | j => unexpected "u32" j

/-- What was gathered of an occurrence. -/
structure PartialOccurrence where
  className : Option String := none
  file : Option String := none
  line : Option Nat := none
  member : Member := .wholeClass
  literal : Option String := none

/-- How occurrences are written; one without a member stands at the class itself. -/
def Occurrence.decoder : Decoder Occurrence :=
  Record.decoder
    { title := "struct Occurrence"
      start := ({} : PartialOccurrence)
      fields :=
        [("class_name", fun o => Decoder.string.map fun s => { o with className := some s }),
          ("file", fun o => Decoder.string.map fun s => { o with file := some s }),
          ("line", fun o => lineNumber.map fun n => { o with line := some n }),
          ("member", fun o => Member.decoder.map fun m => { o with member := m }),
          ("literal", fun o => Decoder.string.map fun s => { o with literal := some s })]
      finish := fun o => do
        let className ← required "class_name" o.className
        let file ← required "file" o.file
        let line ← required "line" o.line
        let literal ← required "literal" o.literal
        return { className, file, line, member := o.member, literal } }

/-- The document of an occurrence. -/
def Occurrence.toJson (o : Occurrence) : Json :=
  .object [("class_name", .string o.className), ("file", .string o.file),
    ("line", .integer o.line), ("member", o.member.toJson), ("literal", .string o.literal)]

end DocAnnotations
