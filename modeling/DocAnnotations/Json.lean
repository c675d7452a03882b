import DocAnnotations.Decimal.Layout
import DocAnnotations.Text.Printable

/-!
# Documents

A document is a tree of lists and objects whose members keep their order.  Whole numbers are
integers; other numbers keep their text.

Trees are written compactly on one line, or spread over lines with two blanks for each level.
-/

namespace DocAnnotations

open Text

/-- A document. -/
inductive Json where
  | null
  | bool (value : Bool)
  | integer (value : Int)
  /-- A number with a point or an exponent, or too large to count as whole, as it is written. -/
  | decimal (text : List Char)
  | string (value : String)
  | array (items : List Json)
  | object (members : List (String × Json))

instance : Inhabited Json := ⟨.null⟩

namespace Json

/-! ## Access -/

/-- The first member of an object with the given name. -/
def member? (name : String) : Json → Option Json
  | object members => members.lookup name
  | _ => none

/-! ## Writing -/

/-- A character of a quoted text; quotes, backslashes and the characters below the blank are
escaped. -/
def escapedChar (c : Char) : List Char :=
  if c = '"' then ['\\', '"']
  else if c = '\\' then ['\\', '\\']
  else if c = '\x08' then ['\\', 'b']
  else if c = '\t' then ['\\', 't']
  else if c = '\n' then ['\\', 'n']
  else if c = '\x0c' then ['\\', 'f']
  else if c = '\r' then ['\\', 'r']
  else if c.toNat < 0x20 then '\\' :: 'u' :: (hexPadded 4 c.toNat).toList
  else [c]

/-- A quoted text. -/
def stringChars (s : String) : List Char := '"' :: s.toList.flatMap escapedChar ++ ['"']

/-- A whole number. -/
def integerChars (n : Int) : List Char :=
  if n < 0 then '-' :: Nat.toDigits 10 n.natAbs else Nat.toDigits 10 n.natAbs

mutual

/-- The text of a document on one line. -/
def compactChars : Json → List Char
  | null => "null".toList
  | bool value => (if value then "true" else "false").toList
  | integer value => integerChars value
  | decimal text => text
  | string value => stringChars value
  | array items => '[' :: List.intercalate [','] (itemsChars items) ++ [']']
  | object members => '{' :: List.intercalate [','] (membersChars members) ++ ['}']

/-- The texts of several documents. -/
def itemsChars : List Json → List (List Char)
  | [] => []
  | j :: js => j.compactChars :: itemsChars js

/-- The texts of several members. -/
def membersChars : List (String × Json) → List (List Char)
  | [] => []
  | (name, j) :: ms => (stringChars name ++ ':' :: j.compactChars) :: membersChars ms

end

/-- The text of a document on one line. -/
def compact (j : Json) : String := String.ofList j.compactChars

/-- A line end and the blanks of a level. -/
def newLine (level : Nat) : List Char := '\n' :: List.replicate (2 * level) ' '

/-- A bracketed list, one item to a line. -/
def spread (left right : Char) (level : Nat) (items : List (List Char)) : List Char :=
  if items.isEmpty then [left, right]
  else
    left :: newLine (level + 1) ++ List.intercalate (',' :: newLine (level + 1)) items
      ++ newLine level ++ [right]

mutual

/-- The text of a document over several lines, at the given level. -/
def prettyChars (level : Nat) : Json → List Char
  | null => "null".toList
  | bool value => (if value then "true" else "false").toList
  | integer value => integerChars value
  | decimal text => text
  | string value => stringChars value
  | array items => spread '[' ']' level (prettyItems (level + 1) items)
  | object members => spread '{' '}' level (prettyMembers (level + 1) members)

/-- The texts of several documents. -/
def prettyItems (level : Nat) : List Json → List (List Char)
  | [] => []
  | j :: js => j.prettyChars level :: prettyItems level js

/-- The texts of several members. -/
def prettyMembers (level : Nat) : List (String × Json) → List (List Char)
  | [] => []
  | (name, j) :: ms =>
    (stringChars name ++ ": ".toList ++ j.prettyChars level) :: prettyMembers level ms

end

/-- The text of a document over several lines. -/
def pretty (j : Json) : String := String.ofList (j.prettyChars 0)

/-! ## Floating numbers -/

/-- Numbers of 64 bits are positional from `10 ^ -5` up to below `10 ^ 16`, every exponent has a
sign, and of two equally close shortest decimals the even one is written. -/
def doubleLayout : Decimal.Layout := ⟨-5, 16, true, .toEven⟩

/-- Numbers of 32 bits are positional from `10 ^ -6` up to below `10 ^ 13`. -/
def singleLayout : Decimal.Layout := ⟨-6, 13, true, .toEven⟩

/-- A floating value as a document: its shortest decimal, or null where it is no finite number. -/
def ofFloating (layout : Decimal.Layout) (f : Decimal.BinaryFormat) (bits : Nat) : Json :=
  if f.isNaN bits || f.isInfinite bits then null else decimal (layout.finite f bits)

/-- A value of 32 bits as a document. -/
def ofSingle (bits : Nat) : Json := ofFloating singleLayout Decimal.single bits

/-- A value of 64 bits as a document. -/
def ofDouble (bits : Nat) : Json := ofFloating doubleLayout Decimal.double bits

/-! ## Order -/

mutual

/-- The document with the members of every object in the order of their names. -/
def sorted : Json → Json
  | array items => array (sortedItems items)
  | object members =>
    object ((sortedMembers members).mergeSort fun a b => a.1 < b.1 || a.1 = b.1)
  | null => null
  | bool value => bool value
  | integer value => integer value
  | decimal text => decimal text
  | string value => string value

/-- Several documents, each with its members in order. -/
def sortedItems : List Json → List Json
  | [] => []
  | j :: js => j.sorted :: sortedItems js

/-- Several members, each with the members of its document in order. -/
def sortedMembers : List (String × Json) → List (String × Json)
  | [] => []
  | (name, j) :: ms => (name, j.sorted) :: sortedMembers ms

end

end Json

end DocAnnotations
