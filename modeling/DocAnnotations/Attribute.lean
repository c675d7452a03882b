import DocAnnotations.Value

/-!
# The attribute format

A value is one tag byte and a payload; numbers are written with the highest byte first, and lengths
and counts take two bytes.  An annotation is its interface name and its elements, each a name and a
value, in the order of the names.  All annotations of one member form one attribute.

**Tags.**  Every kind of value has a tag, and no two kinds have the same (`Tag.ofByte?_toByte`).

**Limits.**  `nestingLimit` is how many arrays and annotations may be open at a time when an
attribute is read.  Writing knows no such limit.
-/

namespace DocAnnotations.Attribute

/-- The name of the attribute that holds the annotations of a member. -/
def attributeName : String := "org.codehaus.backport175.Annotations"

/-- How many arrays and annotations may be open while an attribute is read. -/
def nestingLimit : Nat := 256

/-- The kinds of value that have a tag. -/
inductive Tag where
  | byte
  | short
  | int
  | long
  | float
  | double
  | boolean
  | char
  | string
  | classRef
  | enum
  | nested
  | array
deriving DecidableEq

namespace Tag

/-- The byte of a tag. -/
def toByte : Tag → UInt8
  | byte => 0x42
  | short => 0x53
  | int => 0x49
  | long => 0x4a
  | float => 0x46
  | double => 0x44
  | boolean => 0x5a
  | char => 0x43
  | string => 0x73
  | classRef => 0x63
  | enum => 0x65
  | nested => 0x40
  | array => 0x5b

/-- All tags. -/
def all : List Tag :=
  [byte, short, int, long, float, double, boolean, char, string, classRef, enum, nested, array]

/-- The tag of a byte. -/
def ofByte? (b : UInt8) : Option Tag := all.find? fun t => t.toByte == b

theorem ofByte?_toByte (t : Tag) : ofByte? t.toByte = some t := by cases t <;> rfl

end Tag

/-- The lowest `width` bytes of a number, the highest of them first. -/
def bigEndian : (width n : Nat) → List UInt8
  | 0, _ => []
  | width + 1, n => UInt8.ofNat (n / Nat.pow 256 width) :: bigEndian width n

/-- The number that bytes stand for, the highest byte first. -/
def ofBigEndian (bytes : List UInt8) : Nat := bytes.foldl (fun n b => n * 256 + b.toNat) 0

end DocAnnotations.Attribute
