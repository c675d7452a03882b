import DocAnnotations.ElementType

/-!
# Resolved values

A `Value` has a kind of its own and needs no declared type to be read.  Floating values are bit
patterns.

**Kinds and types.**  `Value.conforms` says whether a value is of a declared type; of an annotation
inside only the name is looked at.

**Elements by name.**  An `Annotation` is the name of an interface and the values of its elements,
in the order of the element names and without repetition; `Annotation.insert` and
`Annotation.ofPairs` keep that order.  `Annotation.insertNew` leaves a value alone that is there
already.
-/

namespace DocAnnotations

open Text

mutual

/-- The value of an element. -/
inductive Value where
  | byte (value : Int8)
  | short (value : Int16)
  | int (value : Int32)
  | long (value : Int64)
  /-- A 32-bit pattern. -/
  | float (bits : UInt32)
  /-- A 64-bit pattern. -/
  | double (bits : UInt64)
  | boolean (value : Bool)
  /-- One character; only those of the basic plane can be stored. -/
  | char (value : Char)
  | string (value : String)
  | classRef (value : ClassRef)
  | enum (value : EnumRef)
  | nested (value : Annotation)
  | array (values : List Value)

/-- An interface name and the values of its elements in name order. -/
structure Annotation where
  typeName : String
  elements : List (String × Value)

end

instance : Inhabited Value := ⟨.boolean false⟩

instance : Inhabited Annotation := ⟨⟨"", []⟩⟩

/-! ## Kinds and types -/

/-- The word by which messages name a value: its type, read off the value.  An array is named after
its first element. -/
def Value.kindName : Value → String
  | .byte _ => "byte"
  | .short _ => "short"
  | .int _ => "int"
  | .long _ => "long"
  | .float _ => "float"
  | .double _ => "double"
  | .boolean _ => "boolean"
  | .char _ => "char"
  | .string _ => "java.lang.String"
  | .classRef _ => "java.lang.Class"
  | .enum e => e.typeName
  | .nested a => a.typeName
  | .array [] => "array type"
  | .array (v :: _) => v.kindName ++ "[]"

mutual

/-- Whether a value may stand for an element of the given type.  Enum constants and annotations
must have exactly the declared type name; what is inside an annotation is not looked at. -/
def Value.conforms : Value → ElementType → Bool
  | .byte _, .byte => true
  | .short _, .short => true
  | .int _, .int => true
  | .long _, .long => true
  | .float _, .float => true
  | .double _, .double => true
  | .boolean _, .boolean => true
  | .char _, .char => true
  | .string _, .string => true
  | .classRef _, .classRef => true
  | .enum e, .enum name => e.typeName == name
  | .nested a, .interface name => a.typeName == name
  | .array vs, .array element => allConform vs element
  | _, _ => false

/-- Whether all values may stand for elements of the given type. -/
def allConform : List Value → ElementType → Bool
  | [], _ => true
  | v :: vs, ty => v.conforms ty && allConform vs ty

end

/-! ## Elements by name -/

/-- The value of a name. -/
def lookupElement (name : String) : List (String × Value) → Option Value
  | [] => none
  | (n, v) :: es => if n = name then some v else lookupElement name es

/-- Sets the value of a name and keeps the names in order. -/
def insertElement (name : String) (value : Value) :
    List (String × Value) → List (String × Value)
  | [] => [(name, value)]
  | (n, v) :: es =>
    if name < n then (name, value) :: (n, v) :: es
    else if name = n then (name, value) :: es
    else (n, v) :: insertElement name value es

/-- Of neighbours with the same name, the last. -/
def keepLast : List (String × Value) → List (String × Value)
  | [] => []
  | [e] => [e]
  | e :: f :: es => if e.1 = f.1 then keepLast (f :: es) else e :: keepLast (f :: es)

namespace Annotation

/-- An annotation without elements. -/
def empty (typeName : String) : Annotation := ⟨typeName, []⟩

/-- The annotation with the given elements; of two with one name the later counts. -/
def ofPairs (typeName : String) (pairs : List (String × Value)) : Annotation :=
  ⟨typeName, keepLast (pairs.mergeSort fun a b => a.1 < b.1 || a.1 = b.1)⟩

/-- The value of an element. -/
def get? (a : Annotation) (name : String) : Option Value := lookupElement name a.elements

/-- Whether an element has a value. -/
def contains (a : Annotation) (name : String) : Bool := (a.get? name).isSome

/-- The annotation with the value of an element set. -/
def insert (a : Annotation) (name : String) (value : Value) : Annotation :=
  { a with elements := insertElement name value a.elements }

/-- The annotation with the value of an element set, unless it has one. -/
def insertNew (a : Annotation) (name : String) (value : Value) : Annotation :=
  if a.contains name then a else a.insert name value

/-- How many elements have a value. -/
def size (a : Annotation) : Nat := a.elements.length

/-- The last segment of the interface name. -/
def simpleName (a : Annotation) : String := Text.simpleName a.typeName

/-- Whether a qualified or simple name refers to the annotation. -/
def isNamed (a : Annotation) (name : String) : Bool :=
  a.typeName == name || a.simpleName == name

end Annotation

end DocAnnotations
