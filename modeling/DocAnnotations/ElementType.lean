import DocAnnotations.Text.Affix

/-!
# Element types and references to types

An annotation interface declares each element with an `ElementType`: a primitive type, a text, a
class, an enum or an annotation by name, or an array of one of these.

Values refer to classes and enum constants by name, with `ClassRef` and `EnumRef`.  A class may be
an array type, with a number of dimensions over a class or a primitive type.

Names are qualified with dots; in type descriptors slashes take their place.
-/

namespace DocAnnotations

open Text

/-- The declared type of an annotation element. -/
inductive ElementType where
  | byte
  | short
  | int
  | long
  | float
  | double
  | boolean
  | char
  | string
  | classRef
  /-- An enum type, by qualified name. -/
  | enum (name : String)
  /-- Another annotation interface, by qualified name. -/
  | interface (name : String)
  | array (element : ElementType)
deriving DecidableEq, Inhabited

namespace ElementType

/-- Whether the type is an array type. -/
def isArray : ElementType → Bool
  | array _ => true
  | _ => false

/-- The annotation interface that the type refers to, looking through arrays. -/
def referenced? : ElementType → Option String
  | interface name => some name
  | array element => element.referenced?
  | _ => none

/-- The type as messages name it. -/
def render : ElementType → String
  | byte => "byte"
  | short => "short"
  | int => "int"
  | long => "long"
  | float => "float"
  | double => "double"
  | boolean => "boolean"
  | char => "char"
  | string => "java.lang.String"
  | classRef => "java.lang.Class"
  | enum name => name
  | interface name => name
  | array element => element.render ++ "[]"

end ElementType

/-- The descriptor letters of the primitive types and of `void`. -/
def primitiveLetters : List (String × Char) :=
  [("boolean", 'Z'), ("byte", 'B'), ("char", 'C'), ("short", 'S'), ("int", 'I'), ("long", 'J'),
   ("float", 'F'), ("double", 'D'), ("void", 'V')]

/-- Whether a name is a primitive keyword; `void` counts as one. -/
def isPrimitiveName (name : String) : Bool := primitiveLetters.any fun p => p.1 == name

/-- The descriptor of a class: `L`, the name with slashes for dots, and a semicolon. -/
def objectDescriptor (name : String) : String :=
  String.ofList ('L' :: name.toList.map (fun c => if c == '.' then '/' else c) ++ [';'])

/-- A class: a qualified name or primitive keyword, and the dimensions of an array of it. -/
structure ClassRef where
  name : String
  dimensions : Nat
deriving DecidableEq, Inhabited

namespace ClassRef

/-- Whether the base type is a primitive keyword. -/
def isPrimitive (c : ClassRef) : Bool := isPrimitiveName c.name

/-- The type descriptor: one bracket for each dimension, then a letter or an object. -/
def descriptor (c : ClassRef) : String :=
  let base := match primitiveLetters.lookup c.name with
    | some letter => letter.toString
    | none => objectDescriptor c.name
  String.ofList (List.replicate c.dimensions '[') ++ base

/-- The class as source names it. -/
def render (c : ClassRef) : String :=
  c.name ++ String.ofList (List.replicate c.dimensions ['[', ']']).flatten

end ClassRef

/-- A constant of an enum type. -/
structure EnumRef where
  typeName : String
  constant : String
deriving DecidableEq, Inhabited

/-- The constant as source names it. -/
def EnumRef.render (e : EnumRef) : String := e.typeName ++ "." ++ e.constant

end DocAnnotations
