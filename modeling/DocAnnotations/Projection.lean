import DocAnnotations.TypeLookup
import DocAnnotations.Value

/-!
# Annotations seen through their interface

A `Projection` pairs an annotation with the interface that it belongs to.  Only declared elements
can be read.

**Accessors.**  Each element is read by an `Accessor`, which names the kind of value that the reader
wants and determines the type of the answer; one accessor reads exactly the values of one type
(`Accessor.toValue`).

**The annotations of a member.**  Several annotations are searched by the name of an interface,
qualified or simple, and the one that is found is projected.
-/

namespace DocAnnotations

/-! ## Accessors -/

/-- The kinds of value that an element can be read as. -/
inductive Accessor where
  | byte
  | short
  | int
  | long
  | float
  | double
  | boolean
  | char
  | string
  | classRef
  | enum
  | nested
  | list (item : Accessor)
deriving DecidableEq, Inhabited

namespace Accessor

/-- The type of what an accessor reads; floating values are read as bit patterns. -/
abbrev Carrier : Accessor → Type
  | byte => Int8
  | short => Int16
  | int => Int32
  | long => Int64
  | float => UInt32
  | double => UInt64
  | boolean => Bool
  | char => Char
  | string => String
  | classRef => ClassRef
  | enum => EnumRef
  | nested => Annotation
  | list item => List item.Carrier

/-- The accessor as messages name it. -/
def render : Accessor → String
  | byte => "byte"
  | short => "short"
  | int => "int"
  | long => "long"
  | float => "float"
  | double => "double"
  | boolean => "boolean"
  | char => "char"
  | string => "java.lang.String"
  | classRef => "java.lang.Class"
  | enum => "enum"
  | nested => "annotation"
  | list item => item.render ++ "[]"

/-- Reads a value of exactly the kind of the accessor; a list is read if each of its items is. -/
def read? : (a : Accessor) → Value → Option a.Carrier
  | byte, .byte v => some v
  | short, .short v => some v
  | int, .int v => some v
  | long, .long v => some v
  | float, .float v => some v
  | double, .double v => some v
  | boolean, .boolean v => some v
  | char, .char v => some v
  | string, .string v => some v
  | classRef, .classRef v => some v
  | enum, .enum v => some v
  | nested, .nested v => some v
  | list item, .array vs => vs.mapM item.read?
  | _, _ => none

/-- The value that an accessor has read. -/
def toValue : (a : Accessor) → a.Carrier → Value
  | byte, v => .byte v
  | short, v => .short v
  | int, v => .int v
  | long, v => .long v
  | float, v => .float v
  | double, v => .double v
  | boolean, v => .boolean v
  | char, v => .char v
  | string, v => .string v
  | classRef, v => .classRef v
  | enum, v => .enum v
  | nested, v => .nested v
  | list item, vs => .array (vs.map item.toValue)

/-- The accessor that suits a declared type. -/
def ofElementType : ElementType → Accessor
  | .byte => byte
  | .short => short
  | .int => int
  | .long => long
  | .float => float
  | .double => double
  | .boolean => boolean
  | .char => char
  | .string => string
  | .classRef => classRef
  | .enum _ => enum
  | .interface _ => nested
  | .array element => list (ofElementType element)

end Accessor

/-! ## Projections -/

/-- Why an element cannot be read. -/
inductive ProjectionError where
  | interfaceNotFound (name : String)
  | unknownElement (interface element : String)
  | missingValue (interface element : String)
  | typeMismatch (interface element expected found : String)
deriving DecidableEq

/-- The text of the error. -/
def ProjectionError.message : ProjectionError → String
  | interfaceNotFound name => s!"annotation interface not found: {name}"
  | unknownElement interface element =>
    s!"annotation [{interface}] declares no element [{element}]"
  | missingValue interface element =>
    s!"annotation [{interface}] has no value for element [{element}]"
  | typeMismatch interface element expected found =>
    s!"element [{interface}.{element}]: expected [{expected}] was [{found}]"

/-- An annotation with its interface, and the types by which nested annotations are projected. -/
structure Projection where
  annotation : Annotation
  interface : Interface
  types : TypeLookup

namespace Projection

/-- The projection of an annotation; its interface must be visible. -/
def ofAnnotation (types : TypeLookup) (a : Annotation) : Except ProjectionError Projection :=
  match types.annotation? a.typeName with
  | some interface => .ok ⟨a, interface, types⟩
  | none => .error (.interfaceNotFound a.typeName)

variable (p : Projection)

/-- The value of a declared element. -/
def get (element : String) : Except ProjectionError Value :=
  if (p.interface.element? element).isNone then
    .error (.unknownElement p.interface.name element)
  else match p.annotation.get? element with
    | some v => .ok v
    | none => .error (.missingValue p.interface.name element)

/-- The value of a declared element, read by an accessor. -/
def getAs (accessor : Accessor) (element : String) :
    Except ProjectionError accessor.Carrier := do
  let v ← p.get element
  match accessor.read? v with
  | some x => return x
  | none => throw (.typeMismatch p.interface.name element accessor.render v.kindName)

/-- The projection of the annotation that is the value of an element. -/
def nested (element : String) : Except ProjectionError Projection := do
  ofAnnotation p.types (← p.getAs .nested element)

end Projection

/-! ## The annotations of a member -/

/-- The first of several annotations that a qualified or simple name refers to. -/
def findNamed? (name : String) (annotations : List Annotation) : Option Annotation :=
  annotations.find? fun a => a.isNamed name

/-- The projection of the first annotation that a name refers to, if there is one. -/
def projectNamed? (types : TypeLookup) (name : String) (annotations : List Annotation) :
    Except ProjectionError (Option Projection) :=
  match findNamed? name annotations with
  | some a => (Projection.ofAnnotation types a).map some
  | none => .ok none

end DocAnnotations
