import DocAnnotations.Json
import DocAnnotations.Value

/-!
# Values as documents

A value becomes an object of its kind and its content.  Floating values that are no finite numbers
have no content.
-/

namespace DocAnnotations

/-- The object of a kind and a content. -/
def kindObject (kind : String) (value : Json) : Json :=
  .object [("kind", .string kind), ("value", value)]

mutual

/-- The document of a value. -/
def Value.toJson : Value → Json
  | .byte v => kindObject "byte" (.integer v.toInt)
  | .short v => kindObject "short" (.integer v.toInt)
  | .int v => kindObject "int" (.integer v.toInt)
  | .long v => kindObject "long" (.integer v.toInt)
  | .float bits => kindObject "float" (Json.ofSingle bits.toNat)
  | .double bits => kindObject "double" (Json.ofDouble bits.toNat)
  | .boolean v => kindObject "boolean" (.bool v)
  | .char c => kindObject "char" (.string c.toString)
  | .string s => kindObject "string" (.string s)
  | .classRef c =>
    kindObject "class" (.object [("name", .string c.name), ("dimensions", .integer c.dimensions)])
  | .enum e =>
    kindObject "enum"
      (.object [("type_name", .string e.typeName), ("constant", .string e.constant)])
  | .nested a => kindObject "annotation" a.toJson
  | .array vs => kindObject "array" (.array (elementsToJson vs))

/-- The documents of several values. -/
def elementsToJson : List Value → List Json
  | [] => []
  | v :: vs => v.toJson :: elementsToJson vs

/-- The document of an annotation. -/
def Annotation.toJson : Annotation → Json
  | ⟨typeName, elements⟩ =>
    .object [("annotation_type", .string typeName), ("elements", .object (namedToJson elements))]

/-- The documents of several elements under their names. -/
def namedToJson : List (String × Value) → List (String × Json)
  | [] => []
  | (name, v) :: es => (name, v.toJson) :: namedToJson es

end

end DocAnnotations
