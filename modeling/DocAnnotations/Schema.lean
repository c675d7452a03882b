import DocAnnotations.Json.Decoder
import DocAnnotations.TypeLookup

/-!
# Schema documents

A schema document lists annotation interfaces with their elements, enum types and classes.  The type
of an element is written as a descriptor, its default, where there is one, as a literal.

The decoders here only ask that members are there and of the right kind.  Whether descriptors and
defaults mean anything is checked when an index is made of the schema.
-/

namespace DocAnnotations

open Json

/-- An element as a schema declares it. -/
structure ElementDeclaration where
  name : String
  descriptor : String
  /-- The literal of the default. -/
  default : Option String
deriving DecidableEq, Inhabited

/-- An interface as a schema declares it. -/
structure InterfaceDeclaration where
  name : String
  elements : List ElementDeclaration
deriving DecidableEq, Inhabited

/-- A schema. -/
structure Schema where
  annotations : List InterfaceDeclaration
  enums : List EnumType
  classes : List String
deriving DecidableEq, Inhabited

/-- How elements are declared. -/
def ElementDeclaration.decoder : Decoder ElementDeclaration :=
  Record.decoder
    { title := "struct ElementDecl"
      start := ((none, none, none) : Option String × Option String × Option String)
      fields :=
        [("name", fun (_, d, v) => Decoder.string.map fun s => (some s, d, v)),
          ("descriptor", fun (n, _, v) => Decoder.string.map fun s => (n, some s, v)),
          ("default", fun (n, d, _) => Decoder.optionalString.map fun v => (n, d, v))]
      finish := fun (name, descriptor, default) => do
        return ⟨← required "name" name, ← required "descriptor" descriptor, default⟩ }

/-- How interfaces are declared; one may have no list of elements. -/
def InterfaceDeclaration.decoder : Decoder InterfaceDeclaration :=
  Record.decoder
    { title := "struct AnnotationDecl"
      start := ((none, []) : Option String × List ElementDeclaration)
      fields :=
        [("name", fun (_, es) => Decoder.string.map fun s => (some s, es)),
          ("elements", fun (n, _) => ElementDeclaration.decoder.list.map fun es => (n, es))]
      finish := fun (name, elements) => do return ⟨← required "name" name, elements⟩ }

/-- How enum types are declared. -/
def EnumType.decoder : Decoder EnumType :=
  Record.decoder
    { title := "struct EnumType"
      start := ((none, none) : Option String × Option (List String))
      fields :=
        [("name", fun (_, cs) => Decoder.string.map fun s => (some s, cs)),
          ("constants", fun (n, _) => Decoder.string.list.map fun cs => (n, some cs))]
      finish := fun (name, constants) => do
        return ⟨← required "name" name, ← required "constants" constants⟩ }

/-- How schemas are written; each of the lists may be left out. -/
def Schema.decoder : Decoder Schema :=
  Record.decoder
    { title := "struct SchemaFile"
      start := (⟨[], [], []⟩ : Schema)
      fields :=
        [("annotations", fun schema =>
            InterfaceDeclaration.decoder.list.map fun is => { schema with annotations := is }),
          ("enums", fun schema => EnumType.decoder.list.map fun es => { schema with enums := es }),
          ("classes", fun schema =>
            Decoder.string.list.map fun cs => { schema with classes := cs })]
      finish := .ok }

end DocAnnotations
