import DocAnnotations.Occurrence
import DocAnnotations.TypeIndex

/-!
# Diagnostics

A diagnostic says which rule an occurrence breaks, where the occurrence stands, and how.

Each rule is a `DiagnosticCode` with a title and a description.  A diagnostic is made from an error
of compiling, from a repeated annotation, or from a member that cannot be written; the last stands
at the first occurrence that was accepted for the member.
-/

namespace DocAnnotations

/-- The rules that an occurrence can break. -/
inductive DiagnosticCode where
  | parseError
  | validationError
  | duplicate
  | encodeError
deriving DecidableEq, Inhabited

namespace DiagnosticCode

/-- All rules, in the order of reports. -/
def all : List DiagnosticCode := [parseError, validationError, duplicate, encodeError]

/-- The name of the rule for programs. -/
def id : DiagnosticCode → String
  | parseError => "BP175_PARSE_ERROR"
  | validationError => "BP175_VALIDATION_ERROR"
  | duplicate => "BP175_DUPLICATE_ANNOTATION"
  | encodeError => "BP175_ENCODE_ERROR"

/-- The name of the rule for people. -/
def title : DiagnosticCode → String
  | parseError => "Malformed annotation literal"
  | validationError => "Invalid annotation value"
  | duplicate => "Duplicate annotation"
  | encodeError => "Unencodable annotation"

/-- What breaks the rule. -/
def description : DiagnosticCode → String
  | parseError => "The annotation literal does not match the literal grammar."
  | validationError => "The annotation literal does not match its annotation interface."
  | duplicate =>
    "The same annotation type is attached to one member more than once."
  | encodeError => "The resolved annotation exceeds the limits of the attribute format."

end DiagnosticCode

/-- A broken rule with the place of the occurrence. -/
structure Diagnostic where
  code : DiagnosticCode
  className : String
  file : String
  line : Nat
  member : Member
  /-- The interface of the annotation, as far as it was resolved. -/
  annotation : Option String
  message : String
deriving DecidableEq, Inhabited

namespace Diagnostic

/-- A diagnostic at the place of an occurrence. -/
def ofOccurrence (o : Occurrence) (code : DiagnosticCode) (interface : Option String)
    (message : String) : Diagnostic :=
  ⟨code, o.className, o.file, o.line, o.member, interface, message⟩

/-- The diagnostic of a literal without a meaning. -/
def ofCompileError (o : Occurrence) : CompileError → Diagnostic
  | .parse e => .ofOccurrence o .parseError none e.message
  | .resolve e =>
    .ofOccurrence o .validationError (some e.annotation) s!"{e.message} at offset {e.offset}"

/-- The diagnostic of an annotation whose type the member has already. -/
def ofDuplicate (o : Occurrence) (typeName : String) : Diagnostic :=
  .ofOccurrence o .duplicate (some typeName) s!"duplicate annotation [{typeName}]"

/-- The diagnostic of a member whose annotations cannot be written. -/
def ofEncodeError (o : Occurrence) (e : Attribute.EncodeError) : Diagnostic :=
  .ofOccurrence o .encodeError none e.message

/-- The diagnostic as a line of text. -/
def render (d : Diagnostic) : String :=
  s!"{d.file}:{d.line}: error in class [{d.className}] member [{d.member.render}]: {d.message}"

end Diagnostic

end DocAnnotations
