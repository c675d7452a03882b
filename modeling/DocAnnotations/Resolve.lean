import DocAnnotations.Decimal.Format
import DocAnnotations.Defaults.Loading
import DocAnnotations.Literal.Class
import DocAnnotations.Literal.Floating
import DocAnnotations.Literal.Integer
import DocAnnotations.Literal.Quoted
import DocAnnotations.Node.Parser

/-!
# Resolving literals

A literal gets its meaning from the declared type of the element it is written for: `1` is a byte, a
long or a double.

**Raw literals.**  `literalValue` reads a raw literal for a type, with one check for each kind of
type, and a fault that names the element.

**Annotations and arrays.**  An annotation is resolved against its interface: every pair must name a
declared element once and have a value of its type, and elements without a pair take the default.
The first fault in the order of the text is reported with the interface being resolved and the
place.

`compileLiteral` parses and resolves the text of a literal.  A literal of an unknown interface is no
error, and comes to nothing.
-/

namespace DocAnnotations

open Text Attribute

/-! ## Errors -/

/-- Why a well-formed literal has no meaning. -/
inductive ResolveFault where
  | unknownElement (element : String)
  | duplicateElement (element : String)
  | typeMismatch (element : String) (expected : ElementType) (found : String)
  | outOfRange (element : String) (expected : ElementType) (literal : String)
  | invalidLiteral (element : String) (expected : ElementType) (literal : String)
  | unknownType (element name : String)
  | unknownConstant (element typeName constant : String)
  | wrongInterface (element expected found : String)
  | missingElement (element : String)
  | defaultsUnavailable (cause : ReadError)
deriving DecidableEq

/-- The text of the fault. -/
def ResolveFault.message : ResolveFault → String
  | unknownElement element => s!"unknown element [{element}]"
  | duplicateElement element => s!"duplicate element [{element}]"
  | typeMismatch element expected found =>
    s!"element [{element}]: expected [{expected.render}] was [{found}]"
  | outOfRange element expected literal =>
    s!"element [{element}]: literal {literal} is out of range for [{expected.render}]"
  | invalidLiteral element expected literal =>
    s!"element [{element}]: invalid [{expected.render}] literal {literal}"
  | unknownType element name => s!"element [{element}]: unknown type [{name}]"
  | unknownConstant element typeName constant =>
    s!"element [{element}]: [{constant}] is not a constant of enum [{typeName}]"
  | wrongInterface element expected found =>
    s!"element [{element}]: expected annotation [{expected}] was [{found}]"
  | missingElement element => s!"missing value for element [{element}], which has no default"
  | defaultsUnavailable cause => s!"defaults unavailable: {cause.message}"

/-- A fault, the interface being resolved when it was found, and its place in the text. -/
structure ResolveError where
  annotation : String
  fault : ResolveFault
  offset : Nat
deriving DecidableEq

/-- The text of the error. -/
def ResolveError.message (e : ResolveError) : String :=
  s!"annotation [{e.annotation}]: {e.fault.message}"

/-- Why a text has no meaning. -/
inductive CompileError where
  | parse (error : ParseError)
  | resolve (error : ResolveError)
deriving DecidableEq

namespace CompileError

/-- The text of the error. -/
def message : CompileError → String
  | parse error => error.message
  | resolve error => error.message

/-- The place of the error. -/
def offset : CompileError → Nat
  | parse error => error.offset
  | resolve error => error.offset

/-- The error of the tokens, where that is what the error is. -/
def lexError? : CompileError → Option LexError
  | parse error => error.lexError?
  | resolve _ => none

end CompileError

/-- A resolution, which may load defaults. -/
abbrev Resolve := WithRegistry ResolveError

/-! ## Raw literals -/

/-- An integer literal in a type of the given width; `expected` is the type that errors name. -/
def integerValue (element : String) (expected : ElementType) (bits : Nat) (text : String) :
    Except ResolveFault Int :=
  match IntegerLiteral.ofChars? text.toList with
  | none => .error (.invalidLiteral element expected text)
  | some literal =>
    if literal.longSuffix && bits != 64 then .error (.typeMismatch element expected "long")
    else match literal.fit? bits with
      | some n => .ok n
      | none => .error (.outOfRange element expected text)

/-- A floating literal as a pattern of the given format. -/
def floatingValue (element : String) (expected : ElementType) (format : Decimal.BinaryFormat)
    (own other : Char) (otherName text : String) : Except ResolveFault Nat :=
  match floatingLiteral format own other text.toList with
  | .ok bits => .ok bits
  | .error .otherSuffix => .error (.typeMismatch element expected otherName)
  | .error .malformed => .error (.invalidLiteral element expected text)
  | .error .outOfRange => .error (.outOfRange element expected text)

/-- A class literal; a name that is no primitive keyword must be that of a class. -/
def classValue (types : TypeLookup) (element : String) (text : String) :
    Except ResolveFault ClassRef :=
  match classLiteral? text.toList with
  | none => .error (.invalidLiteral element .classRef text)
  | some c =>
    if c.isPrimitive then .ok c
    else match types.findClass? c.name with
      | some name => .ok { c with name }
      | none => .error (.unknownType element c.name)

/-- A constant of the enum `name`. -/
def enumValue (types : TypeLookup) (element name text : String) : Except ResolveFault EnumRef :=
  if ".class".toList.isSuffixOf text.toList then
    .error (.typeMismatch element (.enum name) "Class")
  else match enumLiteral? text.toList with
    | none => .error (.invalidLiteral element (.enum name) text)
    | some literal =>
      match types.enumeration? name with
      | none => .error (.unknownType element name)
      | some e =>
        if literal.typeName != e.name && literal.typeName != e.simpleName then
          .error (.typeMismatch element (.enum name) literal.typeName)
        else if e.hasConstant literal.constant then .ok ⟨e.name, literal.constant⟩
        else .error (.unknownConstant element e.name literal.constant)

/-- Whether literals of the kind are whole numbers. -/
def LiteralKind.isWhole : LiteralKind → Bool
  | .integer | .hex | .octal => true
  | _ => false

/-- The value of a raw literal for an element of the given type.  Whole numbers for a floating type
are read as long values first. -/
def literalValue (types : TypeLookup) (element : String) (kind : LiteralKind) (text : String)
    (expected : ElementType) : Except ResolveFault Value :=
  let mismatch := .typeMismatch element expected (Node.kindName (.literal kind text {}))
  match expected with
  | .byte =>
    if kind.isWhole then do return .byte (Int8.ofInt (← integerValue element expected 8 text))
    else .error mismatch
  | .short =>
    if kind.isWhole then do return .short (Int16.ofInt (← integerValue element expected 16 text))
    else .error mismatch
  | .int =>
    if kind.isWhole then do return .int (Int32.ofInt (← integerValue element expected 32 text))
    else .error mismatch
  | .long =>
    if kind.isWhole then do return .long (Int64.ofInt (← integerValue element expected 64 text))
    else .error mismatch
  | .float =>
    if kind = .float then do
      let bits ← floatingValue element expected Decimal.single 'f' 'd' "double" text
      return .float (UInt32.ofNat bits)
    else if kind.isWhole then do
      let n ← integerValue element .long 64 text
      return .float (UInt32.ofNat (Decimal.single.ofInt n))
    else .error mismatch
  | .double =>
    if kind = .float then do
      let bits ← floatingValue element expected Decimal.double 'd' 'f' "float" text
      return .double (UInt64.ofNat bits)
    else if kind.isWhole then do
      let n ← integerValue element .long 64 text
      return .double (UInt64.ofNat (Decimal.double.ofInt n))
    else .error mismatch
  | .boolean =>
    if kind = .boolean then .ok (.boolean (text.toList.map Char.toLower == "true".toList))
    else .error mismatch
  | .char =>
    if kind = .char then match charLiteral? text.toList with
      | some c => .ok (.char c)
      | none => .error (.invalidLiteral element expected text)
    else .error mismatch
  | .string =>
    if kind = .string then match stringLiteral? text.toList with
      | some s => .ok (.string s)
      | none => .error (.invalidLiteral element expected text)
    else .error mismatch
  | .classRef =>
    if kind = .identifier then do return .classRef (← classValue types element text)
    else .error mismatch
  | .enum name =>
    if kind = .identifier then do return .enum (← enumValue types element name text)
    else .error mismatch
  | .interface _ => .error mismatch
  | .array _ => .error mismatch

/-! ## Annotations and arrays -/

/-- Stops with a fault of an interface at a place. -/
def failAt {α : Type} (interface : String) (offset : Nat) (fault : ResolveFault) : Resolve α :=
  throw ⟨interface, fault, offset⟩

/-- The defaults of an interface, for an annotation at the given place. -/
def Loader.defaultsAt (l : Loader) (interface : Interface) (offset : Nat) : Resolve Annotation :=
  (l.defaultsFor interface).adaptExcept fun e =>
    ⟨interface.name, .defaultsUnavailable e, offset⟩

/-- Adds the defaults of the elements that have no value yet, in declared order; one that has no
default is missing. -/
def fillMissing (interface : String) (offset : Nat) (defaults : Annotation) :
    List Element → Annotation → Resolve Annotation
  | [], a => return a
  | e :: elements, a =>
    if a.contains e.name then fillMissing interface offset defaults elements a
    else match defaults.get? e.name with
      | some v => fillMissing interface offset defaults elements (a.insert e.name v)
      | none => failAt interface offset (.missingElement e.name)

mutual

/-- The value of a node for an element of an interface. -/
def resolveValue (l : Loader) (interface element : String) :
    Node → ElementType → Resolve Value
  | .literal kind text span, expected =>
    match literalValue l.types element kind text expected with
    | .ok v => return v
    | .error fault => failAt interface span.start fault
  | .array nodes span, expected =>
    match expected with
    | .array inner => return .array (← resolveValues l interface element inner nodes [])
    | _ => failAt interface span.start (.typeMismatch element expected "array type")
  | .nested ⟨name, pairs, span⟩, expected =>
    match expected with
    | .interface declared =>
      match l.types.annotation? declared with
      | none => failAt interface span.start (.unknownType element declared)
      | some i => do
        if i.isNamed name then
          let defaults ← l.defaultsAt i span.start
          let a ← resolvePairs l i pairs (.empty i.name)
          return .nested (← fillMissing i.name span.start defaults i.elements a)
        else failAt interface span.start (.wrongInterface element i.name name)
    | _ => failAt interface span.start (.typeMismatch element expected "annotation")

/-- The values of several nodes, added to those already resolved, the last of these first. -/
def resolveValues (l : Loader) (interface element : String) (expected : ElementType) :
    List Node → List Value → Resolve (List Value)
  | [], found => return found.reverse
  | n :: ns, found => do
    let v ← resolveValue l interface element n expected
    resolveValues l interface element expected ns (v :: found)

/-- The elements of several pairs, added to those already resolved. -/
def resolvePairs (l : Loader) (interface : Interface) :
    List PairNode → Annotation → Resolve Annotation
  | [], a => return a
  | ⟨name, node, span⟩ :: pairs, a => do
    match interface.element? name with
    | none => failAt interface.name span.start (.unknownElement name)
    | some e =>
      if a.contains name then failAt interface.name span.start (.duplicateElement name)
      else
        let v ← resolveValue l interface.name e.name node e.type
        resolvePairs l interface pairs (a.insert name v)

end

/-- An annotation resolved against an interface with the given defaults; its own name is not looked
at. -/
def resolveAgainst (l : Loader) (interface : Interface) (defaults : Annotation)
    (node : AnnotationNode) : Resolve Annotation := do
  let a ← resolvePairs l interface node.pairs (.empty interface.name)
  fillMissing interface.name node.span.start defaults interface.elements a

/-- A whole literal; nothing when its name is not that of an annotation interface. -/
def resolveRoot (l : Loader) (node : AnnotationNode) : Resolve (Option Annotation) := do
  match l.types.findAnnotation? node.name with
  | none => return none
  | some interface =>
    let defaults ← l.defaultsAt interface node.span.start
    return some (← resolveAgainst l interface defaults node)

/-- Parses and resolves a literal; nothing when its name is not that of an annotation interface. -/
def compileLiteral (l : Loader) (text : String) :
    WithRegistry CompileError (Option Annotation) := do
  match AnnotationNode.parse text with
  | .error e => throw (.parse e)
  | .ok node => (resolveRoot l node).adaptExcept .resolve

end DocAnnotations
