import DocAnnotations.ElementType

/-!
# Type descriptors

A type descriptor is a run of `[` followed by the letter of a primitive type or by `L`, a class name
with slashes, and a semicolon.  What stands behind the type is not looked at.

**Element descriptors.**  The descriptor of an annotation element is that of a method: parameter
types in parentheses, of which there may be none, and a return type.

**References.**  The descriptors of classes and enums in attributes are read in the same way, but
must have no parentheses (`ClassRef.ofDescriptor?`, `objectName?`).
-/

namespace DocAnnotations

open Text

/-- Why a text is no descriptor of an element. -/
inductive DescriptorError where
  | noParameterList
  | endOfInput
  | unrecognized
  | missingSemicolon
  /-- An opening bracket with the end of the parameters behind it. -/
  | bracketAtEnd
  | missingReturnType
  | tooManyDimensions
  | hasParameters
deriving DecidableEq

/-- The text of the error, for a given descriptor. -/
def DescriptorError.message (descriptor : String) (e : DescriptorError) : String :=
  let inContext (cause : String) := s!"parse method descriptor {descriptor}: {cause}"
  match e with
  | noParameterList => inContext "Invalid descriptor: Method descriptor must start with '('."
  | endOfInput => inContext "Unexpected end of input."
  | unrecognized => inContext "Invalid descriptor: Unrecognized type descriptor."
  | missingSemicolon =>
    inContext "Invalid descriptor: Missing semicolon in class name descriptor."
  | bracketAtEnd => inContext "Invalid descriptor: Invalid descriptor."
  | missingReturnType => inContext "Invalid descriptor: Missing return type."
  | tooManyDimensions => inContext "Array has too many dimensions."
  | hasParameters => "annotation elements take no parameters"

/-- A type without its array dimensions. -/
inductive BaseType where
  /-- A primitive keyword, or `void`. -/
  | keyword (name : String)
  /-- A class, by qualified name. -/
  | object (name : String)
deriving DecidableEq

/-- A type as its descriptor gives it. -/
structure TypeDescriptor where
  dimensions : Nat
  base : BaseType
deriving DecidableEq

/-- The most dimensions an array type may have. -/
def maxDimensions : Nat := 255

/-- The base type at the front of a text, and the rest. -/
def readBase : List Char → Except DescriptorError (BaseType × List Char)
  | [] => .error .endOfInput
  | c :: cs =>
    if c = 'L' then
      match cs.dropWhile (· != ';') with
      | _ :: rest =>
        let name := (cs.takeWhile (· != ';')).map fun c => if c == '/' then '.' else c
        .ok (.object (String.ofList name), rest)
      | [] => .error .missingSemicolon
    else
      match primitiveLetters.find? fun p => p.2 == c with
      | some (name, _) => .ok (.keyword name, cs)
      | none => .error .unrecognized

/-- The type at the front of a text, and the rest. -/
def readType (cs : List Char) : Except DescriptorError (TypeDescriptor × List Char) :=
  let dimensions := (cs.takeWhile (· == '[')).length
  let rest := cs.dropWhile (· == '[')
  if maxDimensions < dimensions then .error .tooManyDimensions
  else if 0 < dimensions && rest.head? == some ')' then .error .bracketAtEnd
  else do
    let (base, rest) ← readBase rest
    return (⟨dimensions, base⟩, rest)

/-- The parameter types up to the closing parenthesis, and the rest.  The text `clock` only bounds
their number. -/
def readParameters :
    (clock : List Char) → List TypeDescriptor → List Char →
      Except DescriptorError (List TypeDescriptor × List Char)
  | [], _, _ => .error .endOfInput
  | _ :: clock, found, cs =>
    match cs with
    | ')' :: rest => .ok (found.reverse, rest)
    | cs => do
      let (ty, rest) ← readType cs
      readParameters clock (ty :: found) rest

/-- The return type of an element descriptor. -/
def elementReturnType (descriptor : String) : Except DescriptorError TypeDescriptor :=
  match descriptor.toList with
  | '(' :: cs => do
    let (parameters, rest) ← readParameters cs [] cs
    if rest.head? == some ')' then throw .missingReturnType
    let (ty, _) ← readType rest
    if parameters.isEmpty then return ty else throw .hasParameters
  | _ => .error .noParameterList

/-- The type of a field descriptor: a non-empty text without parentheses that has a type at its
front. -/
def fieldType? (descriptor : String) : Option TypeDescriptor :=
  let cs := descriptor.toList
  if cs.isEmpty || cs.contains '(' || cs.contains ')' then none
  else match readType cs with
    | .ok (ty, _) => some ty
    | .error _ => none

/-- The class that a field descriptor refers to; there are no arrays of `void`. -/
def ClassRef.ofDescriptor? (descriptor : String) : Option ClassRef :=
  match fieldType? descriptor with
  | some ⟨dimensions, .keyword name⟩ =>
    if name = "void" && 0 < dimensions then none else some ⟨name, dimensions⟩
  | some ⟨dimensions, .object name⟩ => some ⟨name, dimensions⟩
  | none => none

/-- The class name of an object descriptor without dimensions. -/
def objectName? (descriptor : String) : Option String :=
  match fieldType? descriptor with
  | some ⟨0, .object name⟩ => some name
  | _ => none

/-- The element type of a primitive keyword; `void` has none. -/
def ElementType.ofKeyword? (name : String) : Option ElementType :=
  [ElementType.byte, .short, .int, .long, .float, .double, .boolean, .char].find? fun ty =>
    ty.render == name

end DocAnnotations
