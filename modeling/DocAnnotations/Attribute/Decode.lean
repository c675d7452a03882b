import DocAnnotations.Attribute
import DocAnnotations.Defaults
import DocAnnotations.Descriptor
import DocAnnotations.Text.Printable

/-!
# Reading attributes

Bytes are read from front to back, and every type they name is looked up as it is met: interfaces,
declared elements and their types, enums and their constants, classes.  A whole reading must use up
its bytes.

**The state of a reading.**  A `Read` has the bytes that are left, their offset in the whole, and a
registry of defaults.  It touches the registry in one way only, through `Read.ofLoad`.

**Annotations and arrays.**  Elements that an annotation leaves out are completed from the defaults
of its interface: `completed` adds those whose names are free, if the annotation has fewer elements
than the interface declares.  The answers to questions for defaults are a parameter here, since
loading defaults decodes in turn.  At most `nestingLimit` arrays and annotations may be open;
`readValue` counts the levels that are left, and is put together from a reader for the values
inside, so that the recursion is on the count alone.
-/

namespace DocAnnotations.Attribute

/-! ## Errors -/

/-- Why bytes are no attribute for a loader. -/
inductive ReadError where
  | unknownTag (tag : UInt8) (offset : Nat)
  | truncated (offset needed remaining : Nat)
  | invalidUtf8 (offset : Nat)
  | invalidBoolean (value : UInt8) (offset : Nat)
  | invalidChar (unit offset : Nat)
  | invalidDescriptor (descriptor : String)
  | trailingBytes (count : Nat)
  | unexpectedValue (tag : UInt8)
  | tooDeep (limit : Nat)
  | classNotFound (name : String)
  | constantNotFound (typeName constant : String)
  | interfaceNotFound (name : String)
  | unknownElement (interface element : String)
  | duplicateElement (interface element : String)
  | typeMismatch (interface element : String) (expected : ElementType) (found : String)
  | invalidDefault (interface element : String) (cause : ReadError)
  /-- The default of an interface cannot be completed without that default. -/
  | recursiveDefault (interface : String)
deriving DecidableEq

/-- The text of the error. -/
def ReadError.message : ReadError → String
  | unknownTag tag offset => s!"unknown value tag 0x{Text.hexPadded 2 tag.toNat} at offset {offset}"
  | truncated offset needed remaining =>
    s!"truncated input at offset {offset}: need {needed} bytes, {remaining} remaining"
  | invalidUtf8 offset => s!"invalid UTF-8 at offset {offset}"
  | invalidBoolean value offset =>
    s!"invalid boolean byte 0x{Text.hexPadded 2 value.toNat} at offset {offset}"
  | invalidChar unit offset =>
    s!"invalid char code unit 0x{Text.hexPadded 4 unit} at offset {offset}"
  | invalidDescriptor descriptor => s!"invalid type descriptor `{descriptor}`"
  | trailingBytes count => s!"{count} trailing bytes after value"
  | unexpectedValue tag =>
    s!"expected an annotation value, found tag 0x{Text.hexPadded 2 tag.toNat}"
  | tooDeep limit => s!"values nested deeper than {limit} levels"
  | classNotFound name => s!"class not found: {name}"
  | constantNotFound typeName constant => s!"enum constant not found: {typeName}.{constant}"
  | interfaceNotFound name => s!"annotation interface not found: {name}"
  | unknownElement interface element =>
    s!"annotation [{interface}] declares no element [{element}]"
  | duplicateElement interface element =>
    s!"duplicate element [{element}] in annotation [{interface}]"
  | typeMismatch interface element expected found =>
    s!"element [{interface}.{element}]: expected [{expected.render}] was [{found}]"
  | invalidDefault interface element cause =>
    s!"default for [{interface}.{element}]: {cause.message}"
  | recursiveDefault interface => s!"defaults of [{interface}] need themselves"

/-! ## The state of a reading -/

/-- How far a reading has come: the bytes left, their place, and the registry. -/
structure ReadState where
  offset : Nat
  rest : List UInt8
  registry : Registry

/-- A step of a reading. -/
abbrev Read := EStateM ReadError ReadState

/-- A computation on the registry alone. -/
abbrev Load := WithRegistry ReadError

/-- A computation on the registry as a step of a reading. -/
def Read.ofLoad {α : Type} (p : Load α) : Read α := fun s =>
  match p s.registry with
  | .ok a registry => .ok a { s with registry }
  | .error e registry => .error e { s with registry }

/-- The next `needed` bytes. -/
def takeBytes (needed : Nat) : Read (List UInt8) := do
  let s ← get
  let (front, rest) := s.rest.splitAt needed
  if front.length = needed then
    set { s with offset := s.offset + needed, rest }
    return front
  else throw (.truncated s.offset needed s.rest.length)

section

variable {needed : Nat} {s : ReadState}

theorem takeBytes_apply : takeBytes needed s
    = (if (s.rest.splitAt needed).1.length = needed then do
      set { s with offset := s.offset + needed, rest := (s.rest.splitAt needed).2 }
      return (s.rest.splitAt needed).1
    else throw (.truncated s.offset needed s.rest.length) : Read (List UInt8)) s :=
  rfl

theorem takeBytes_of_enough (enough : (s.rest.splitAt needed).1.length = needed) :
    takeBytes needed s = .ok (s.rest.splitAt needed).1
      { s with offset := s.offset + needed, rest := (s.rest.splitAt needed).2 } := by
  rw [takeBytes_apply, if_pos enough]
  rfl

theorem takeBytes_of_not_enough (short : ¬ (s.rest.splitAt needed).1.length = needed) :
    takeBytes needed s = .error (.truncated s.offset needed s.rest.length) s := by
  rw [takeBytes_apply, if_neg short]
  rfl

end

/-- The number in the next `width` bytes. -/
def readNumber (width : Nat) : Read Nat := return ofBigEndian (← takeBytes width)

/-- A length or count. -/
def readLength : Read Nat := readNumber 2

/-- The next byte. -/
def readByte : Read UInt8 := return UInt8.ofNat (← readNumber 1)

/-- The place of the next byte. -/
def currentOffset : Read Nat := return (← get).offset

/-- A text with its length in front. -/
def readText : Read String := do
  let length ← readLength
  let offset ← currentOffset
  let bytes ← takeBytes length
  match String.fromUTF8? ⟨bytes.toArray⟩ with
  | some text => return text
  | none => throw (.invalidUtf8 offset)

/-! ## Values without values inside -/

/-- A truth value. -/
def readBoolean : Read Bool := do
  let offset ← currentOffset
  let b ← readByte
  if b = 0 then return false
  else if b = 1 then return true
  else throw (.invalidBoolean b offset)

/-- A character of the basic plane; half of a surrogate pair is none. -/
def readChar : Read Char := do
  let offset ← currentOffset
  let unit ← readNumber 2
  if unit.isValidChar then return Char.ofNat unit else throw (.invalidChar unit offset)

/-- A class that is primitive or can be loaded. -/
def readClass (types : TypeLookup) : Read ClassRef := do
  let descriptor ← readText
  match ClassRef.ofDescriptor? descriptor with
  | none => throw (.invalidDescriptor descriptor)
  | some c =>
    if c.isPrimitive || types.isClass c.name then return c else throw (.classNotFound c.name)

/-- A constant of an enum that can be loaded. -/
def readEnum (types : TypeLookup) : Read EnumRef := do
  let descriptor ← readText
  let constant ← readText
  match objectName? descriptor with
  | none => throw (.invalidDescriptor descriptor)
  | some typeName =>
    match types.enumeration? typeName with
    | none => throw (.classNotFound typeName)
    | some e =>
      if e.hasConstant constant then return ⟨typeName, constant⟩
      else throw (.constantNotFound typeName constant)

/-! ## Annotations and arrays -/

/-- Several values, added to those already read, the last of these first. -/
def readValues (value : Read Value) : Nat → List Value → Read (List Value)
  | 0, found => return found.reverse
  | n + 1, found => do
    let v ← value
    readValues value n (v :: found)

/-- Several elements of an annotation, added to those already read.  Each must be declared, have a
value of its declared type, and be new. -/
def readElements (value : Read Value) (interface : Interface) :
    Nat → Annotation → Read Annotation
  | 0, a => return a
  | n + 1, a => do
    let name ← readText
    let v ← value
    match interface.element? name with
    | none => throw (.unknownElement interface.name name)
    | some e =>
      if !v.conforms e.type then
        throw (.typeMismatch interface.name name e.type v.kindName)
      else if a.contains name then throw (.duplicateElement interface.name name)
      else readElements value interface n (a.insert name v)

/-- An annotation with the elements that it lacks taken from the defaults. -/
def completed (a defaults : Annotation) : Annotation :=
  defaults.elements.foldl (fun a e => a.insertNew e.1 e.2) a

/-- An annotation behind its tag.  `value` reads the values in it, and without it the limit of
nesting is reached; `defaultsFor` loads the defaults of an interface. -/
def readBody (types : TypeLookup) (defaultsFor : Interface → Load Annotation)
    (value : Option (Read Value)) : Read Annotation := do
  match value with
  | none => throw (.tooDeep nestingLimit)
  | some value =>
    let name ← readText
    match types.annotation? name with
    | none => throw (.interfaceNotFound name)
    | some interface =>
      let count ← readLength
      let a ← readElements value interface count (.empty name)
      if a.size < interface.elements.length then
        return completed a (← Read.ofLoad (defaultsFor interface))
      else return a

/-- An array behind its tag. -/
def readArray (value : Option (Read Value)) : Read Value := do
  match value with
  | none => throw (.tooDeep nestingLimit)
  | some value =>
    let count ← readLength
    return .array (← readValues value count [])

/-- What stands behind a tag; `inner` reads the values in it. -/
def readPayload (types : TypeLookup) (defaultsFor : Interface → Load Annotation)
    (inner : Option (Read Value)) : Tag → Read Value
  | .byte => do return .byte (Int8.ofNat (← readNumber 1))
  | .short => do return .short (Int16.ofNat (← readNumber 2))
  | .int => do return .int (Int32.ofNat (← readNumber 4))
  | .long => do return .long (Int64.ofNat (← readNumber 8))
  | .float => do return .float (UInt32.ofNat (← readNumber 4))
  | .double => do return .double (UInt64.ofNat (← readNumber 8))
  | .boolean => do return .boolean (← readBoolean)
  | .char => do return .char (← readChar)
  | .string => do return .string (← readText)
  | .classRef => do return .classRef (← readClass types)
  | .enum => do return .enum (← readEnum types)
  | .nested => do return .nested (← readBody types defaultsFor inner)
  | .array => readArray inner

/-- A value with its tag; `inner` reads the values in it. -/
def readValueWith (types : TypeLookup) (defaultsFor : Interface → Load Annotation)
    (inner : Option (Read Value)) : Read Value := do
  let offset ← currentOffset
  let b ← readByte
  match Tag.ofByte? b with
  | none => throw (.unknownTag b offset)
  | some tag => readPayload types defaultsFor inner tag

/-- A value, where the given number of arrays and annotations may be opened. -/
def readValue (types : TypeLookup) (defaultsFor : Interface → Load Annotation) :
    Nat → Read Value
  | 0 => readValueWith types defaultsFor none
  | left + 1 => readValueWith types defaultsFor (some (readValue types defaultsFor left))

/-- An annotation with its tag, nothing being open yet. -/
def readTopLevel (types : TypeLookup) (defaultsFor : Interface → Load Annotation) :
    Read Annotation := do
  let tag ← readByte
  if tag = Tag.nested.toByte then
    readBody types defaultsFor (some (readValue types defaultsFor (nestingLimit - 1)))
  else throw (.unexpectedValue tag)

/-- Several annotations, added to those already read, the last of these first. -/
def readAnnotations (item : Read Annotation) :
    Nat → List Annotation → Read (List Annotation)
  | 0, found => return found.reverse
  | n + 1, found => do
    let a ← item
    readAnnotations item n (a :: found)

/-- Reads all of the given bytes. -/
def readAll {α : Type} (p : Read α) (bytes : List UInt8) : Load α := fun registry =>
  match p ⟨0, bytes, registry⟩ with
  | .ok a s =>
    if s.rest.isEmpty then .ok a s.registry
    else .error (.trailingBytes s.rest.length) s.registry
  | .error e s => .error e s.registry

end DocAnnotations.Attribute
