import DocAnnotations.Attribute
import DocAnnotations.Text.Printable

/-!
# Writing attributes

Equal values have equal bytes: the elements of an annotation stand in the order of their names, and
nothing else has a choice.

A value cannot be written when some text or count in it does not fit two bytes, or when a character
lies outside the basic plane; the error is about the first such place in the order of writing, and
names the `Part` that it stands in.

The writers for values, annotations and elements in a row pass along the bytes so far, and stop at
the first error.
-/

namespace DocAnnotations.Attribute

/-- The parts of a value that have a length of two bytes. -/
inductive Part where
  | string
  | classDescriptor
  | enumDescriptor
  | enumConstant
  | array
  | annotationName
  | elementCount
  | elementName
  | annotationCount
deriving DecidableEq

/-- The words by which messages name a part. -/
def Part.describe : Part → String
  | string => "string"
  | classDescriptor => "class descriptor"
  | enumDescriptor => "enum descriptor"
  | enumConstant => "enum constant"
  | array => "array"
  | annotationName => "annotation name"
  | elementCount => "element count"
  | elementName => "element name"
  | annotationCount => "annotation count"

/-- Why a value cannot be written. -/
inductive EncodeError where
  | tooLong (part : Part) (length : Nat)
  | unencodableChar (value : Char)
deriving DecidableEq

/-- The text of the error. -/
def EncodeError.message : EncodeError → String
  | tooLong part length => s!"{part.describe} of length {length} exceeds the u16 limit"
  | unencodableChar value =>
    s!"char {Text.shownBetweenApostrophes value} is outside the basic multilingual plane"

/-- A length or count. -/
def lengthBytes (part : Part) (length : Nat) : Except EncodeError (List UInt8) :=
  if length < UInt16.size then .ok (bigEndian 2 length) else .error (.tooLong part length)

/-- A text: the number of its bytes and the bytes. -/
def textBytes (part : Part) (text : String) : Except EncodeError (List UInt8) := do
  let length ← lengthBytes part text.utf8ByteSize
  return length ++ text.toUTF8.data.toList

/-- A tag and a payload. -/
def tagged (tag : Tag) (payload : List UInt8) : List UInt8 := tag.toByte :: payload

/-- A class reference. -/
def classBytes (c : ClassRef) : Except EncodeError (List UInt8) := do
  return tagged .classRef (← textBytes .classDescriptor c.descriptor)

/-- An enum constant. -/
def enumBytes (e : EnumRef) : Except EncodeError (List UInt8) := do
  let type ← textBytes .enumDescriptor (objectDescriptor e.typeName)
  let constant ← textBytes .enumConstant e.constant
  return tagged .enum (type ++ constant)

/-- A character, one unit of two bytes. -/
def charBytes (c : Char) : Except EncodeError (List UInt8) :=
  if c.toNat < UInt16.size then .ok (tagged .char (bigEndian 2 c.toNat))
  else .error (.unencodableChar c)

mutual

/-- The bytes of a value. -/
def valueBytes : Value → Except EncodeError (List UInt8)
  | .byte v => .ok (tagged .byte (bigEndian 1 v.toBitVec.toNat))
  | .short v => .ok (tagged .short (bigEndian 2 v.toBitVec.toNat))
  | .int v => .ok (tagged .int (bigEndian 4 v.toBitVec.toNat))
  | .long v => .ok (tagged .long (bigEndian 8 v.toBitVec.toNat))
  | .float bits => .ok (tagged .float (bigEndian 4 bits.toNat))
  | .double bits => .ok (tagged .double (bigEndian 8 bits.toNat))
  | .boolean v => .ok (tagged .boolean [if v then 1 else 0])
  | .char c => charBytes c
  | .string s => do return tagged .string (← textBytes .string s)
  | .classRef c => classBytes c
  | .enum e => enumBytes e
  | .nested a => annotationBytes a
  | .array vs => do
    let count ← lengthBytes .array vs.length
    let items ← valuesBytes [] vs
    return tagged .array (count ++ items)

/-- The bytes of several values behind the chunks already written, the last chunk first. -/
def valuesBytes (done : List (List UInt8)) : List Value → Except EncodeError (List UInt8)
  | [] => .ok done.reverse.flatten
  | v :: vs =>
    match valueBytes v with
    | .ok bytes => valuesBytes (bytes :: done) vs
    | .error e => .error e

/-- The bytes of an annotation. -/
def annotationBytes : Annotation → Except EncodeError (List UInt8)
  | ⟨typeName, elements⟩ => do
    let name ← textBytes .annotationName typeName
    let count ← lengthBytes .elementCount elements.length
    let items ← elementsBytes [] elements
    return tagged .nested (name ++ count ++ items)

/-- The bytes of several elements behind the chunks already written, the last chunk first. -/
def elementsBytes (done : List (List UInt8)) :
    List (String × Value) → Except EncodeError (List UInt8)
  | [] => .ok done.reverse.flatten
  | (name, v) :: es =>
    match textBytes .elementName name with
    | .error e => .error e
    | .ok nameBytes =>
      match valueBytes v with
      | .ok bytes => elementsBytes ((nameBytes ++ bytes) :: done) es
      | .error e => .error e

end

/-- The bytes of several annotations behind the chunks already written, the last chunk first. -/
def annotationsBytes (done : List (List UInt8)) :
    List Annotation → Except EncodeError (List UInt8)
  | [] => .ok done.reverse.flatten
  | a :: annotations =>
    match annotationBytes a with
    | .ok bytes => annotationsBytes (bytes :: done) annotations
    | .error e => .error e

/-- The attribute of a member: the number of its annotations and the annotations. -/
def memberBytes (annotations : List Annotation) : Except EncodeError (List UInt8) := do
  let count ← lengthBytes .annotationCount annotations.length
  let items ← annotationsBytes [] annotations
  return count ++ items

end DocAnnotations.Attribute
