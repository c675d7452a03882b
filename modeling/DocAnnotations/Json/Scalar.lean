import DocAnnotations.Json
import DocAnnotations.Json.Fault
import DocAnnotations.Text.Digit

/-!
# Words, numbers and texts at the front of a text

The parts of a document that are neither list nor object.  Each can be read for its value or be
skipped; what is skipped only has to look like a part of its kind, so that numbers too large and
escapes that stand for no character are passed over.
-/

namespace DocAnnotations.Json

/-- A result that a fault of the text may take the place of. -/
abbrev Attempt := Except JsonFault

/-- The blanks between the parts of a document. -/
def isSpace (c : Char) : Bool := c = ' ' || c = '\n' || c = '\t' || c = '\r'

/-- The text behind its leading blanks. -/
def skipSpace (cs : List Char) : List Char := cs.dropWhile isSpace

/-! ## Words -/

/-- A fixed word, of which the first letter is known to match. -/
def readWord (value : Json) : (word cs : List Char) → Attempt (Json × List Char)
  | [], cs => .ok (value, cs)
  | _ :: _, [] => .error .endInValue
  | w :: word, c :: cs => if w = c then readWord value word cs else .error .expectedWord

/-! ## Numbers -/

/-- A number in its parts: the digits before the point, the digits behind it, and the exponent with
its sign. -/
structure NumberParts where
  negative : Bool
  whole : List Char
  fraction : List Char
  exponent : Option (Bool × List Char)
deriving DecidableEq

/-- The digits at the front of a text where at least one is needed, and the rest. -/
def splitDigits (cs : List Char) : Attempt (List Char × List Char) :=
  if (cs.takeWhile Char.isDigit).isEmpty then
    .error (if cs.isEmpty then .endInValue else .invalidNumber)
  else .ok (cs.takeWhile Char.isDigit, cs.dropWhile Char.isDigit)

/-- The digits of a number before its point: a lone zero, or digits that do not start with one. -/
def splitWhole (cs : List Char) : Attempt (List Char × List Char) := do
  match ← splitDigits cs with
  | ('0' :: _ :: _, _) => throw .invalidNumber
  | parts => return parts

/-- The digits behind the point of a number, or none where there is no point. -/
def splitFraction : List Char → Attempt (List Char × List Char)
  | '.' :: cs => splitDigits cs
  | cs => .ok ([], cs)

/-- The exponent of a number, true for a negative one, where there is an exponent. -/
def splitExponent : List Char → Attempt (Option (Bool × List Char) × List Char)
  | [] => .ok (none, [])
  | c :: cs =>
    if c = 'e' || c = 'E' then do
      let (negative, cs) := match cs with
        | '+' :: cs => (false, cs)
        | '-' :: cs => (true, cs)
        | cs => (false, cs)
      let (digits, cs) ← splitDigits cs
      return (some (negative, digits), cs)
    else .ok (none, c :: cs)

/-- The number at the front of a text in its parts. -/
def splitNumber (cs : List Char) : Attempt (NumberParts × List Char) := do
  let (negative, cs) := match cs with
    | '-' :: cs => (true, cs)
    | cs => (false, cs)
  let (whole, cs) ← splitWhole cs
  let (fraction, cs) ← splitFraction cs
  let (exponent, cs) ← splitExponent cs
  return (⟨negative, whole, fraction, exponent⟩, cs)

/-- The digits at the front of a text that still fit 64 bits behind the value of the digits before,
as the value of all of them, and the digits left. -/
def leadingDigits : Nat → List Char → Nat × List Char
  | value, [] => (value, [])
  | value, c :: cs =>
    let next := value * 10 + (c.toNat - '0'.toNat)
    if next < UInt64.size then leadingDigits next cs else (value, c :: cs)

namespace NumberParts

variable (p : NumberParts)

/-- The leading digits of a number that fit 64 bits, and the power of ten that they count. -/
def significand : Nat × Int :=
  let (value, ignored) := leadingDigits 0 p.whole
  let (value, left) := leadingDigits value p.fraction
  let places : Int := p.fraction.length - left.length
  let exponent : Int := match p.exponent with
    | none => 0
    | some (negative, digits) =>
      let n : Int := (Text.numberOf? 10 digits).getD 0
      if negative then -n else n
  (value, ignored.length - places + exponent)

/-- The greatest power of ten by which a number is scaled at once. -/
def greatestPower : Int := 308

/-- The magnitude of a number in 64 bits: its leading digits, rounded, times or divided by a power
of ten, rounded.  None where it is too large. -/
def magnitude? : Option Nat :=
  let f := Decimal.double
  let power (e : Int) := f.nearest (Decimal.tenTo e) 1
  let (value, exponent) := p.significand
  let digits := f.nearest value 1
  if value = 0 then some 0
  else if greatestPower < exponent then none
  else if 0 ≤ exponent then
    let product := f.product digits (power exponent)
    if product = f.infinity then none else some product
  else if -greatestPower ≤ exponent then some (f.quotient digits (power (-exponent)))
  else if -2 * greatestPower ≤ exponent then
    some (f.quotient (f.quotient digits (power greatestPower)) (power (-exponent - greatestPower)))
  else some 0

/-- The value of a number that is whole: it has neither point nor exponent and fits 64 bits, signed
or not.  A minus zero is not whole. -/
def integer? : Option Int :=
  let (value, ignored) := leadingDigits 0 p.whole
  if !p.fraction.isEmpty || p.exponent.isSome || !ignored.isEmpty then none
  else if !p.negative then some value
  else if 0 < value && value ≤ UInt64.size / 2 then some (-(value : Int))
  else none

/-- A number as it is written. -/
def chars : List Char :=
  let sign (negative : Bool) := if negative then ['-'] else []
  let fraction := if p.fraction.isEmpty then [] else '.' :: p.fraction
  let exponent := match p.exponent with
    | none => []
    | some (negative, digits) => 'e' :: sign negative ++ digits
  sign p.negative ++ p.whole ++ fraction ++ exponent

end NumberParts

/-- The number at the front of a text.  It must not be too large for 64 bits. -/
def readNumber (cs : List Char) : Attempt (Json × List Char) := do
  let (parts, rest) ← splitNumber cs
  match parts.integer?, parts.magnitude? with
  | some n, _ => return (.integer n, rest)
  | none, some _ => return (.decimal parts.chars, rest)
  | none, none => throw .numberOutOfRange

/-- The text behind the number at its front. -/
def skipNumber (cs : List Char) : Attempt (List Char) :=
  match splitNumber cs with
  | .ok (_, rest) => .ok rest
  | .error _ => .error .invalidNumber

/-! ## Texts -/

/-- The unit that four hexadecimal digits stand for.  A text ends too early for them if fewer than
four bytes are left. -/
def hexUnit (cs : List Char) : Attempt Nat :=
  let digits := cs.take 4
  if (String.ofList digits).utf8ByteSize < 4 then .error .endInString
  else match Text.numberOf? 16 digits with
    | some n => .ok n
    | none => .error .invalidEscape

/-- The character of an escape, given what follows the backslash, and how many characters the
escape takes there.  Characters outside the basic plane are two escapes. -/
def readEscape : List Char → Attempt (Char × Nat)
  | [] => .error .endInString
  | c :: cs =>
    match c with
    | '"' => .ok ('"', 1)
    | '\\' => .ok ('\\', 1)
    | '/' => .ok ('/', 1)
    | 'b' => .ok ('\x08', 1)
    | 'f' => .ok ('\x0c', 1)
    | 'n' => .ok ('\n', 1)
    | 'r' => .ok ('\r', 1)
    | 't' => .ok ('\t', 1)
    | 'u' => do
      let high ← hexUnit cs
      if 0xdc00 ≤ high && high ≤ 0xdfff then throw .loneSurrogate
      else if high < 0xd800 || 0xdbff < high then return (Char.ofNat high, 5)
      else
        match cs.drop 4 with
        | '\\' :: 'u' :: rest =>
          let low ← hexUnit rest
          if low < 0xdc00 || 0xdfff < low then throw .loneSurrogate
          else return (Char.ofNat (0x10000 + (high - 0xd800) * 0x400 + (low - 0xdc00)), 11)
        | [] | ['\\'] => throw .endInString
        | _ => throw .endOfHexEscape
    | _ => .error .invalidEscape

/-- The characters of a quoted text up to its closing quote, the reversed beginning given; the
first `passed` characters belong to the escape before. -/
def readChars : (passed : Nat) → List Char → List Char → Attempt (String × List Char)
  | _, _, [] => .error .endInString
  | passed + 1, found, _ :: cs => readChars passed found cs
  | 0, found, c :: cs =>
    if c = '"' then .ok (String.ofList found.reverse, cs)
    else if c = '\\' then
      match readEscape cs with
      | .ok (e, n) => readChars n (e :: found) cs
      | .error fault => .error fault
    else if c.toNat < 0x20 then .error .controlCharacter
    else readChars 0 (c :: found) cs

/-- How many characters an escape takes behind its backslash, whatever it stands for. -/
def escapeLength : List Char → Attempt Nat
  | [] => .error .endInString
  | c :: cs =>
    if c = 'u' then (hexUnit cs).map fun _ => 5
    else if "\"\\/bfnrt".toList.contains c then .ok 1
    else .error .invalidEscape

/-- The text behind the closing quote of a quoted text; the first `passed` characters belong to the
escape before. -/
def skipChars : (passed : Nat) → List Char → Attempt (List Char)
  | _, [] => .error .endInString
  | passed + 1, _ :: cs => skipChars passed cs
  | 0, c :: cs =>
    if c = '"' then .ok cs
    else if c = '\\' then
      match escapeLength cs with
      | .ok n => skipChars n cs
      | .error fault => .error fault
    else if c.toNat < 0x20 then .error .controlCharacter
    else skipChars 0 cs

/-! ## Scalars -/

/-- The word, number or text at the front of a text that starts with no blank. -/
def readScalar : List Char → Attempt (Json × List Char)
  | [] => .error .endInValue
  | c :: cs =>
    match c with
    | 'n' => readWord .null "ull".toList cs
    | 't' => readWord (.bool true) "rue".toList cs
    | 'f' => readWord (.bool false) "alse".toList cs
    | '"' => (readChars 0 [] cs).map fun (s, rest) => (.string s, rest)
    | c => if c = '-' || c.isDigit then readNumber (c :: cs) else .error .expectedValue

/-- The text behind the word, number or text at its front. -/
def skipScalar : List Char → Attempt (List Char)
  | [] => .error .endInValue
  | c :: cs =>
    if c = '"' then skipChars 0 cs
    else if c = '-' || c.isDigit then skipNumber (c :: cs)
    else (readScalar (c :: cs)).map Prod.snd

end DocAnnotations.Json
