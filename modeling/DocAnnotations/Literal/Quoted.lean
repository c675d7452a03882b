import DocAnnotations.Text.Digit

/-!
# Quoted literals

Between its quotes a literal has characters and escapes: named ones, `u` with four hexadecimal
digits, and one to three octal digits.  Each stands for units of sixteen bits.  A text needs every
high surrogate directly before a low one; a character is exactly one unit that is no surrogate.
-/

namespace DocAnnotations

open Text

/-- The units of a character: one, or two for those outside the basic plane. -/
def unitsOfChar (c : Char) : List UInt16 :=
  if c.toNat < 0x10000 then [UInt16.ofNat c.toNat]
  else
    let n := c.toNat - 0x10000
    [UInt16.ofNat (0xd800 + n / 0x400), UInt16.ofNat (0xdc00 + n % 0x400)]

/-- The text that units stand for, if every surrogate has its partner. -/
def charsOfUnits : List UInt16 → Option (List Char)
  | [] => some []
  | high :: units =>
    if high < 0xd800 || 0xdfff < high then (charsOfUnits units).map (Char.ofNat high.toNat :: ·)
    else if 0xdbff < high then none
    else match units with
      | [] => none
      | low :: units =>
        if low < 0xdc00 || 0xdfff < low then none
        else
          let n := 0x10000 + (high.toNat - 0xd800) * 0x400 + (low.toNat - 0xdc00)
          (charsOfUnits units).map (Char.ofNat n :: ·)

/-- The unit of a named escape. -/
def namedEscape? : Char → Option UInt16
  | 'b' => some 0x08
  | 't' => some 0x09
  | 'n' => some 0x0a
  | 'f' => some 0x0c
  | 'r' => some 0x0d
  | '"' => some 0x22
  | '\'' => some 0x27
  | '\\' => some 0x5c
  | _ => none

/-- An octal digit. -/
def isOctalDigit (c : Char) : Bool := (digitOf? 8 c).isSome

/-- The unit of the escape that starts with `c` behind its backslash, and how many of the following
characters belong to it.  An escape that starts above `3` has one octal digit more at most, any
other octal escape two. -/
def escape? (c : Char) (cs : List Char) : Option (UInt16 × Nat) :=
  if c = 'u' then
    let marks := (cs.takeWhile (· == 'u')).length
    let digits := (cs.drop marks).take 4
    if digits.length = 4 then
      (numberOf? 16 digits).map fun n => (UInt16.ofNat n, marks + 4)
    else none
  else if isOctalDigit c then
    let more := (cs.take (if c ≤ '3' then 2 else 1)).takeWhile isOctalDigit
    (numberOf? 8 (c :: more)).map fun n => (UInt16.ofNat n, more.length)
  else (namedEscape? c).map fun unit => (unit, 0)

/-- The units that the inside of a literal stands for; the first `skip` characters belong to the
escape before. -/
def unescape : (skip : Nat) → List Char → Option (List UInt16)
  | _, [] => some []
  | skip + 1, _ :: cs => unescape skip cs
  | 0, c :: cs =>
    if c = '\\' then
      match cs with
      | [] => none
      | e :: after =>
        match escape? e after with
        | some (unit, more) => (unescape (more + 1) cs).map (unit :: ·)
        | none => none
    else (unescape 0 cs).map (unitsOfChar c ++ ·)

/-- The text between quotes of the same kind. -/
def unquote? : List Char → Option (List Char)
  | [] => none
  | quote :: cs =>
    match cs.getLast? with
    | some last =>
      if quote = last && (quote = '"' || quote = '\'') then some cs.dropLast else none
    | none => none

/-- The units that a quoted literal stands for. -/
def quotedUnits? (cs : List Char) : Option (List UInt16) :=
  match unquote? cs with
  | some inner => unescape 0 inner
  | none => none

/-- The text that a quoted literal stands for. -/
def stringLiteral? (cs : List Char) : Option String :=
  match quotedUnits? cs with
  | some units => (charsOfUnits units).map String.ofList
  | none => none

/-- The character that a quoted literal stands for. -/
def charLiteral? (cs : List Char) : Option Char :=
  match quotedUnits? cs with
  | some [unit] => if unit.toNat.isValidChar then some (Char.ofNat unit.toNat) else none
  | _ => none

end DocAnnotations
