import DocAnnotations.Text.Blank
import DocAnnotations.Text.Digit
import DocAnnotations.Text.Letter
import DocAnnotations.Token

/-!
# From text to tokens

`tokenize` cuts a text into tokens.  Nothing but blanks between tokens is left out, and every token
is as long as its kind allows.

**Names and numbers.**  Names are generous: a run goes on until a blank or a punctuation mark, dots
and brackets included, and what it means is decided later.  What begins with a digit is cut into the
parts of a number (`NumberText`), whose kind is that of the parts it has.

**Quoted literals.**  They go to the closing quote, and the character behind a backslash is passed
over.  One that is not closed is a token as well, up to the end of the text.

There is one text shape that cannot be classified, `LexError.splitCharacter`; every other text has
tokens.
-/

namespace DocAnnotations

open Text

/-- Why a text has no tokens. -/
inductive LexError where
  /-- A number with a long suffix is told octal from decimal by its characters up to its last
  byte; in the number that starts at the given offset that byte is part of a longer character. -/
  | splitCharacter (offset : Nat)
deriving DecidableEq

/-! ## Character classes -/

/-- The characters that end a name or a number, blanks apart. -/
def punctuation : List Char := ['(', ')', '{', '}', ',', ':', '!', '=', '@', '"', '\'']

/-- Whether a character continues a name: all but blanks and punctuation marks. -/
def isNameChar (c : Char) : Bool := !isBlank c && !punctuation.contains c

/-- Whether a name may start with the character where a number could also go on. -/
def isNameStart (c : Char) : Bool := isLetter c || c == '_' || c == '$'

/-! ## Numbers -/

/-- A number cut into its parts; the parts in order are the number. -/
structure NumberText where
  /-- A minus sign or nothing. -/
  sign : List Char
  /-- The mark of a hexadecimal number or nothing. -/
  mark : List Char
  /-- Digits, and the dots that belong to the number. -/
  digits : List Char
  /-- An exponent with its letter or nothing. -/
  exponent : List Char
  /-- One suffix letter or nothing. -/
  suffix : List Char
  /-- Name characters that follow without a gap; they make the number meaningless. -/
  trailer : List Char

namespace NumberText

/-- A leading minus sign and the rest. -/
def splitSign : List Char → List Char × List Char
  | '-' :: cs => (['-'], cs)
  | cs => ([], cs)

/-- A leading hexadecimal mark and the rest. -/
def splitMark : List Char → List Char × List Char
  | '0' :: x :: cs => if x == 'x' || x == 'X' then (['0', x], cs) else ([], '0' :: x :: cs)
  | cs => ([], cs)

/-- Whether a dot belongs to the number, given what follows it: it does unless a name follows.
Suffix and exponent letters (`1.f`, `1.e5`) still count as the number. -/
def dotContinues : List Char → Bool
  | [] => true
  | c :: cs =>
    if c == 'f' || c == 'F' || c == 'd' || c == 'D' then
      match cs with
      | [] => true
      | a :: _ => !isNameStart a && !a.isDigit
    else if c == 'e' || c == 'E' then
      match cs with
      | [] => false
      | a :: _ => a.isDigit || a == '+' || a == '-'
    else !isNameStart c

/-- The digits and dots at the front, and the rest. -/
def splitDigits : List Char → List Char × List Char
  | [] => ([], [])
  | c :: cs =>
    if c.isDigit || (c == '.' && dotContinues cs) then
      let (digits, rest) := splitDigits cs
      (c :: digits, rest)
    else ([], c :: cs)

/-- An exponent at the front, and the rest.  Its letter needs a digit or a sign behind it; the
digits behind a sign may be missing. -/
def splitExponent : List Char → List Char × List Char
  | e :: s :: cs =>
    if (e == 'e' || e == 'E') && (s.isDigit || s == '+' || s == '-') then
      (e :: s :: cs.takeWhile Char.isDigit, cs.dropWhile Char.isDigit)
    else ([], e :: s :: cs)
  | cs => ([], cs)

/-- A leading character of the given class and the rest. -/
def splitOne (p : Char → Bool) : List Char → List Char × List Char
  | c :: cs => if p c then ([c], cs) else ([], c :: cs)
  | [] => ([], [])

/-- A suffix that makes a number a float. -/
def isFloatSuffix (c : Char) : Bool := c == 'f' || c == 'F' || c == 'd' || c == 'D'

/-- A suffix that makes a number a long. -/
def isLongSuffix (c : Char) : Bool := c == 'l' || c == 'L'

/-- The number at the front of a text. -/
def split (cs : List Char) : NumberText :=
  let (sign, cs) := splitSign cs
  let (mark, cs) := splitMark cs
  if mark.isEmpty then
    let (digits, cs) := splitDigits cs
    let (exponent, cs) := splitExponent cs
    let whole := !digits.contains '.' && exponent.isEmpty
    let (suffix, cs) := splitOne (fun c => isFloatSuffix c || (whole && isLongSuffix c)) cs
    { sign, mark, digits, exponent, suffix
      trailer := cs.takeWhile fun c => isNameChar c && c != '.' }
  else
    let (suffix, rest) := splitOne isLongSuffix (cs.dropWhile isHexDigit)
    { sign, mark, digits := cs.takeWhile isHexDigit, exponent := [], suffix
      trailer := rest.takeWhile fun c => isNameChar c && c != '.' }

/-- The parts in order. -/
def chars (n : NumberText) : List Char :=
  n.sign ++ n.mark ++ n.digits ++ n.exponent ++ n.suffix ++ n.trailer

/-- A zero with anything behind it makes a whole number octal. -/
def wholeKind (body : List Char) : TokenKind :=
  if body.head? == some '0' && body.length > 1 then .octal else .integer

/-- The kind of a number, or nothing when its last byte cannot be cut off. -/
def kind? (n : NumberText) : Option TokenKind :=
  if !n.mark.isEmpty then some .hex
  else if n.digits.contains '.' || !n.exponent.isEmpty || n.suffix.any isFloatSuffix then
    some .float
  else
    let body := n.digits ++ n.suffix ++ n.trailer
    if n.suffix.isEmpty then some (wholeKind body)
    else match body.getLast? with
      | some last => if last.utf8Size = 1 then some (wholeKind body.dropLast) else none
      | none => none

end NumberText

/-! ## Tokens -/

/-- How many characters a quoted literal goes on behind its opening quote, the closing quote
included; nothing when it is not closed.  A backslash takes the next character with it. -/
def quotedLength (quote : Char) : List Char → Option Nat
  | [] => none
  | c :: cs =>
    if c == '\\' then
      match cs with
      | [] => none
      | _ :: cs => (quotedLength quote cs).map (· + 2)
    else if c == quote then some 1
    else (quotedLength quote cs).map (· + 1)

/-- A quoted literal, given what follows its opening quote: its kind and how many characters
follow the first.  An unclosed literal takes the rest of the text. -/
def scanQuoted (quote : Char) (kind : TokenKind) (cs : List Char) : TokenKind × Nat :=
  match quotedLength quote cs with
  | some n => (kind, n)
  | none => (.unterminated, cs.length)

/-- A name or truth value that starts with `c`. -/
def scanName (c : Char) (cs : List Char) : TokenKind × Nat :=
  let more := cs.takeWhile isNameChar
  let lower := (c :: more).map Char.toLower
  (if lower == "true".toList || lower == "false".toList then .boolean else .identifier,
    more.length)

/-- A number at the given offset that starts with `c`. -/
def scanNumber (offset : Nat) (c : Char) (cs : List Char) :
    Except LexError (TokenKind × Nat) :=
  let number := NumberText.split (c :: cs)
  match number.kind? with
  | some kind => .ok (kind, number.chars.length - 1)
  | none => .error (.splitCharacter offset)

/-- Whether a sign or dot starts a number, given what follows it. -/
def startsNumber (c : Char) (cs : List Char) : Bool :=
  match cs with
  | [] => false
  | a :: _ => a.isDigit || (c == '-' && a == '.')

/-- The token that starts with the non-blank character `c`: its kind and how many of the
following characters belong to it. -/
def scanToken (offset : Nat) (c : Char) (cs : List Char) : Except LexError (TokenKind × Nat) :=
  match c with
  | '(' => .ok (.leftParen, 0)
  | ')' => .ok (.rightParen, 0)
  | '{' => .ok (.leftBrace, 0)
  | '}' => .ok (.rightBrace, 0)
  | ',' => .ok (.comma, 0)
  | ':' => .ok (.colon, 0)
  | '!' => .ok (.bang, 0)
  | '=' => .ok (.equals, 0)
  | '@' => .ok (.atSign, 0)
  | '"' => .ok (scanQuoted '"' .string cs)
  | '\'' => .ok (scanQuoted '\'' .char cs)
  | '.' => if startsNumber '.' cs then scanNumber offset '.' cs else .ok (.dot, 0)
  | '-' => if startsNumber '-' cs then scanNumber offset '-' cs else .ok (scanName '-' cs)
  | c => if c.isDigit then scanNumber offset c cs else .ok (scanName c cs)

/-- The tokens of the rest of a text that starts at `offset`; the first `skip` characters belong
to the token before.  The list ends with the end of input. -/
def tokensFrom : (offset skip : Nat) → List Char → Except LexError (List Token)
  | offset, _, [] => .ok [Token.endOfInput offset]
  | offset, skip + 1, c :: cs => tokensFrom (offset + c.utf8Size) skip cs
  | offset, 0, c :: cs =>
    if isBlank c then tokensFrom (offset + c.utf8Size) 0 cs
    else do
      let (kind, more) ← scanToken offset c cs
      let text := String.ofList (c :: cs.take more)
      let rest ← tokensFrom (offset + c.utf8Size) more cs
      return ⟨kind, text, ⟨offset, offset + text.utf8ByteSize⟩⟩ :: rest

/-- The tokens of a text. -/
def tokenize (text : String) : Except LexError (List Token) := tokensFrom 0 0 text.toList

end DocAnnotations
