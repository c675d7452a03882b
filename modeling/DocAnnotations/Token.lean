/-!
# Tokens

A token is a run of a literal's text with its kind and its place.

**Kinds.**  Punctuation marks have a kind each, and so have names, the kinds of literals, and
literals whose quote is not closed.  Literal tokens keep their raw text, quotes and suffixes
included: what `1` means depends on the element it is written for.

**Places.**  A `Span` counts the bytes of the text in UTF-8, from its start to behind its end.
-/

namespace DocAnnotations

/-- A range of byte offsets, the end excluded. -/
structure Span where
  start : Nat := 0
  stop : Nat := 0
deriving DecidableEq, Inhabited

/-- The smallest span that covers both spans. -/
def Span.to (a b : Span) : Span := ⟨min a.start b.start, max a.stop b.stop⟩

/-- The kinds of token. -/
inductive TokenKind where
  | identifier
  | integer
  | float
  | hex
  | octal
  | string
  | char
  | boolean
  | leftParen
  | rightParen
  | leftBrace
  | rightBrace
  | comma
  | dot
  | colon
  | bang
  | equals
  | atSign
  /-- A string or character literal without its closing quote. -/
  | unterminated
  | endOfInput
deriving DecidableEq, Inhabited

namespace TokenKind

/-- The words by which messages name a kind. -/
def describe : TokenKind → String
  | identifier => "identifier"
  | integer => "integer literal"
  | float => "float literal"
  | hex => "hex literal"
  | octal => "octal literal"
  | string => "string literal"
  | char => "char literal"
  | boolean => "boolean literal"
  | leftParen => "`(`"
  | rightParen => "`)`"
  | leftBrace => "`\x7b`"
  | rightBrace => "`\x7d`"
  | comma => "`,`"
  | dot => "`.`"
  | colon => "`:`"
  | bang => "`!`"
  | equals => "`=`"
  | atSign => "`@`"
  | unterminated => "unterminated literal"
  | endOfInput => "end of input"

/-- Whether tokens of this kind are literal values; names are not. -/
def isLiteral : TokenKind → Bool
  | integer | float | hex | octal | string | char | boolean => true
  | _ => false

end TokenKind

/-- A token with its raw text and its place. -/
structure Token where
  kind : TokenKind
  text : String
  span : Span
deriving DecidableEq, Inhabited

namespace Token

/-- The token that stands after the last character, at the given offset. -/
def endOfInput (offset : Nat) : Token := ⟨.endOfInput, "", ⟨offset, offset⟩⟩

/-- The token as a message shows it. -/
def render (t : Token) : String :=
  if t.kind = .endOfInput then "end of input" else t.text

end Token

end DocAnnotations
