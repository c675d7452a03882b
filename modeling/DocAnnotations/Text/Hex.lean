import DocAnnotations.Text.Digit
import DocAnnotations.Text.Printable

/-!
# Bytes in hexadecimal

Each byte is two hexadecimal digits.  Writing uses lower case; reading takes either case and nothing
but digits.
-/

namespace DocAnnotations.Text

/-- Why a text is no hexadecimal. -/
inductive HexError where
  | oddLength
  /-- A byte of the text that is no digit, and its place. -/
  | invalidCharacter (byte : UInt8) (position : Nat)
deriving DecidableEq

/-- The text of the error; a byte is shown as the character of that number. -/
def HexError.message : HexError → String
  | oddLength => "Odd number of digits"
  | invalidCharacter byte position =>
    s!"Invalid character {shownBetweenApostrophes (Char.ofNat byte.toNat)} at position {position}"

/-- The digits of bytes. -/
def hexDigits : List UInt8 → List Char
  | [] => []
  | b :: bs => Nat.digitChar (b.toNat / 16) :: Nat.digitChar (b.toNat % 16) :: hexDigits bs

/-- Bytes in lower-case hexadecimal. -/
def hexOfBytes (bytes : List UInt8) : String := String.ofList (hexDigits bytes)

/-- The value of the digit at a place. -/
def hexDigitAt (position : Nat) (byte : UInt8) : Except HexError Nat :=
  match digitOf? 16 (Char.ofNat byte.toNat) with
  | some d => .ok d
  | none => .error (.invalidCharacter byte position)

/-- The bytes that pairs of digits stand for; the pairs start at the given place. -/
def bytesOfDigits : (position : Nat) → List UInt8 → Except HexError (List UInt8)
  | _, [] => .ok []
  | _, [_] => .error .oddLength
  | position, high :: low :: rest => do
    let h ← hexDigitAt position high
    let l ← hexDigitAt (position + 1) low
    return UInt8.ofNat (16 * h + l) :: (← bytesOfDigits (position + 2) rest)

/-- The bytes that a hexadecimal text stands for.  That a digit is missing is noticed first. -/
def bytesOfHex (text : String) : Except HexError (List UInt8) :=
  if text.utf8ByteSize % 2 = 1 then .error .oddLength
  else bytesOfDigits 0 text.toUTF8.toList

end DocAnnotations.Text
