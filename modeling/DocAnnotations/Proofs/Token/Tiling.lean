import DocAnnotations.Proofs.Token.Number
import Mathlib.Data.String.Basic

/-!
# Tokens and their text

The lexer's run as a relation: a text is `Tiled` by tokens when they stand in it in order, each at
its span and as the lexer cuts it before what follows, with blanks around them, and the end of input
closes them (`tokensFrom_iff_tiled`).  All that tokens and text have to do with each other is read
off this relation by induction.

**Bytes.**  `splitBytes?_iff` and `slice?_iff` say what a span of bytes cuts out of a text: the part
between two others, where the bytes end between characters.

**The run.**  `tokensFrom_cons_iff` takes one token off a text and `tokensFrom_blanks` the blanks in
front of it.  **`tokensFrom_iff_tiled`**: the lexer finds tokens exactly where a text is tiled by
them.
-/

namespace DocAnnotations

open Text

variable {offset more : Nat} {c : Char} {cs gap rest w : List Char} {kind : TokenKind} {t : Token}
  {ts tokens : List Token} {text part : String} {span : Span}

/-! ## Bytes and slices -/

lemma byteCount_eq_utf8Len : ∀ cs : List Char, byteCount cs = String.utf8Len cs
  | [] => rfl
  | c :: cs => by
      rw [byteCount, String.utf8Len_cons, byteCount_eq_utf8Len cs, Nat.add_comm]

lemma byteCount_append (cs ds : List Char) :
    byteCount (cs ++ ds) = byteCount cs + byteCount ds := by
  simp only [byteCount_eq_utf8Len, String.utf8Len_append]

/-- The size of a text is the number of bytes of its characters. -/
lemma utf8ByteSize_eq (text : String) : text.utf8ByteSize = byteCount text.toList := by
  rw [byteCount_eq_utf8Len, String.utf8Len_toList]

/-- The characters at the front that take exactly so many bytes, and the rest.  There are none when
the count ends within a character or behind the text. -/
def splitBytes? : Nat → List Char → Option (List Char × List Char)
  | n, [] => if n = 0 then some ([], []) else none
  | n, c :: cs =>
    if n = 0 then some ([], c :: cs)
    else if n < c.utf8Size then none
    else (splitBytes? (n - c.utf8Size) cs).map fun (front, rest) => (c :: front, rest)

/-- The part of a text at a span, if the span is on boundaries of characters. -/
def Span.slice? (span : Span) (text : String) : Option String :=
  if span.stop < span.start then none
  else do
    let (_, rest) ← splitBytes? span.start text.toList
    let (front, _) ← splitBytes? (span.stop - span.start) rest
    return String.ofList front

/-- A text is split at a number of bytes if and only if it has a front of this number of bytes. -/
lemma splitBytes?_iff : ∀ {cs front rest : List Char} {n : Nat},
    splitBytes? n cs = some (front, rest) ↔ cs = front ++ rest ∧ byteCount front = n
  | [], front, rest, n => by
      rw [splitBytes?]
      constructor
      · intro h
        split_ifs at h with none
        cases h
        exact ⟨rfl, none.symm⟩
      · rintro ⟨nil, rfl⟩
        obtain ⟨rfl, rfl⟩ := List.append_eq_nil_iff.1 nil.symm
        rfl
  | c :: cs, front, rest, n => by
      have pos := c.utf8Size_pos
      rw [splitBytes?]
      constructor
      · intro h
        split_ifs at h with none
        · cases h
          exact ⟨rfl, none.symm⟩
        · obtain ⟨⟨front', rest'⟩, split, same⟩ := Option.map_eq_some_iff.1 h
          cases same
          obtain ⟨rfl, count⟩ := splitBytes?_iff.1 split
          refine ⟨rfl, ?_⟩
          rw [byteCount, count]
          omega
      · rintro ⟨same, rfl⟩
        cases front with
        | nil =>
            rw [List.nil_append] at same
            subst same
            rfl
        | cons d front =>
            rw [List.cons_append, List.cons.injEq] at same
            obtain ⟨rfl, rfl⟩ := same
            have inner : splitBytes? (byteCount front) (front ++ rest) = some (front, rest) :=
              splitBytes?_iff.2 ⟨rfl, rfl⟩
            rw [byteCount, if_neg (by omega), if_neg (by omega), Nat.add_sub_cancel_left, inner]
            rfl

/-- A slice is a part of the text with as many bytes in front of it and up to its end as the span
says. -/
lemma slice?_iff : span.slice? text = some part ↔ ∃ before after : List Char,
    text.toList = before ++ part.toList ++ after ∧ byteCount before = span.start ∧
      byteCount (before ++ part.toList) = span.stop := by
  unfold Span.slice?
  constructor
  · intro h
    split_ifs at h with order
    simp only [Option.bind_eq_bind, Option.bind_eq_some_iff, Prod.exists] at h
    obtain ⟨before, others, split, front, after, split', same⟩ := h
    cases same
    obtain ⟨whole, start⟩ := splitBytes?_iff.1 split
    obtain ⟨rfl, length⟩ := splitBytes?_iff.1 split'
    refine ⟨before, after, ?_, start, ?_⟩
    · rw [String.toList_ofList, whole, List.append_assoc]
    · rw [String.toList_ofList, byteCount_append]
      omega
  · rintro ⟨before, after, whole, start, stop⟩
    rw [byteCount_append] at stop
    rw [if_neg (by omega)]
    simp only [Option.bind_eq_bind, Option.bind_eq_some_iff, Prod.exists]
    refine ⟨before, _, splitBytes?_iff.2 ⟨?_, start⟩, part.toList, after,
      splitBytes?_iff.2 ⟨rfl, by omega⟩, ?_⟩
    · rw [whole, List.append_assoc]
    · exact congrArg some String.ofList_toList

/-! ## The run of the lexer -/

/-- What is left of a text behind an unclosed literal is nothing. -/
lemma eq_length_of_unterminated (h : scanToken offset c cs = .ok (.unterminated, more)) :
    more = cs.length := by
  rcases scanToken_shape c with ⟨_, mark, -, -, scan⟩ | ⟨quoted, kinds, -, scan⟩ | scan
  · rw [scan] at h
    cases h
    cases mark
  · rw [scan, scanQuoted] at h
    split at h
    · cases h
      rcases kinds with same | same <;> cases same
    · cases h
      rfl
  · rw [scan] at h
    split_ifs at h
    · cases isWord_kind? (scanNumber_ok h).1
    · cases h
    · have word : (scanName c cs).1.isWord = true := isWord_scanName
      rw [Except.ok.inj h] at word
      cases word

lemma le_length_of_scanToken (h : scanToken offset c cs = .ok (kind, more)) :
    more ≤ cs.length := by
  by_cases open' : kind = .unterminated
  · subst open'
    exact (eq_length_of_unterminated h).le
  · exact length_of_scanToken open' h

/-- The first token of a text that does not start with a blank, and those behind it. -/
lemma tokensFrom_cons_iff (inked : isBlank c = false) :
    tokensFrom offset 0 (c :: cs) = .ok tokens ↔ ∃ kind w rest others, cs = w ++ rest ∧
      scanToken 0 c (w ++ rest) = .ok (kind, w.length) ∧
      tokensFrom (offset + byteCount (c :: w)) 0 rest = .ok others ∧
      tokens = ⟨kind, String.ofList (c :: w), ⟨offset, offset + byteCount (c :: w)⟩⟩ :: others := by
  have size : ∀ w : List Char, (String.ofList (c :: w)).utf8ByteSize = byteCount (c :: w) :=
    fun w => by rw [utf8ByteSize_eq, String.toList_ofList]
  rw [tokensFrom_cons_ok inked]
  constructor
  · rintro ⟨kind, more, others, scan, next, rfl⟩
    have length : (cs.take more).length = more :=
      List.length_take_of_le (le_length_of_scanToken scan)
    refine ⟨kind, cs.take more, cs.drop more, others, (List.take_append_drop more cs).symm, ?_, ?_,
      by rw [size]⟩
    · rw [List.take_append_drop, length]
      exact scanToken_offset scan
    · have skip := tokensFrom_skip (cs.take more) (cs.drop more) (offset + c.utf8Size)
      rw [length, List.take_append_drop, Nat.add_assoc] at skip
      exact skip.symm.trans next
  · rintro ⟨kind, w, rest, others, rfl, scan, next, rfl⟩
    refine ⟨kind, w.length, others, scanToken_offset scan, ?_, by rw [List.take_left, size]⟩
    rwa [tokensFrom_skip, Nat.add_assoc]

/-- Blanks in front of a text only move the offset on. -/
lemma tokensFrom_blanks (blank : ∀ c ∈ gap, isBlank c = true) (rest : List Char) :
    tokensFrom offset 0 (gap ++ rest) = tokensFrom (offset + byteCount gap) 0 rest := by
  induction gap generalizing offset with
  | nil => rfl
  | cons c gap ih =>
      obtain ⟨first, others⟩ := List.forall_mem_cons.1 blank
      rw [List.cons_append, tokensFrom_cons_blank first, ih others, byteCount, Nat.add_assoc]

/-- The token is what the lexer cuts off the front of a text that goes on with `rest`. -/
def Token.Scans (t : Token) (rest : List Char) : Prop :=
  ∃ c w, t.text.toList = c :: w ∧ isBlank c = false ∧
    scanToken 0 c (w ++ rest) = .ok (t.kind, w.length)

/-- The tokens stand in order in a text that starts at the offset, each at its span and as the lexer
cuts it there, with nothing but blanks around them; the end of input closes them. -/
inductive Tiled : Nat → List Char → List Token → Prop
  | closing {offset : Nat} {gap : List Char} (blank : ∀ c ∈ gap, isBlank c = true) :
      Tiled offset gap [Token.endOfInput (offset + byteCount gap)]
  | token {offset : Nat} {gap rest : List Char} {t : Token} {ts : List Token}
      (blank : ∀ c ∈ gap, isBlank c = true) (scans : t.Scans rest)
      (start : t.span.start = offset + byteCount gap)
      (stop : t.span.stop = t.span.start + byteCount t.text.toList)
      (others : Tiled t.span.stop rest ts) : Tiled offset (gap ++ t.text.toList ++ rest) (t :: ts)

namespace Tiled

lemma nothing : Tiled offset [] [Token.endOfInput offset] := @closing offset [] (by simp)

/-- A token with no gap before it. -/
lemma adjacent (scans : t.Scans rest)
    (stop : t.span.stop = t.span.start + byteCount t.text.toList)
    (others : Tiled t.span.stop rest ts) : Tiled t.span.start (t.text.toList ++ rest) (t :: ts) :=
  @token t.span.start [] rest t ts (by simp) scans rfl stop others

/-- A blank in front belongs to the first gap. -/
lemma cons_blank (blank : isBlank c = true) (h : Tiled (offset + c.utf8Size) cs tokens) :
    Tiled offset (c :: cs) tokens := by
  cases h with
  | closing gap =>
      rw [Nat.add_assoc]
      exact closing (List.forall_mem_cons.2 ⟨blank, gap⟩)
  | token gap scans start stop others =>
      exact @token _ (c :: _) _ _ _ (List.forall_mem_cons.2 ⟨blank, gap⟩) scans
        (by rw [start, byteCount, Nat.add_assoc]) stop others

end Tiled

/-- **The lexer's tokens are those that tile the text.** -/
theorem tokensFrom_iff_tiled : tokensFrom offset 0 cs = .ok tokens ↔ Tiled offset cs tokens := by
  constructor
  · induction length : cs.length using Nat.strongRecOn generalizing cs offset tokens with
    | ind n ih =>
      intro h
      cases cs with
      | nil =>
          rw [tokensFrom] at h
          cases h
          exact Tiled.nothing
      | cons c cs =>
          rw [List.length_cons] at length
          cases ink : isBlank c with
          | true =>
              rw [tokensFrom_cons_blank ink] at h
              exact (ih cs.length (by omega) rfl h).cons_blank ink
          | false =>
              obtain ⟨kind, w, rest, others, rfl, scan, next, rfl⟩ := (tokensFrom_cons_iff ink).1 h
              rw [List.length_append] at length
              have tiled := Tiled.adjacent
                (t := ⟨kind, String.ofList (c :: w), ⟨offset, offset + byteCount (c :: w)⟩⟩)
                ⟨c, w, String.toList_ofList, ink, scan⟩ (by rw [String.toList_ofList])
                (ih rest.length (by omega) rfl next)
              rwa [String.toList_ofList] at tiled
  · intro h
    induction h with
    | @closing offset gap blank =>
        have all : tokensFrom offset 0 (gap ++ []) = _ := tokensFrom_blanks blank []
        rwa [List.append_nil] at all
    | @token offset gap rest t ts blank scans start stop others ih =>
        obtain ⟨c, w, same, ink, scan⟩ := scans
        rw [List.append_assoc, tokensFrom_blanks blank, ← start, same, List.cons_append,
          tokensFrom_cons_iff ink]
        rw [stop, same] at ih
        refine ⟨t.kind, w, rest, ts, rfl, scan, ih, ?_⟩
        obtain ⟨kind, text, span⟩ := t
        rw [← same, String.ofList_toList]
        exact congrArg (fun span => (⟨kind, text, span⟩ : Token) :: ts)
          (congrArg (Span.mk span.start) (by rw [← stop]))

end DocAnnotations
