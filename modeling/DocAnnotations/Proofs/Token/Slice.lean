import DocAnnotations.Proofs.Node.Respanned
import DocAnnotations.Proofs.Token.Lossless

/-!
# Slices have the same tokens

A slice of a text from the start of a token to the end of another ends the text earlier.  The lexer
looks ahead behind words only, and a word in front of a mark ends there anyway.

**Tokens before another rest.**  `Token.Scans.of_mark` and `Token.Scans.of_stops` exchange what
follows a token, and a tiling can be moved back with all its places (`Tiled.cons_earlier`).

**Slices of texts.**  **`exists_slice`**: where the tokens of a slice are words and marks, no two
words are neighbours, and a mark comes next, they are cut from the slice alone as they are cut from
the text, moved to the front.
-/

namespace DocAnnotations

open Text

variable {offset bytes : Nat} {cs rest other : List Char} {t u last : Token} {ts us : List Token}
  {text : String} {span : Span}

/-! ## Tokens before another rest -/

/-- A token that may end in front of a text may end in front of a part of it. -/
lemma Stops.of_append {w : List Char} (stops : Stops (w ++ rest)) : Stops w := by
  cases w with
  | nil => exact stops_nil
  | cons c w => exact stops_cons.2 (stops_cons.1 stops)

namespace Token.Scans

/-- A token of the kind of a mark is this mark. -/
lemma exists_mark (h : t.Scans rest) (mark : t.kind.isMark = true) :
    ∃ c, (c, t.kind) ∈ marks ∧ t.text.toList = [c] := by
  have quoted : t.kind ≠ .string ∧ t.kind ≠ .char ∧ t.kind ≠ .unterminated := by
    refine ⟨?_, ?_, ?_⟩ <;> intro kind <;> rw [kind] at mark <;> cases mark
  rcases h.plain quoted.1 quoted.2.1 quoted.2.2 with names | found
  · obtain ⟨c, w, same, -, scan⟩ := h
    have first : isNameChar c = true := names c (by rw [same]; exact List.mem_cons_self)
    rcases kind_of_scanToken scan with ⟨-, -, stop⟩ | kind | kind | word
    · rw [first] at stop
      cases stop
    · exact absurd kind quoted.2.2
    · rw [kind] at mark
      cases mark
    · rw [TokenKind.isMark_of_isWord word] at mark
      cases mark
  · exact found

/-- What comes behind a mark does not matter. -/
lemma of_mark (h : t.Scans rest) (mark : t.kind.isMark = true) (other : List Char) :
    t.Scans other := by
  obtain ⟨c, listed, same⟩ := h.exists_mark mark
  exact ⟨c, [], same, (of_mem_marks listed).2.1, scanToken_mark listed 0 _⟩

/-- What comes behind a word does not matter as long as the word stops there. -/
lemma of_stops (h : t.Scans rest) (word : t.kind.isWord = true) (stops : Stops rest)
    (stops' : Stops other) : t.Scans other := by
  have closed : t.kind ≠ .unterminated := by
    intro open'
    rw [open'] at word
    cases word
  obtain ⟨c, w, same, inked, scan⟩ := h
  exact ⟨c, w, same, inked,
    (scanToken_append stops' closed).2 ((scanToken_append stops closed).1 scan)⟩

end Token.Scans

namespace Tiled

lemma stops (h : Tiled offset cs (t :: ts)) (mark : t.kind.isMark = true) : Stops cs :=
  stops_of_mark (tokensFrom_iff_tiled.2 h) mark

/-- Blanks in front of tiled text leave it tiled, with the offset before them. -/
lemma blanks {gap : List Char} (blank : ∀ c ∈ gap, isBlank c = true) : ∀ {offset : Nat},
    Tiled (offset + byteCount gap) cs ts → Tiled offset (gap ++ cs) ts := by
  induction gap with
  | nil => exact fun h => h
  | cons c gap ih =>
      obtain ⟨first, others⟩ := List.forall_mem_cons.1 blank
      intro offset h
      rw [byteCount, ← Nat.add_assoc] at h
      exact (ih others h).cons_blank first

/-- What is behind some of the tokens is tiled by the others. -/
lemma behind (some : us ≠ []) : ∀ {ts : List Token} {offset : Nat} {cs : List Char},
    Tiled offset cs (ts ++ us) → ∃ front rest, cs = front ++ rest ∧
      Tiled (offset + byteCount front) rest us
  | [], offset, cs, h => ⟨[], cs, rfl, h⟩
  | t :: ts, offset, cs, h => by
      rw [List.cons_append] at h
      generalize whole : ts ++ us = others at h
      cases h with
      | closing => exact absurd (List.append_eq_nil_iff.1 whole).2 some
      | @token _ gap rest _ _ blank scans start stop others =>
          rw [← whole] at others
          obtain ⟨front, rest, rfl, tiled⟩ := behind some others
          refine ⟨gap ++ t.text.toList ++ front, rest, by simp only [List.append_assoc], ?_⟩
          rw [stop, start] at tiled
          rwa [byteCount_append, byteCount_append, ← Nat.add_assoc, ← Nat.add_assoc]

/-- A token that is not the last in a tiled text. -/
lemma exists_of_cons (h : Tiled offset cs (t :: u :: us)) : ∃ gap rest,
    cs = gap ++ t.text.toList ++ rest ∧ (∀ c ∈ gap, isBlank c = true) ∧ t.Scans rest ∧
      t.span.start = offset + byteCount gap ∧
      t.span.stop = t.span.start + byteCount t.text.toList ∧ Tiled t.span.stop rest (u :: us) := by
  cases h with
  | token blank scans start stop others => exact ⟨_, _, rfl, blank, scans, start, stop, others⟩

/-- A token may be put in front of tiled text, also when all places are moved back. -/
lemma cons_earlier (scans : t.Scans cs) (few : bytes ≤ t.span.start)
    (stop : t.span.stop = t.span.start + byteCount t.text.toList)
    (others : Tiled (t.span.stop - bytes) cs ts) :
    Tiled (t.span.start - bytes) (t.text.toList ++ cs)
      (t.respan (Span.earlier bytes) :: ts) := by
  refine Tiled.adjacent (t := t.respan (Span.earlier bytes)) scans ?_ others
  change t.span.stop - bytes = t.span.start - bytes + byteCount t.text.toList
  omega

/-- A word or a mark that is followed by a mark is the same before a part of what follows it. -/
lemma scans_front (front : List Char) (kind : t.kind.isWord = true ∨ t.kind.isMark = true)
    (apart : t.kind.isWord = true → u.kind.isMark = true) (scans : t.Scans (front ++ rest))
    (others : Tiled offset (front ++ rest) (u :: us)) : t.Scans front := by
  rcases kind with word | mark
  · have stops := others.stops (apart word)
    exact scans.of_stops word stops stops.of_append
  · exact scans.of_mark mark front

/-- The front of a tiled text, up to the end of a token before a mark, is tiled by the tokens there
when these are moved. -/
lemma slice (mark : u.kind.isMark = true) : ∀ {ts : List Token} {t : Token} {offset : Nat}
    {cs : List Char}, Tiled offset cs (t :: ts ++ u :: us) → WordsApart (t :: ts) →
    (∀ x ∈ t :: ts, x.kind.isWord = true ∨ x.kind.isMark = true) → bytes ≤ t.span.start →
    ∀ last ∈ (t :: ts).getLast?, ∃ gap body rest, cs = gap ++ body ++ rest ∧
      (∀ c ∈ gap, isBlank c = true) ∧ t.span.start = offset + byteCount gap ∧
      last.span.stop = t.span.start + byteCount body ∧
      Tiled (t.span.start - bytes) body ((t :: ts).map (Token.respan (Span.earlier bytes)) ++
        [Token.endOfInput (last.span.stop - bytes)])
  | [], t, offset, cs, h, apart, kinds, few, last, final => by
      cases Option.mem_some_iff.1 final
      obtain ⟨gap, rest, rfl, blank, scans, start, stop, others⟩ := h.exists_of_cons
      refine ⟨gap, t.text.toList, rest, rfl, blank, start, stop, ?_⟩
      have alone : t.Scans [] := scans_front [] (kinds t List.mem_cons_self) (fun _ => mark) scans
        others
      have closed := cons_earlier alone few stop .nothing
      rwa [List.append_nil] at closed
  | x :: ts, t, offset, cs, h, apart, kinds, few, last, final => by
      obtain ⟨gap, rest, rfl, blank, scans, start, stop, others⟩ := h.exists_of_cons
      have later := others.le_start x List.mem_cons_self
      obtain ⟨gap', body, rest, rfl, blank', start', stop', tiled⟩ := slice mark others apart.tail
        (fun y mem => kinds y (List.mem_cons_of_mem _ mem)) (by omega) last (by simpa using final)
      refine ⟨gap, t.text.toList ++ (gap' ++ body), rest, by simp only [List.append_assoc], blank,
        start, ?_, ?_⟩
      · rw [stop', start', stop, byteCount_append, byteCount_append]
        omega
      · refine cons_earlier (scans_front (gap' ++ body) (kinds t List.mem_cons_self) apart.rel scans
          others) few stop (blanks blank' ?_)
        have moved : t.span.stop - bytes + byteCount gap' = x.span.start - bytes := by omega
        rw [moved]
        exact tiled

end Tiled

/-! ## Slices of texts -/

/-- A span goes from the start of the first token to the end of the last. -/
def Span.Frames (span : Span) (ts : List Token) : Prop :=
  ∃ first ∈ ts.head?, ∃ last ∈ ts.getLast?, span = ⟨first.span.start, last.span.stop⟩

/-- **Words and marks in front of a mark are cut from their slice as they are from the text.** -/
theorem exists_slice {front : List Token}
    (cut : tokenize text = .ok (front ++ ts ++ u :: us)) (frames : span.Frames ts)
    (apart : WordsApart ts) (kinds : ∀ t ∈ ts, t.kind.isWord = true ∨ t.kind.isMark = true)
    (mark : u.kind.isMark = true) : ∃ part, span.slice? text = some part ∧
      tokenize part = .ok (ts.map (Token.respan (Span.earlier span.start)) ++
        [Token.endOfInput (span.stop - span.start)]) := by
  obtain ⟨first, head, last, final, rfl⟩ := frames
  obtain ⟨ts, rfl⟩ := List.head?_eq_some_iff.1 head
  have tiled : Tiled 0 text.toList (front ++ (first :: ts ++ u :: us)) := by
    rw [← List.append_assoc]
    exact tokensFrom_iff_tiled.1 cut
  obtain ⟨before, behind, whole, tiled⟩ := tiled.behind (by simp)
  obtain ⟨gap, body, rest, rfl, -, start, stop, tiled⟩ :=
    tiled.slice mark apart kinds (le_refl first.span.start) last final
  rw [Nat.zero_add] at start
  refine ⟨String.ofList body, slice?_iff.2 ⟨before ++ gap, rest, ?_, ?_, ?_⟩, ?_⟩
  · rw [whole, String.toList_ofList]
    simp only [List.append_assoc]
  · rw [byteCount_append, start]
  · rw [byteCount_append, byteCount_append, String.toList_ofList, stop, start]
  · rw [tokenize, String.toList_ofList]
    rw [Nat.sub_self] at tiled
    exact tokensFrom_iff_tiled.2 tiled

end DocAnnotations
