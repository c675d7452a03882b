import DocAnnotations.Literal.Quoted
import DocAnnotations.Proofs.Text.Digit
import DocAnnotations.Proofs.Token.Lexeme
import Mathlib.Data.List.TakeWhile

/-!
# Escapes

What stands between the quotes of a literal is cut in two ways.  The lexer looks for the closing
quote and only skips the character behind each backslash; the resolver takes escapes of several
characters apart.  `SpellsUnits` says, without either, which units a text between quotes stands for.

**`spellsUnits_iff`**: where the lexer finds the closing quote behind all of the text, the resolver
reads exactly the units that the text spells.

**`SpellsUnits.quotedLength`**: and it finds the quote there behind each text that spells something,
because no escape has a backslash or a quote in it but in its first two characters.
-/

namespace DocAnnotations

open Text

/-! ## What escapes stand for -/

/-- The units of the escapes by name. -/
def namedEscapes : List (Char × UInt16) :=
  [('b', 0x08), ('t', 0x09), ('n', 0x0a), ('f', 0x0c), ('r', 0x0d), ('"', 0x22), ('\'', 0x27),
   ('\\', 0x5c)]

/-- How many digits an octal escape has at most, given the first of them. -/
def octalLimit (d : Char) : Nat := if d ≤ '3' then 3 else 2

/-- Characters behind a backslash, those that follow them, and the unit that they are the escape
of.  An octal escape takes all the digits that it may have. -/
inductive Escape : (chars rest : List Char) → (unit : UInt16) → Prop
  | named {c : Char} {rest : List Char} {unit : UInt16} (name : (c, unit) ∈ namedEscapes) :
      Escape [c] rest unit
  | hex {marks : Nat} {digits rest : List Char} (marked : 0 < marks) (four : digits.length = 4)
      (hex : ∀ d ∈ digits, isHexDigit d = true) :
      Escape (List.replicate marks 'u' ++ digits) rest (UInt16.ofNat (placeValue 16 digits))
  | octal {d : Char} {digits rest : List Char}
      (octal : ∀ x ∈ d :: digits, isOctalDigit x = true)
      (most : digits.length + 1 ≤ octalLimit d)
      (greedy : digits.length + 1 = octalLimit d ∨ ∀ x ∈ rest.head?, isOctalDigit x = false) :
      Escape (d :: digits) rest (UInt16.ofNat (placeValue 8 (d :: digits)))

/-- A text between quotes of a kind, and the units that it stands for. -/
inductive SpellsUnits (quote : Char) : List Char → List UInt16 → Prop
  | nothing : SpellsUnits quote [] []
  | raw {c : Char} {cs : List Char} {us : List UInt16} (apart : c ≠ quote) (plain : c ≠ '\\')
      (more : SpellsUnits quote cs us) : SpellsUnits quote (c :: cs) (unitsOfChar c ++ us)
  | escape {chars cs : List Char} {unit : UInt16} {us : List UInt16}
      (escape : Escape chars cs unit) (more : SpellsUnits quote cs us) :
      SpellsUnits quote ('\\' :: chars ++ cs) (unit :: us)

variable {quote c d : Char} {cs rest chars digits : List Char} {unit : UInt16} {us : List UInt16}
  {more n : Nat}

/-! ## Reading escapes -/

lemma namedEscape?_iff : namedEscape? c = some unit ↔ (c, unit) ∈ namedEscapes := by
  constructor
  · intro named
    unfold namedEscape? at named
    split at named <;> cases named <;> decide
  · intro mem
    simp only [namedEscapes, List.mem_cons, Prod.mk.injEq, List.not_mem_nil, or_false] at mem
    rcases mem with ⟨rfl, rfl⟩ | ⟨rfl, rfl⟩ | ⟨rfl, rfl⟩ | ⟨rfl, rfl⟩ | ⟨rfl, rfl⟩ | ⟨rfl, rfl⟩ |
      ⟨rfl, rfl⟩ | ⟨rfl, rfl⟩ <;> rfl

/-- The letters of named escapes start no other escape. -/
lemma apart_of_named (name : (c, unit) ∈ namedEscapes) : c ≠ 'u' ∧ isOctalDigit c = false := by
  have all : ∀ p ∈ namedEscapes, p.1 ≠ 'u' ∧ isOctalDigit p.1 = false := by decide
  exact all _ name

/-- An octal escape has up to three digits, or two if the first is greater than three. -/
lemma octalLimit_eq (d : Char) : octalLimit d = (if d ≤ '3' then 2 else 1) + 1 := by
  rw [octalLimit]
  split_ifs <;> rfl

/-- As many characters of a class as there are, up to a bound. -/
lemma takeWhile_take_iff {p : Char → Bool} : ∀ {k : Nat} {cs digits : List Char},
    (cs.take k).takeWhile p = digits ↔ ∃ rest, cs = digits ++ rest ∧ (∀ d ∈ digits, p d = true) ∧
      digits.length ≤ k ∧ (digits.length = k ∨ ∀ d ∈ rest.head?, p d = false)
  | 0, cs, digits => by
      constructor
      · rintro rfl
        exact ⟨cs, by simp⟩
      · rintro ⟨rest, -, -, none, -⟩
        rw [List.eq_nil_of_length_eq_zero (Nat.le_zero.1 none)]
        rfl
  | k + 1, [], digits => by
      constructor
      · rintro rfl
        exact ⟨[], by simp⟩
      · rintro ⟨rest, same, -⟩
        exact (List.append_eq_nil_iff.1 same.symm).1.symm
  | k + 1, c :: cs, digits => by
      rw [List.take_succ_cons, List.takeWhile_cons]
      cases fits : p c with
      | false =>
          constructor
          · rintro rfl
            exact ⟨c :: cs, by simp [fits]⟩
          · rintro ⟨rest, same, all, -⟩
            cases digits with
            | nil => rfl
            | cons d digits =>
                have first := all d List.mem_cons_self
                rw [← (List.cons.inj same).1, fits] at first
                cases first
      | true =>
          constructor
          · rintro rfl
            obtain ⟨rest, same, all, most, greedy⟩ := takeWhile_take_iff.1
              (rfl : (cs.take k).takeWhile p = (cs.take k).takeWhile p)
            refine ⟨rest, ?_, List.forall_mem_cons.2 ⟨fits, all⟩, Nat.succ_le_succ most,
              greedy.imp_left (congrArg Nat.succ)⟩
            rw [if_pos rfl, List.cons_append, ← same]
          · rintro ⟨rest, same, all, most, greedy⟩
            cases digits with
            | nil =>
                rcases greedy with full | stop
                · cases full
                · rw [List.nil_append] at same
                  rw [← same] at stop
                  exact absurd fits (by simp [stop c rfl])
            | cons d digits =>
                rw [List.cons_append, List.cons.injEq] at same
                obtain ⟨rfl, rfl⟩ := same
                rw [if_pos rfl, takeWhile_take_iff.2 ⟨rest, rfl, (List.forall_mem_cons.1 all).2,
                  Nat.le_of_succ_le_succ most, greedy.imp_left Nat.succ.inj⟩]

/-- Escapes are read as such. -/
lemma Escape.exists_front (h : Escape chars rest unit) : ∃ c front, chars = c :: front ∧
    escape? c (front ++ rest) = some (unit, front.length) := by
  cases h with
  | @named c _ _ name =>
      obtain ⟨mark, octal⟩ := apart_of_named name
      refine ⟨c, [], rfl, ?_⟩
      rw [escape?, if_neg mark, octal, if_neg (by simp), namedEscape?_iff.2 name]
      rfl
  | @hex marks digits _ marked four hex =>
      obtain ⟨marks, rfl⟩ := Nat.exists_eq_succ_of_ne_zero (Nat.ne_of_gt marked)
      refine ⟨'u', List.replicate marks 'u' ++ digits, rfl, ?_⟩
      -- the digits end the run of marks
      have front : (List.replicate marks 'u' ++ (digits ++ rest)).takeWhile (· == 'u')
          = List.replicate marks 'u' := by
        rw [List.takeWhile_append_of_pos (by simp)]
        obtain ⟨d, ds, rfl⟩ := List.exists_cons_of_length_eq_add_one four
        have apart : d ≠ 'u' := by
          rintro rfl
          exact absurd (hex 'u' List.mem_cons_self) (by decide)
        simp [apart]
      have number : numberOf? 16 digits = some (placeValue 16 digits) :=
        numberOf?_iff.2 ⟨(by rintro rfl; cases four), hex, rfl⟩
      have taken : (digits ++ rest).take 4 = digits := four ▸ List.take_left
      have left : (List.replicate marks 'u' ++ (digits ++ rest)).drop marks = digits ++ rest := by
        rw [List.drop_left' List.length_replicate]
      rw [escape?, if_pos rfl, List.append_assoc, front, List.length_replicate]
      dsimp only
      rw [left, taken, if_pos four, number, Option.map_some, List.length_append,
        List.length_replicate, four]
  | @octal d digits _ octal most greedy =>
      refine ⟨d, digits, rfl, ?_⟩
      have first := octal d List.mem_cons_self
      have mark : d ≠ 'u' := by
        rintro rfl
        cases first
      rw [octalLimit_eq] at most greedy
      have taken : ((digits ++ rest).take (if d ≤ '3' then 2 else 1)).takeWhile isOctalDigit
          = digits := takeWhile_take_iff.2 ⟨rest, rfl, (List.forall_mem_cons.1 octal).2,
        Nat.le_of_succ_le_succ most, greedy.imp_left Nat.succ.inj⟩
      have number : numberOf? 8 (d :: digits) = some (placeValue 8 (d :: digits)) :=
        numberOf?_iff.2 ⟨List.cons_ne_nil d digits, octal, rfl⟩
      rw [escape?, if_neg mark, if_pos first, taken]
      dsimp only
      rw [number, Option.map_some]

/-- Nothing else is read as an escape. -/
lemma escape?_iff : escape? c cs = some (unit, more) ↔
    ∃ front rest, cs = front ++ rest ∧ front.length = more ∧ Escape (c :: front) rest unit := by
  constructor
  · intro read
    unfold escape? at read
    by_cases mark : c = 'u'
    · rw [if_pos mark] at read
      dsimp only at read
      split_ifs at read with four
      obtain ⟨n, number, same⟩ := Option.map_eq_some_iff.1 read
      cases same
      obtain ⟨-, hex, rfl⟩ := numberOf?_iff.1 number
      subst mark
      have front : cs.take (cs.takeWhile (· == 'u')).length
          = List.replicate (cs.takeWhile (· == 'u')).length 'u' := by
        rw [← List.prefix_iff_eq_take.1 (List.takeWhile_prefix (· == 'u'))]
        exact List.eq_replicate_iff.2 ⟨rfl, fun x mem => by
          simpa using List.mem_takeWhile_imp mem⟩
      generalize (cs.takeWhile (· == 'u')).length = marks at *
      refine ⟨List.replicate marks 'u' ++ (cs.drop marks).take 4, (cs.drop marks).drop 4, ?_, ?_,
        .hex (Nat.succ_pos marks) four hex⟩
      · rw [← front, List.append_assoc, List.take_append_drop, List.take_append_drop]
      · rw [List.length_append, List.length_replicate, four]
    · rw [if_neg mark] at read
      by_cases octal : isOctalDigit c = true
      · rw [if_pos octal] at read
        obtain ⟨n, number, same⟩ := Option.map_eq_some_iff.1 read
        cases same
        obtain ⟨-, all, rfl⟩ := numberOf?_iff.1 number
        obtain ⟨rest, same, -, most, greedy⟩ := takeWhile_take_iff.1
          (rfl : (cs.take (if c ≤ '3' then 2 else 1)).takeWhile isOctalDigit = _)
        refine ⟨_, rest, same, rfl, .octal all ?_ ?_⟩
        · rw [octalLimit_eq]
          exact Nat.succ_le_succ most
        · rw [octalLimit_eq]
          exact greedy.imp_left (congrArg Nat.succ)
      · rw [if_neg octal] at read
        obtain ⟨found, named, same⟩ := Option.map_eq_some_iff.1 read
        cases same
        exact ⟨[], cs, rfl, rfl, .named (namedEscape?_iff.1 named)⟩
  · rintro ⟨front, rest, rfl, rfl, escape⟩
    obtain ⟨c', front', same, read⟩ := escape.exists_front
    cases same
    exact read

/-! ## Reading texts between quotes -/

/-- Behind an escape that takes `more` characters the text goes on. -/
lemma unescape_escape (more : List Char)
    (h : escape? c (more ++ rest) = some (unit, more.length)) :
    unescape 0 ('\\' :: c :: (more ++ rest)) = (unescape 0 rest).map (unit :: ·) := by
  have skipped : ∀ ds : List Char, unescape ds.length (ds ++ rest) = unescape 0 rest := by
    intro ds
    induction ds with
    | nil => rfl
    | cons d ds ih => exact ih
  rw [unescape, if_pos rfl, h]
  exact congrArg (Option.map (unit :: ·)) (skipped (c :: more))

/-- A backslash that is read at all begins an escape of the grammar. -/
lemma exists_escape (h : unescape 0 ('\\' :: c :: cs) = some us) : ∃ unit front rest,
    cs = front ++ rest ∧ Escape (c :: front) rest unit ∧
      escape? c (front ++ rest) = some (unit, front.length) := by
  rw [unescape, if_pos rfl] at h
  cases found : escape? c cs with
  | none =>
      rw [found] at h
      cases h
  | some read =>
      obtain ⟨front, rest, rfl, length, escape⟩ := escape?_iff.1 found
      exact ⟨read.1, front, rest, rfl, escape, by rw [found, length]⟩

/-- A character other than a backslash stands for its own units. -/
lemma unescape_raw (plain : c ≠ '\\') :
    unescape 0 (c :: cs) = (unescape 0 cs).map (unitsOfChar c ++ ·) := by
  rw [unescape.eq_def]
  exact if_neg plain

/-- The resolver reads what a text spells. -/
lemma SpellsUnits.unescape (h : SpellsUnits quote cs us) : unescape 0 cs = some us := by
  induction h with
  | nothing => rfl
  | raw _ plain _ ih => rw [unescape_raw plain, ih, Option.map_some]
  | escape escape _ ih =>
      obtain ⟨c, front, rfl, read⟩ := escape.exists_front
      exact (unescape_escape front read).trans (congrArg _ ih)

/-! ## Closing quotes -/

/-- Characters that neither start an escape nor are the quote stand for themselves. -/
lemma quotedLength_plain {ds : List Char} (plain : ∀ d ∈ ds, d ≠ '\\' ∧ d ≠ quote) :
    quotedLength quote (ds ++ rest) = (quotedLength quote rest).map (· + ds.length) := by
  induction ds with
  | nil => simp
  | cons d ds ih =>
      obtain ⟨⟨backslash, same⟩, plain⟩ := List.forall_mem_cons.1 plain
      rw [List.cons_append, quotedLength.eq_def]
      dsimp only
      rw [if_neg (by simpa using backslash), if_neg (by simpa using same), ih plain,
        Option.map_map]
      rfl

variable (kind : quote = '"' ∨ quote = '\'')

include kind

lemma plain_of_isHexDigit (digit : isHexDigit d = true ∨ d = 'u') : d ≠ '\\' ∧ d ≠ quote := by
  rcases kind with rfl | rfl
  all_goals
    constructor <;> rintro rfl
    all_goals
      rcases digit with digit | digit <;> exact absurd digit (by decide)

/-- Behind the first of its characters an escape has neither backslashes nor quotes. -/
lemma Escape.plain (h : Escape chars rest unit) :
    ∀ d ∈ chars.tail, d ≠ '\\' ∧ d ≠ quote := by
  cases h with
  | named => simp
  | hex marked four hex =>
      intro d mem
      refine plain_of_isHexDigit kind ?_
      rcases List.mem_append.1 (List.mem_of_mem_tail mem) with mem | mem
      · exact .inr (List.eq_of_mem_replicate mem)
      · exact .inl (hex d mem)
  | octal octal =>
      intro d mem
      exact plain_of_isHexDigit kind
        (.inl (isSome_digitOf?_of_le (by decide) (octal d (List.mem_of_mem_tail mem))))

/-- The lexer passes over an escape. -/
lemma quotedLength_escape (h : Escape chars cs unit) : quotedLength quote ('\\' :: chars ++ rest)
    = (quotedLength quote rest).map (· + (chars.length + 1)) := by
  obtain ⟨c, front, rfl, -⟩ := h.exists_front
  have plain : ∀ d ∈ front, d ≠ '\\' ∧ d ≠ quote := h.plain kind
  calc quotedLength quote ('\\' :: c :: (front ++ rest))
      = (quotedLength quote (front ++ rest)).map (· + 2 : Nat → Nat) := by
        rw [quotedLength.eq_def]
        rfl
    _ = (quotedLength quote rest).map ((· + 2 : Nat → Nat) ∘ (· + front.length)) := by
        rw [quotedLength_plain plain, Option.map_map]
    _ = (quotedLength quote rest).map (· + ((c :: front).length + 1)) := rfl

/-- **A text that spells something ends at the quote behind it.** -/
theorem SpellsUnits.quotedLength (h : SpellsUnits quote cs us) (rest : List Char) :
    quotedLength quote (cs ++ quote :: rest) = some (cs.length + 1) := by
  induction h with
  | nothing =>
      rw [List.nil_append, quotedLength_cons_ok]
      exact .inr (.inl ⟨by rcases kind with rfl | rfl <;> decide, rfl, rfl⟩)
  | @raw c cs us apart plain more ih =>
      rw [List.cons_append, quotedLength_cons_ok]
      exact .inr (.inr ⟨plain, apart, _, ih, rfl⟩)
  | @escape chars cs unit us escape more ih =>
      rw [List.append_assoc, quotedLength_escape kind escape, ih, Option.map_some]
      simp only [List.length_append, List.length_cons]
      congr 1
      omega

/-- What the resolver reads, a text spells if it goes on up to the closing quote. -/
lemma spellsUnits_of_unescape (closed : DocAnnotations.quotedLength quote (cs ++ [quote])
    = some (cs.length + 1)) (read : DocAnnotations.unescape 0 cs = some us) :
    SpellsUnits quote cs us := by
  induction length : cs.length using Nat.strongRecOn generalizing cs us with
  | ind n ih =>
    cases cs with
    | nil =>
        cases read
        exact .nothing
    | cons c cs =>
        by_cases backslash : c = '\\'
        · subst backslash
          cases cs with
          | nil => cases read
          | cons e after =>
              obtain ⟨unit, front, rest, rfl, escape, found⟩ := exists_escape read
              rw [unescape_escape front found] at read
              obtain ⟨us', read', rfl⟩ := Option.map_eq_some_iff.1 read
              have split : '\\' :: e :: (front ++ rest) ++ [quote]
                  = '\\' :: (e :: front) ++ (rest ++ [quote]) := by simp
              rw [split, quotedLength_escape kind escape] at closed
              obtain ⟨m, closed', same⟩ := Option.map_eq_some_iff.1 closed
              simp only [List.length_cons, List.length_append] at same length
              have : m = rest.length + 1 := by omega
              subst this
              exact .escape escape (ih rest.length (by omega) closed' read' rfl)
        · rw [unescape_raw backslash] at read
          obtain ⟨us', read', rfl⟩ := Option.map_eq_some_iff.1 read
          rw [List.cons_append] at closed
          rcases quotedLength_cons_ok.1 closed with
            ⟨same, -⟩ | ⟨-, -, none⟩ | ⟨-, apart, m, closed', same⟩
          · exact absurd same backslash
          · simp at none
          · have : m = cs.length + 1 := by simpa using same.symm
            subst this
            exact .raw apart backslash (ih cs.length (by simp at length; omega) closed' read' rfl)

/-- **The resolver reads exactly what a text spells** that goes on up to the closing quote. -/
theorem spellsUnits_iff (closed : DocAnnotations.quotedLength quote (cs ++ [quote])
    = some (cs.length + 1)) : DocAnnotations.unescape 0 cs = some us ↔ SpellsUnits quote cs us :=
  ⟨spellsUnits_of_unescape kind closed, SpellsUnits.unescape⟩

end DocAnnotations
