import DocAnnotations.Node.Grammar
import DocAnnotations.Node.Parser
import DocAnnotations.Proofs.Token.Lexeme

/-!
# Readings that accept a part of the grammar

A reading `Accepts` a part of the grammar when its successes are the derivations of this part with
few enough levels.

**The tokens before a cursor.**  A reading goes on at `Cursor.tokens`, and there is always the end
of the input among them (`Cursor.Ended`).

**Steps that succeed.**  The parser is put together from steps that pass a token and from lists with
commas.  Each step has a lemma that says when it succeeds and where the cursor is then; from these
alone the parser is taken apart.

**Accepting.**  A derivation is followed only before a token that may come behind the part: one that
`Delimits` an item, or that `Closes` a list.  **`accepts_items`**: a list is accepted where its
items are.
-/

namespace DocAnnotations

open Grammar

/-! ## The tokens before a cursor -/

namespace Cursor

variable {c c' : Cursor}

/-- The tokens that are still to be read. -/
def tokens (c : Cursor) : List Token := c.current :: c.ahead

/-- The last token before the cursor is the end of input. -/
def Ended (c : Cursor) : Prop := ∃ t ∈ c.tokens.getLast?, t.kind = .endOfInput

/-- Passing a token that is not the last. -/
lemma tokens_next {t : Token} {ts : List Token} (h : c.tokens = t :: ts) (more : ts ≠ [])
    (kind : t.kind ≠ .endOfInput) : c.next.tokens = ts := by
  obtain ⟨rfl, rfl⟩ := List.cons.inj h
  cases ahead : c.ahead with
  | nil => exact absurd ahead more
  | cons u us => simp [next, kind, ahead, tokens]

lemma kindAhead_of_tokens {t u : Token} {us : List Token} (h : c.tokens = t :: u :: us) :
    c.kindAhead = u.kind := by
  rw [kindAhead, (List.cons.inj h).2]

/-- Where the tokens end with the end of input, passing another token leaves all but this one. -/
lemma Ended.tokens_eq (ended : c.Ended) (kind : c.current.kind ≠ .endOfInput) :
    c.tokens = c.current :: c.next.tokens := by
  obtain ⟨t, last, final⟩ := ended
  have more : c.ahead ≠ [] := by
    intro nothing
    rw [tokens, nothing, List.getLast?_singleton, Option.mem_some] at last
    exact kind (last ▸ final)
  rw [tokens_next rfl more kind, tokens]

/-- What is left behind some tokens ends with the end of the input, as the whole does. -/
lemma Ended.of_append {ts : List Token} (ended : c.Ended) (h : c.tokens = ts ++ c'.tokens) :
    c'.Ended := by
  obtain ⟨t, last, final⟩ := ended
  refine ⟨t, ?_, final⟩
  rwa [h, List.getLast?_append, Option.mem_def, Option.or_of_isSome (by simp [tokens])] at last

lemma Ended.of_cons {t : Token} (ended : c.Ended) (h : c.tokens = t :: c'.tokens) : c'.Ended :=
  ended.of_append (show c.tokens = [t] ++ c'.tokens from h)

end Cursor

namespace Parse

variable {α β : Type} {p : Parse α} {c d : Cursor}

/-! ## Steps that succeed -/

lemma bind_ok {f : α → Parse β} {b : β} :
    (p >>= f) c = .ok b d ↔ ∃ a c', p c = .ok a c' ∧ f a c' = .ok b d := by
  simp only [Bind.bind, EStateM.bind]
  cases p c with
  | ok a c' => simp
  | error e c' => simp

lemma pure_ok {a b : α} : (pure a : Parse α) c = .ok b d ↔ a = b ∧ c = d := by
  simp [pure, EStateM.pure]

lemma get_ok {b : Cursor} : (get : Parse Cursor) c = .ok b d ↔ c = b ∧ c = d :=
  Iff.of_eq (EStateM.Result.ok.injEq c c b d)

lemma modify_ok {f : Cursor → Cursor} {u : PUnit} :
    (modify f : Parse PUnit) c = .ok u d ↔ f c = d := by
  exact (Iff.of_eq (EStateM.Result.ok.injEq ⟨⟩ (f c) u d)).trans (and_iff_right rfl)

lemma throw_ok {e : ParseError} {a : α} : ¬ (throw e : Parse α) c = .ok a d := nofun

lemma current_ok {t : Token} : current c = .ok t d ↔ c.current = t ∧ c = d := by
  simp only [current, bind_ok, get_ok, pure_ok]
  grind

lemma check_ok {kind : TokenKind} {b : Bool} :
    check kind c = .ok b d ↔ (c.current.kind == kind) = b ∧ c = d := by
  simp only [check, bind_ok, get_ok, pure_ok]
  constructor
  · rintro ⟨_, _, ⟨rfl, rfl⟩, same, rfl⟩
    exact ⟨same, rfl⟩
  · rintro ⟨same, rfl⟩
    exact ⟨_, _, ⟨rfl, rfl⟩, same, rfl⟩

lemma unexpected_ok {expected : String} {a : α} : ¬ unexpected expected c = .ok a d := by
  simp only [unexpected, bind_ok, throw_ok]
  simp

lemma advance_ok {u : Unit} : advance c = .ok u d ↔ c.next = d := modify_ok

/-- A step that passes the token at the cursor if it is of one kind, and else fails. -/
lemma ofKind_ok {kind : TokenKind} {f : Token → α} {refusal : Token → Parse α} {a : α}
    (refuses : ∀ t, ¬ refusal t c = .ok a d) :
    (do
      let t ← current
      if t.kind = kind then
        advance
        return f t
      else refusal t : Parse α) c = .ok a d
      ↔ c.current.kind = kind ∧ f c.current = a ∧ c.next = d := by
  simp only [bind_ok, current_ok]
  constructor
  · rintro ⟨_, _, ⟨rfl, rfl⟩, ran⟩
    split_ifs at ran with h
    · simp only [bind_ok, advance_ok, pure_ok] at ran
      obtain ⟨_, _, rfl, rfl, rfl⟩ := ran
      exact ⟨h, rfl, rfl⟩
    · exact absurd ran (refuses _)
  · rintro ⟨h, rfl, rfl⟩
    exact ⟨_, _, ⟨rfl, rfl⟩, by rw [if_pos h]; rfl⟩

/-- An expected token is taken if it is there, and the cursor goes on to the next. -/
lemma expect_ok {kind : TokenKind} {expected : String} {t : Token} :
    expect kind expected c = .ok t d ↔ c.current.kind = kind ∧ c.current = t ∧ c.next = d :=
  ofKind_ok (f := id) fun _ => unexpected_ok

/-- A closing token is taken if it is there, and its own place is returned. -/
lemma expectClosing_ok {kind : TokenKind} {delimiter : Char} {opened span : Span} :
    expectClosing kind delimiter opened c = .ok span d
      ↔ c.current.kind = kind ∧ c.current.span = span ∧ c.next = d := by
  refine ofKind_ok fun t => ?_
  split_ifs
  · exact throw_ok
  · exact unexpected_ok

/-- Something nested is read if a level is left for it, with the count of levels back to what it was
behind it. -/
lemma nested_ok {inner : Option (Parse Node)} {opened : Span} {body : Parse Node → Parse α}
    {a : α} :
    nested inner opened body c = .ok a d ↔ ∃ value e, inner = some value ∧
      body value { c with depth := c.depth + 1 } = .ok a e ∧
        { e with depth := e.depth - 1 } = d := by
  simp only [nested, bind_ok, modify_ok]
  cases inner with
  | none => simp [throw_ok]
  | some value =>
      simp only [bind_ok, modify_ok, pure_ok]
      constructor
      · rintro ⟨_, _, rfl, _, e, ran, _, _, rfl, rfl, rfl⟩
        exact ⟨value, e, rfl, ran, rfl⟩
      · rintro ⟨_, e, same, ran, rfl⟩
        cases same
        exact ⟨⟨⟩, _, rfl, a, e, ran, ⟨⟩, _, rfl, rfl, rfl⟩

/-! ## Tokens that are there -/

section

variable {t : Token} {ts : List Token} {kind : TokenKind}

/-- The cursor goes on to the tokens behind the first, unless the first is the end of the input. -/
lemma exists_advance (h : c.tokens = t :: ts) (more : ts ≠ []) (inner : t.kind ≠ .endOfInput) :
    ∃ d, advance c = .ok () d ∧ d.tokens = ts :=
  ⟨c.next, rfl, Cursor.tokens_next h more inner⟩

/-- A token that is there is taken, and the cursor goes on to the tokens behind it. -/
lemma exists_expect (h : c.tokens = t :: ts) (more : ts ≠ []) (there : t.kind = kind)
    (inner : kind ≠ .endOfInput) (expected : String) :
    ∃ d, expect kind expected c = .ok t d ∧ d.tokens = ts := by
  have first : c.current = t := (List.cons.inj h).1
  exact ⟨c.next, expect_ok.2 ⟨by rw [first, there], first, rfl⟩,
    Cursor.tokens_next h more (there ▸ inner)⟩

/-- A closing token that is there is taken, whatever it closes. -/
lemma exists_expectClosing (h : c.tokens = t :: ts) (more : ts ≠ []) (there : t.kind = kind)
    (inner : kind ≠ .endOfInput) (delimiter : Char) (opened : Span) :
    ∃ d, expectClosing kind delimiter opened c = .ok t.span d ∧ d.tokens = ts := by
  have first : c.current = t := (List.cons.inj h).1
  exact ⟨c.next, expectClosing_ok.2 ⟨by rw [first, there], by rw [first], rfl⟩,
    Cursor.tokens_next h more (there ▸ inner)⟩

end

/-! ## Accepting a part of the grammar -/

/-- What may come behind a value, a pair or an annotation. -/
def Delimits (kind : TokenKind) : Prop :=
  kind = .comma ∨ kind = .rightParen ∨ kind = .rightBrace ∨ kind = .endOfInput

/-- What may come behind a list of values or pairs. -/
def Closes (kind : TokenKind) : Prop := kind = .rightParen ∨ kind = .rightBrace

/-- What may follow a list may follow a single item of it. -/
lemma Closes.delimits {kind : TokenKind} (h : Closes kind) : Delimits kind := by
  rcases h with h | h <;> simp [Delimits, h]

/-- The successes of a reading are the derivations of a part of the grammar with at most `room`
levels open.  A derivation is only followed if it is to be read before a token of the given
kinds. -/
structure Accepts (p : Parse α) (Part : List Token → α → Nat → Prop) (room : Nat)
    (Follow : TokenKind → Prop) : Prop where
  sound : ∀ {c a d}, c.Ended → p c = .ok a d →
    ∃ ts depth, Part ts a depth ∧ depth ≤ room ∧ c.tokens = ts ++ d.tokens
  complete : ∀ {c a ts depth t rest}, Part ts a depth → depth ≤ room → Follow t.kind →
    c.tokens = ts ++ t :: rest → ∃ d, p c = .ok a d ∧ d.tokens = t :: rest

variable {value : Parse Node} {room : Nat}

/-- If values are read as the grammar has them, so are pairs of a name and a value. -/
lemma accepts_pair (h : Accepts value IsValue room Delimits) :
    Accepts (pair value) IsPair room Delimits where
  sound := by
    intro c a d ended ran
    simp only [pair, bind_ok, expect_ok, pure_ok] at ran
    obtain ⟨name, _, ⟨named, rfl, rfl⟩, equals, _, ⟨mark, rfl, rfl⟩, v, _, read, rfl, rfl⟩ := ran
    have first := ended.tokens_eq (by rw [named]; decide)
    have ended₁ := ended.of_cons first
    have second := ended₁.tokens_eq (by rw [mark]; decide)
    have ended₂ := ended₁.of_cons second
    obtain ⟨ts, depth, derived, few, third⟩ := h.sound ended₂ read
    exact ⟨_, depth, .pair named mark derived, few, by rw [first, second, third]; rfl⟩
  complete := by
    rintro c _ _ depth t rest ⟨named, mark, derived⟩ few follow tokens
    obtain ⟨c₁, ran₁, tokens₁⟩ := exists_expect tokens (by simp) named (by decide) "element name"
    obtain ⟨c₂, ran₂, tokens₂⟩ := exists_expect tokens₁ (by simp) mark (by decide) "`=`"
    obtain ⟨d, ran, tokens₃⟩ := h.complete derived few follow tokens₂
    refine ⟨d, ?_, tokens₃⟩
    simp only [pair, bind_ok, pure_ok]
    exact ⟨_, c₁, ran₁, _, c₂, ran₂, _, d, ran, rfl, rfl⟩

/-! ### Lists -/

section

variable {Item : List Token → α → Nat → Prop}

lemma length_pos_of_separated {ts : List Token} {xs : List α} {depth : Nat}
    (items : Separated Item ts xs depth) : 0 < xs.length := by
  cases items <;> simp

/-- There is a comma before every item but the first. -/
lemma length_le_of_separated {ts : List Token} {xs : List α} {depth : Nat}
    (items : Separated Item ts xs depth) : xs.length ≤ ts.length + 1 := by
  induction items with
  | last item => simp
  | more item mark items ih =>
      simp only [List.length_cons, List.length_append]
      omega

/-- Further items are found none, or a comma and a list of items. -/
lemma moreItems_sound (h : Accepts p Item room Delimits) :
    ∀ (bound : List Token) {found xs : List α} {c d : Cursor}, c.Ended →
      moreItems p bound found c = .ok xs d →
      (xs = found.reverse ∧ c.tokens = d.tokens) ∨ ∃ comma ts ys depth, comma.kind = .comma ∧
        Separated Item ts ys depth ∧ depth ≤ room ∧ xs = found.reverse ++ ys ∧
        c.tokens = comma :: ts ++ d.tokens
  | [], found, xs, c, d, _, ran => by
      rw [moreItems, pure_ok] at ran
      obtain ⟨rfl, rfl⟩ := ran
      exact .inl ⟨rfl, rfl⟩
  | _ :: bound, found, xs, c, d, ended, ran => by
      simp only [moreItems, bind_ok, check_ok] at ran
      obtain ⟨_, _, ⟨rfl, rfl⟩, ran⟩ := ran
      split_ifs at ran with mark
      · simp only [bind_ok, advance_ok] at ran
        obtain ⟨_, _, rfl, x, c₂, read, ran⟩ := ran
        rw [beq_iff_eq] at mark
        have first := ended.tokens_eq (by rw [mark]; decide)
        have ended₁ := ended.of_cons first
        obtain ⟨ts, depth, derived, few, second⟩ := h.sound ended₁ read
        right
        rcases moreItems_sound h bound (ended₁.of_append second) ran with
          ⟨rfl, last⟩ | ⟨comma, us, ys, deep, mark', items, few', rfl, last⟩
        · exact ⟨_, ts, [x], depth, mark, .last derived, few, by simp,
            by rw [first, second, last]; rfl⟩
        · exact ⟨_, _, x :: ys, _, mark, .more derived mark' items, Nat.max_le.2 ⟨few, few'⟩,
            by simp, by rw [first, second, last]; simp⟩
      · rw [pure_ok] at ran
        obtain ⟨rfl, rfl⟩ := ran
        exact .inl ⟨rfl, rfl⟩

/-- A list of items is read one after the other, if their number is within the bound. -/
lemma moreItems_complete (h : Accepts p Item room Delimits) {ts : List Token} {xs : List α}
    {depth : Nat} (items : Separated Item ts xs depth) :
    ∀ {c : Cursor} {t : Token} {rest : List Token}, depth ≤ room → Closes t.kind →
      c.tokens = ts ++ t :: rest → ∃ x c', p c = .ok x c' ∧ xs.length ≤ c'.tokens.length ∧
        ∀ bound found : List _, xs.length ≤ bound.length + 1 →
          ∃ d, moreItems p bound (x :: found) c' = .ok (found.reverse ++ xs) d ∧
            d.tokens = t :: rest := by
  induction items with
  | last item =>
      intro c t rest few follow tokens
      obtain ⟨c', ran, tokens'⟩ := h.complete item few follow.delimits tokens
      refine ⟨_, c', ran, by simp [tokens'], fun bound found _ => ⟨c', ?_, tokens'⟩⟩
      have current : c'.current = t := (List.cons.inj tokens').1
      have stop : (c'.current.kind == .comma) = false := by
        rw [current]
        rcases follow with h | h <;> rw [h] <;> rfl
      cases bound with
      | nil => simp [moreItems, pure_ok]
      | cons b bound =>
          simp only [moreItems, bind_ok, check_ok]
          exact ⟨_, _, ⟨stop, rfl⟩, by simp [pure_ok]⟩
  | @more ts us comma x xs depth deep item mark items ih =>
      intro c t rest few follow tokens
      rw [List.append_assoc, List.cons_append] at tokens
      have comma' : Delimits comma.kind := .inl mark
      obtain ⟨c₁, ran₁, tokens₁⟩ := h.complete item (Nat.max_le.1 few).1 comma' tokens
      obtain ⟨c₂, ran₂, tokens₂⟩ := exists_advance tokens₁ (by simp) (by rw [mark]; decide)
      obtain ⟨y, c₃, ran₃, -, next⟩ := ih (Nat.max_le.1 few).2 follow tokens₂
      refine ⟨x, c₁, ran₁, ?_, fun bound found within => ?_⟩
      · have := length_le_of_separated items
        simp only [tokens₁, List.length_cons, List.length_append]
        omega
      · have := length_pos_of_separated items
        cases bound with
        | nil =>
            simp only [List.length_cons, List.length_nil] at within
            omega
        | cons b bound =>
            obtain ⟨d, ran, tokens'⟩ := next bound (x :: found) (by simpa using within)
            refine ⟨d, ?_, tokens'⟩
            have current : c₁.current = comma := (List.cons.inj tokens₁).1
            simp only [moreItems, bind_ok, check_ok]
            refine ⟨true, c₁, ⟨by rw [current, mark]; rfl, rfl⟩, ?_⟩
            simp only [if_true, bind_ok]
            exact ⟨_, c₂, ran₂, y, c₃, ran₃, by simpa using ran⟩

/-- If items are read as the grammar has them, so are lists of them between commas. -/
lemma accepts_items (h : Accepts p Item room Delimits) :
    Accepts (items p) (Separated Item) room Closes where
  sound := by
    intro c xs d ended ran
    simp only [items, bind_ok, get_ok] at ran
    obtain ⟨x, c₁, read, _, _, ⟨rfl, rfl⟩, ran⟩ := ran
    obtain ⟨ts, depth, derived, few, first⟩ := h.sound ended read
    rcases moreItems_sound h _ (ended.of_append first) ran with
      ⟨rfl, last⟩ | ⟨comma, us, ys, deep, mark, items, few', rfl, last⟩
    · exact ⟨ts, depth, .last derived, few, by rw [first, last]⟩
    · exact ⟨_, _, .more derived mark items, Nat.max_le.2 ⟨few, few'⟩,
        by rw [first, last, List.append_assoc]⟩
  complete := by
    intro c xs ts depth t rest derived few follow tokens
    obtain ⟨x, c₁, read, enough, next⟩ := moreItems_complete h derived few follow tokens
    obtain ⟨d, ran, tokens'⟩ := next c₁.ahead [] enough
    refine ⟨d, ?_, tokens'⟩
    simp only [items, bind_ok, get_ok]
    exact ⟨x, c₁, read, c₁, c₁, ⟨rfl, rfl⟩, ran⟩

end

end Parse

end DocAnnotations
