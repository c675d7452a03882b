import DocAnnotations.Proofs.Node.Grammar
import DocAnnotations.Proofs.Node.Machine

/-!
# The parser and the machine

The parser looks ahead and builds trees on several levels of recursion; the machine reads one token
at a time.

**Places and faults.**  `Reaches` says that the tokens between two cursors take the machine from one
state to another, and `Fault` which error belongs to a state and a token without a step.

**Readings that track the machine.**  A reading `Tracks` the machine between two states when its
successes pass tokens that take the machine from the one to the other, and its errors are about a
token that has no step.

**Annotations and values.**  The lemmas follow the parser from the inside out, as those on its
grammar do, and the levels that may still be opened are those that the machine has left.
**`tracks_value`**: values are read as the machine reads them, for any limit.
-/

namespace DocAnnotations

open Grammar Machine

/-- A delimiter that opens a list. -/
def Token.Opens (t : Token) (delimiter : Char) : Prop :=
  (t.kind = .leftParen ∧ delimiter = '(') ∨ (t.kind = .leftBrace ∧ delimiter = '\x7b')

/-- A token that may open a level. -/
def Token.OpensLevel (t : Token) : Prop :=
  t.kind = .leftParen ∨ t.kind = .leftBrace ∨ t.kind = .atSign

namespace Parse

variable {α β : Type} {p : Parse α} {limit room : Nat} {s s' m : State} {c d e : Cursor}
  {t k : Token} {ts : List Token} {fs : List Frame} {error : ParseError}

/-! ## Places and faults -/

/-- The states hold the same delimiters and take the same step with a token. -/
structure SameStep (s m : State) (t : Token) : Prop where
  delimiters : s.delimiters = m.delimiters
  step : ∀ limit, step limit s t = Machine.step limit m t

lemma SameStep.refl (s : State) (t : Token) : SameStep s s t := ⟨rfl, fun _ => rfl⟩

lemma SameStep.symm (h : SameStep s m t) : SameStep m s t :=
  ⟨h.delimiters.symm, fun limit => (h.step limit).symm⟩

lemma SameStep.trans (h : SameStep s m t) (h' : SameStep m s' t) : SameStep s s' t :=
  ⟨h.delimiters.trans h'.delimiters, fun limit => (h.step limit).trans (h'.step limit)⟩

/-- The tokens from one cursor to another take the machine from one state to another, or to a state
that goes on in the same way. -/
def Reaches (limit : Nat) (s : State) (c : Cursor) (s' : State) (d : Cursor) : Prop :=
  ∃ us m, c.tokens = us ++ d.tokens ∧ run limit s us = some m ∧ SameStep m s' d.current

/-- What the error says about a token at which the machine stops in a state. -/
inductive Fault (limit : Nat) (s : State) (k : Token) : ParseError → Prop
  | unexpected {expected : String} (refused : ∀ limit, step limit s k = none) :
      Fault limit s k (.ofToken k expected)
  | trailing (inner : k.kind ≠ .endOfInput) (closed : k.kind ≠ .unterminated)
      (refused : ∀ limit, step limit s k = none) :
      Fault limit s k (.trailingInput k.text k.span.start)
  | unclosed {opened : Token} {delimiter : Char} {outer : List Token} (final : k.kind = .endOfInput)
      (refused : ∀ limit, step limit s k = none) (innermost : s.delimiters = opened :: outer)
      (opens : opened.Opens delimiter) : Fault limit s k (.unbalanced delimiter opened.span.start)
  | tooDeep {m : State} (opens : k.OpensLevel) (full : step limit s k = none)
      (deeper : step (limit + 1) s k = some m) :
      Fault limit s k (.tooDeep maxNesting k.span.start)

/-- The machine stops at a token, and the error is about it. -/
def Stuck (limit : Nat) (s : State) (ts : List Token) (error : ParseError) : Prop :=
  ∃ us k rest m, ts = us ++ k :: rest ∧ run limit s us = some m ∧ Fault limit m k error

/-- A fault in one state is a fault in another that goes the same way with the token. -/
lemma Fault.congr (h : Fault limit s k error) (same : SameStep s m k) : Fault limit m k error := by
  cases h with
  | unexpected refused => exact .unexpected fun limit => (same.step limit).symm.trans (refused _)
  | trailing inner closed refused =>
      exact .trailing inner closed fun limit => (same.step limit).symm.trans (refused _)
  | unclosed final refused innermost opens =>
      exact .unclosed final (fun limit => (same.step limit).symm.trans (refused _))
        (same.delimiters.symm.trans innermost) opens
  | tooDeep opens full deeper =>
      exact .tooDeep opens ((same.step _).symm.trans full) ((same.step _).symm.trans deeper)

/-- Where there is a fault the machine has no step. -/
lemma Fault.step_eq_none (h : Fault limit s k error) : step limit s k = none := by
  cases h with
  | unexpected refused => exact refused limit
  | trailing inner closed refused => exact refused limit
  | unclosed final refused innermost opens => exact refused limit
  | tooDeep opens full deeper => exact full

/-- A fault at the next token. -/
lemma Fault.stuck (h : Fault limit s c.current error) : Stuck limit s c.tokens error :=
  ⟨[], c.current, c.ahead, s, rfl, run_nil.2 rfl, h⟩

/-- A state may be taken for one with the same step. -/
lemma Reaches.of_sameStep (same : SameStep s m c.current) : Reaches limit s c m c :=
  ⟨[], s, rfl, run_nil.2 rfl, same⟩

lemma Reaches.ended (h : Reaches limit s c s' d) (ended : c.Ended) : d.Ended := by
  obtain ⟨us, m, split, -⟩ := h
  exact ended.of_append split

/-- A run that goes on from a state goes on from one with the same step. -/
lemma run_after {us vs : List Token} (ran : run limit s us = some m)
    (same : SameStep m s' t) {n : State} (more : run limit s' (t :: vs) = some n) :
    run limit s (us ++ t :: vs) = some n :=
  (run_append_eq ran).trans ((run_congr (same.step limit)).trans more)

/-- What is reached from where a parser stopped is reached from where it started. -/
lemma Reaches.trans {n : State} (h : Reaches limit s c m d) (h' : Reaches limit m d n e) :
    Reaches limit s c n e := by
  obtain ⟨us, s₁, split, ran, same⟩ := h
  obtain ⟨vs, s₂, split', ran', same'⟩ := h'
  -- only the first token behind `d` can tell the two states there from each other
  cases vs with
  | nil =>
      cases run_nil.1 ran'
      have place : d.current = e.current := (List.cons.inj split').1
      exact ⟨us, s₁, split.trans (congrArg _ split'), ran, (place ▸ same).trans same'⟩
  | cons v vs =>
      obtain rfl : d.current = v := (List.cons.inj split').1
      exact ⟨us ++ d.current :: vs, s₂, by rw [split, split', List.append_assoc],
        run_after ran same ran', same'⟩

/-- Where the machine gets stuck later on, it gets stuck on all tokens from the start. -/
lemma Reaches.stuck (h : Reaches limit s c m d) (stuck : Stuck limit m d.tokens error) :
    Stuck limit s c.tokens error := by
  obtain ⟨us, s₁, split, ran, same⟩ := h
  obtain ⟨vs, k, rest, s₂, split', ran', fault⟩ := stuck
  cases vs with
  | nil =>
      cases run_nil.1 ran'
      obtain rfl : d.current = k := (List.cons.inj split').1
      exact ⟨us, d.current, rest, s₁, split.trans (congrArg _ split'), ran, fault.congr same.symm⟩
  | cons v vs =>
      obtain rfl : d.current = v := (List.cons.inj split').1
      exact ⟨us ++ d.current :: vs, k, rest, s₂, by rw [split, split', List.append_assoc],
        run_after ran same ran', fault⟩

/-! ## Readings that track the machine -/

/-- At a cursor, a reading goes on as the machine does from one state to another, or stops where the
machine does. -/
structure Tracks (p : Parse α) (limit : Nat) (s s' : State) (c : Cursor) : Prop where
  ok : ∀ {a d}, p c = .ok a d → Reaches limit s c s' d
  error : ∀ {error d}, p c = .error error d → Stuck limit s c.tokens error

namespace Tracks

lemma pure {a : α} (same : SameStep s s' c.current) :
    Tracks (Pure.pure a : Parse α) limit s s' c where
  ok ran := by
    obtain ⟨-, rfl⟩ := pure_ok.1 ran
    exact .of_sameStep same
  error ran := by cases ran

/-- Parsers in a row are tracked, if the second is tracked from the state that the first leads
to. -/
lemma bind {f : α → Parse β} (ended : c.Ended) (first : Tracks p limit s m c)
    (next : ∀ {a d}, p c = .ok a d → d.Ended → Tracks (f a) limit m s' d) :
    Tracks (p >>= f) limit s s' c where
  ok ran := by
    obtain ⟨a, d, ran, more⟩ := bind_ok.1 ran
    exact (first.ok ran).trans ((next ran ((first.ok ran).ended ended)).ok more)
  error ran := by
    simp only [Bind.bind, EStateM.bind] at ran
    cases ran' : p c with
    | ok a d =>
        rw [ran'] at ran
        exact (first.ok ran').stuck ((next ran' ((first.ok ran').ended ended)).error ran)
    | error e d =>
        rw [ran'] at ran
        cases ran
        exact first.error ran'

/-- Looking at the current token leaves the machine where it is. -/
lemma reads {f : Token → Parse β} (h : Tracks (f c.current) limit s s' c) :
    Tracks (current >>= f) limit s s' c := ⟨h.ok, h.error⟩

/-- Looking at the kind of the next token moves neither the parser nor the machine. -/
lemma checks {kind : TokenKind} {f : Bool → Parse β}
    (h : Tracks (f (c.current.kind == kind)) limit s s' c) :
    Tracks (check kind >>= f) limit s s' c := ⟨h.ok, h.error⟩

/-- A parser that is tracked from one state is tracked from another that goes the same way with the
next token. -/
lemma congr (h : Tracks p limit s s' c) (same : SameStep m s c.current) :
    Tracks p limit m s' c := by
  have place : Reaches limit m c s c := .of_sameStep same
  exact ⟨fun ran => place.trans (h.ok ran), fun ran => place.stuck (h.error ran)⟩

lemma gets {f : Cursor → Parse β} (h : Tracks (f c) limit s s' c) :
    Tracks (get >>= f) limit s s' c := ⟨h.ok, h.error⟩

/-- Only what the reading does at this cursor matters. -/
lemma of_apply {q : Parse α} (h : Tracks q limit s s' c) (same : p c = q c) :
    Tracks p limit s s' c :=
  ⟨fun ran => h.ok (same ▸ ran), fun ran => h.error (same ▸ ran)⟩

/-- A reading that passes one token. -/
lemma passes {a : α} (ended : c.Ended) (inner : c.current.kind ≠ .endOfInput)
    (ran : p c = .ok a c.next) (goes : step limit s c.current = some s') :
    Tracks p limit s s' c where
  ok ran' := by
    cases ran.symm.trans ran'
    exact ⟨[c.current], s', ended.tokens_eq inner, run_single.2 goes, .refl s' _⟩
  error ran' := by cases ran.symm.trans ran'

/-- Counting levels leaves the machine where it is. -/
lemma modifies {f : Cursor → Cursor} (same : (f c).tokens = c.tokens) :
    Tracks (modify f : Parse PUnit) limit s s c where
  ok ran := by
    obtain rfl := modify_ok.1 ran
    exact ⟨[], s, same.symm, run_nil.2 rfl, .refl s _⟩
  error ran := by cases ran

lemma throws {error : ParseError} (fault : Fault limit s c.current error) :
    Tracks (throw error : Parse α) limit s s' c where
  ok ran := absurd ran throw_ok
  error ran := by
    cases ran
    exact fault.stuck

lemma unexpected {expected : String} (refused : ∀ limit, step limit s c.current = none) :
    Tracks (Parse.unexpected expected : Parse α) limit s s' c :=
  reads (throws (.unexpected refused))

lemma advance (ended : c.Ended) (inner : c.current.kind ≠ .endOfInput)
    (goes : step limit s c.current = some s') : Tracks Parse.advance limit s s' c :=
  passes ended inner rfl goes

/-- Taking an expected token is tracked, if the machine has a step with this kind of token only. -/
lemma expect {kind : TokenKind} {expected : String} (ended : c.Ended)
    (inner : kind ≠ .endOfInput)
    (goes : ∀ limit, step limit s c.current = if c.current.kind = kind then some s' else none) :
    Tracks (Parse.expect kind expected) limit s s' c := by
  refine reads ?_
  by_cases there : c.current.kind = kind
  · simp only [if_pos there] at goes ⊢
    exact bind ended (advance ended (there ▸ inner) (goes limit)) fun _ _ => pure (.refl s' _)
  · simp only [if_neg there] at goes ⊢
    exact unexpected goes

/-- The end of a list.  Where the input ends instead, the innermost delimiter that is open is the
one of this list. -/
lemma expectClosing {kind : TokenKind} {delimiter : Char} {opened : Token} {outer : List Token}
    (ended : c.Ended) (inner : kind ≠ .endOfInput)
    (goes : ∀ limit, step limit s c.current = if c.current.kind = kind then some s' else none)
    (innermost : s.delimiters = opened :: outer) (opens : opened.Opens delimiter) :
    Tracks (Parse.expectClosing kind delimiter opened.span) limit s s' c := by
  refine reads ?_
  by_cases there : c.current.kind = kind
  · simp only [if_pos there] at goes ⊢
    exact bind ended (advance ended (there ▸ inner) (goes limit)) fun _ _ => pure (.refl s' _)
  · simp only [if_neg there] at goes ⊢
    by_cases final : c.current.kind = .endOfInput
    · simp only [if_pos final]
      exact throws (.unclosed final goes innermost opens)
    · simp only [if_neg final]
      exact unexpected goes

/-- Opening a level that may be opened. -/
lemma nested {value : Parse Node} {opened : Span} {body : Parse Node → Parse α} (ended : c.Ended)
    (h : Tracks (body value) limit s s' { c with depth := c.depth + 1 }) :
    Tracks (Parse.nested (some value) opened body) limit s s' c :=
  bind ended (modifies rfl) fun ran ended₁ => by
    obtain rfl := modify_ok.1 ran
    exact bind ended₁ h fun _ ended₂ => bind ended₂ (modifies rfl) fun _ _ => pure (.refl s' _)

/-- Opening a level at the limit. -/
lemma tooDeep {body : Parse Node → Parse α} (opens : c.current.OpensLevel)
    (full : step limit s c.current = none) {n : State}
    (deeper : step (limit + 1) s c.current = some n) :
    Tracks (do
      Parse.advance
      Parse.nested none c.current.span body) limit s s' c where
  ok ran := by
    obtain ⟨_, _, -, ran⟩ := bind_ok.1 ran
    obtain ⟨_, _, none, -⟩ := nested_ok.1 ran
    cases none
  error ran := by
    cases ran
    exact (Fault.tooDeep opens full deeper).stuck

end Tracks

/-! ## Pairs and lists -/

variable {value : Parse Node} {item : Parse α} {f : Frame} {goal : Goal}

/-- A reading of values that tracks the machine where so many levels may be opened, and that takes a
name for a value of its own. -/
structure TracksValue (value : Parse Node) (room : Nat) : Prop where
  tracks : ∀ {limit : Nat} {fs : List Frame} {c : Cursor}, room + fs.length = limit → c.Ended →
    Tracks value limit (.before .value fs) (.before .rest fs) c
  named : ∀ {c : Cursor}, c.current.kind = .identifier → ∃ v, value c = .ok v c.next

/-- A pair, from any state that takes its name and then its equals sign. -/
lemma tracks_pairFrom (h : TracksValue value room) (levels : room + fs.length = limit)
    (ended : c.Ended)
    (names : ∀ limit, step limit s c.current =
      if c.current.kind = .identifier then some m else none)
    (signs : ∀ limit, step limit m c.next.current =
      if c.next.current.kind = .equals then some (.before .value fs) else none) :
    Tracks (pair value) limit s (.before .rest fs) c := by
  refine .bind ended (.expect ended (by decide) names) fun ran ended₁ => ?_
  obtain ⟨-, -, rfl⟩ := expect_ok.1 ran
  refine .bind ended₁ (.expect ended₁ (by decide) signs) fun _ ended₂ => ?_
  exact .bind ended₂ (h.tracks levels ended₂) fun _ _ => .pure (.refl _ _)

/-- A pair is tracked, if its value is with the levels that are left. -/
lemma tracks_pair (h : TracksValue value room) (levels : room + fs.length = limit)
    (ended : c.Ended) : Tracks (pair value) limit (.before .pair fs) (.before .rest fs) c :=
  tracks_pairFrom (m := .before .sign fs) h levels ended (fun _ => rfl) fun _ => rfl

/-- Further items are tracked, if a comma leads the machine to the state in which each item
starts. -/
lemma tracks_moreItems (comma : ∀ {t : Token}, t.kind = .comma →
      leave (f :: fs) t = some (.before goal (f :: fs)))
    (h : ∀ {c : Cursor}, c.Ended →
      Tracks item limit (.before goal (f :: fs)) (.before .rest (f :: fs)) c) :
    ∀ (bound : List Token) {found : List α} {c : Cursor}, c.Ended →
      Tracks (moreItems item bound found) limit (.before .rest (f :: fs))
        (.before .rest (f :: fs)) c
  | [], _, _, _ => .pure (.refl _ _)
  | _ :: bound, found, c, ended => by
      refine .checks ?_
      by_cases mark : c.current.kind = .comma
      · rw [if_pos (beq_iff_eq.2 mark)]
        refine .bind ended (.advance ended (by rw [mark]; decide) (comma mark)) fun _ ended₁ => ?_
        exact .bind ended₁ (h ended₁) fun _ ended₂ => tracks_moreItems comma h bound ended₂
      · rw [if_neg (by rwa [beq_iff_eq])]
        exact .pure (.refl _ _)

/-- Where there are enough items allowed, the last has no comma behind it. -/
lemma moreItems_stops (h : ∀ {c : Cursor}, c.Ended →
      Tracks item limit (.before goal (f :: fs)) (.before .rest (f :: fs)) c) :
    ∀ (bound : List Token) {found xs : List α} {c d : Cursor}, c.Ended →
      c.ahead.length ≤ bound.length → moreItems item bound found c = .ok xs d →
      d.current.kind ≠ .comma
  | [], found, xs, c, d, ended, few, ran => by
      obtain ⟨-, rfl⟩ := pure_ok.1 ran
      obtain ⟨t, last, final⟩ := ended
      rw [Cursor.tokens, List.eq_nil_of_length_eq_zero (Nat.le_zero.1 few)] at last
      have only : c.current = t := Option.mem_some_iff.1 last
      rw [only, final]
      decide
  | _ :: bound, found, xs, c, d, ended, few, ran => by
      simp only [moreItems, bind_ok, check_ok] at ran
      obtain ⟨_, _, ⟨rfl, rfl⟩, ran⟩ := ran
      split_ifs at ran with mark
      · simp only [bind_ok, advance_ok] at ran
        obtain ⟨_, _, rfl, x, c₂, read, ran⟩ := ran
        have first := ended.tokens_eq (by rw [beq_iff_eq.1 mark]; decide)
        have ended₁ := ended.of_cons first
        have reaches := (h ended₁).ok read
        refine moreItems_stops h bound (reaches.ended ended₁) ?_ ran
        obtain ⟨us, -, split, -⟩ := reaches
        rw [split] at first
        have shorter := congrArg List.length first
        simp only [Cursor.tokens, List.length_cons, List.length_append] at shorter few
        omega
      · obtain ⟨-, rfl⟩ := pure_ok.1 ran
        simpa using mark

section

variable (comma : ∀ {t : Token}, t.kind = .comma →
    leave (f :: fs) t = some (.before goal (f :: fs)))
  (h : ∀ {c : Cursor}, c.Ended →
    Tracks item limit (.before goal (f :: fs)) (.before .rest (f :: fs)) c)

include h

include comma in
/-- The first item may stand behind another state than the others. -/
lemma tracks_items (ended : c.Ended) (first : Tracks item limit s (.before .rest (f :: fs)) c) :
    Tracks (items item) limit s (.before .rest (f :: fs)) c :=
  .bind ended first fun _ ended₁ => .gets (tracks_moreItems comma h _ ended₁)

lemma items_stops {xs : List α} (ended : c.Ended)
    (first : Tracks item limit s (.before .rest (f :: fs)) c) (ran : items item c = .ok xs d) :
    d.current.kind ≠ .comma := by
  simp only [items, bind_ok, get_ok] at ran
  obtain ⟨x, c₁, read, _, _, ⟨rfl, rfl⟩, ran⟩ := ran
  exact moreItems_stops h _ ((first.ok read).ended ended) le_rfl ran

end

/-! ## Lists in their delimiters -/

/-- A reading of a list that is not empty tracks the machine up to where only the delimiter that
closes the list can follow. -/
def TracksList (list : Parse Node → Parse (List α)) (goal : Goal) (close : TokenKind) : Prop :=
  ∀ {value : Parse Node} {left limit : Nat} {fs : List Frame} {c : Cursor},
    TracksValue value left → left + 1 + fs.length = limit → c.Ended → c.current.kind ≠ close →
    ∃ m : State, m.delimiters = (State.before goal fs).delimiters ∧
      Tracks (list value) limit (.before goal fs) m c ∧
      ∀ {xs : List α} {d : Cursor}, list value c = .ok xs d → ∀ limit,
        step limit m d.current = if d.current.kind = close then some (.before .rest fs) else none

lemma tracks_elements (opened : Mark .leftBrace) :
    TracksList items (.elements opened) .rightBrace := by
  intro value left limit fs c h levels ended other
  have comma : ∀ {t : Token}, t.kind = .comma →
      leave (.array opened :: fs) t = some (.before .value (.array opened :: fs)) :=
    fun mark => if_pos mark
  have each : ∀ {c : Cursor}, c.Ended → Tracks value limit (.before .value (.array opened :: fs))
      (.before .rest (.array opened :: fs)) c :=
    h.tracks (by rw [List.length_cons]; omega)
  have first := (each ended).congr (m := .before (.elements opened) fs)
    ⟨rfl, fun _ => if_neg other⟩
  refine ⟨.before .rest (.array opened :: fs), rfl, tracks_items comma each ended first,
    fun ran limit => ?_⟩
  rw [step, leave, if_neg (items_stops each ended first ran)]

lemma kindAhead_eq (ended : c.Ended) (inner : c.current.kind ≠ .endOfInput) :
    c.kindAhead = c.next.current.kind := by
  have first := ended.tokens_eq inner
  exact Cursor.kindAhead_of_tokens first

/-- The first pair in parentheses: its name might have been a value. -/
lemma tracks_firstPair (opened : Mark .leftParen) (h : TracksValue value room)
    (levels : room + 1 + fs.length = limit) (ended : c.Ended)
    (named : c.current.kind = .identifier) (mark : c.kindAhead = .equals) :
    Tracks (pair value) limit (.before (.arguments opened) fs)
      (.before .rest (.pairs opened :: fs)) c := by
  have sign : c.next.current.kind = .equals := by
    rw [← kindAhead_eq ended (by rw [named]; decide), mark]
  have other : ¬ c.current.kind = .rightParen := by
    rw [named]
    decide
  refine tracks_pairFrom (m := .before (.named opened) fs) h (by rw [List.length_cons]; omega)
    ended (fun _ => ?_) fun _ => ?_
  · rw [if_pos named]
    exact (if_neg other).trans (if_pos named)
  · rw [if_pos sign]
    exact if_pos sign

lemma tracks_arguments (opened : Mark .leftParen) :
    TracksList arguments (.arguments opened) .rightParen := by
  intro value left limit fs c h levels ended other
  by_cases pairs : (c.current.kind == .identifier && c.kindAhead == .equals) = true
  · obtain ⟨named, mark⟩ : c.current.kind = .identifier ∧ c.kindAhead = .equals := by
      simpa using pairs
    have comma : ∀ {t : Token}, t.kind = .comma →
        leave (.pairs opened :: fs) t = some (.before .pair (.pairs opened :: fs)) :=
      fun mark => if_pos mark
    have each : ∀ {c : Cursor}, c.Ended → Tracks (pair value) limit
        (.before .pair (.pairs opened :: fs)) (.before .rest (.pairs opened :: fs)) c :=
      tracks_pair h (by rw [List.length_cons]; omega)
    have first := tracks_firstPair opened h levels ended named mark
    have same : arguments value c = items (pair value) c := by
      rw [arguments_apply, if_pos pairs]
    refine ⟨.before .rest (.pairs opened :: fs), rfl,
      (tracks_items comma each ended first).of_apply same, fun ran limit => ?_⟩
    rw [step, leave, if_neg (items_stops each ended first (same ▸ ran))]
  · have same : arguments value c = (do
        let v ← value
        return [⟨"value", v, v.span⟩] : Parse (List PairNode)) c := by
      rw [arguments_apply, if_neg pairs]
    by_cases named : c.current.kind = .identifier
    · have inner : c.current.kind ≠ .endOfInput := by rw [named]; decide
      obtain ⟨v, read⟩ := h.named named
      have goes : step limit (.before (.arguments opened) fs) c.current =
          some (.before (.named opened) fs) := by
        rw [step, if_neg other, if_pos named]
      have first : Tracks value limit (.before (.arguments opened) fs)
          (.before (.named opened) fs) c := .passes ended inner read goes
      have unsigned : c.next.current.kind ≠ .equals := by
        rw [← kindAhead_eq ended inner]
        simpa [named] using pairs
      refine ⟨.before (.named opened) fs, rfl,
        (first.bind ended fun _ _ => .pure (.refl _ _)).of_apply same, fun ran limit => ?_⟩
      rw [same] at ran
      obtain ⟨v', d', read', rest⟩ := bind_ok.1 ran
      obtain ⟨-, rfl⟩ := pure_ok.1 rest
      cases read.symm.trans read'
      exact if_neg unsigned
    · have levels' : left + (Frame.lone opened :: fs).length = limit := by
        rw [List.length_cons]
        omega
      have first := (h.tracks levels' ended).congr (m := .before (.arguments opened) fs)
        ⟨rfl, fun _ => (if_neg other).trans (if_neg named)⟩
      exact ⟨.before .rest (.lone opened :: fs), rfl,
        (first.bind ended fun _ _ => .pure (.refl _ _)).of_apply same, fun _ _ => rfl⟩

/-- How values are read one level further in, where `room` levels may be opened. -/
inductive TracksInside : Option (Parse Node) → Nat → Prop
  | none : TracksInside none 0
  | some {value : Parse Node} {left : Nat} (h : TracksValue value left) :
      TracksInside (some value) (left + 1)

variable {inner innermost : Option (Parse Node)}

/-- A token that opens a level, and what stands on it.  At the limit this token is the fault. -/
lemma tracks_level {body : Parse Node → Parse α} (inside : TracksInside inner room)
    (levels : room + fs.length = limit) (ended : c.Ended) (opens : c.current.OpensLevel)
    (enters : ∀ limit, step limit s c.current = if fs.length < limit then some m else none)
    (within : ∀ {value : Parse Node} {left : Nat} {d : Cursor}, TracksValue value left →
      room = left + 1 → d.Ended → Tracks (body value) limit m s' d) :
    Tracks (do
      advance
      nested inner c.current.span body) limit s s' c := by
  cases inside with
  | none =>
      have full : step limit s c.current = none := by
        rw [enters, if_neg (by omega)]
      have deeper : step (limit + 1) s c.current = some m := by
        rw [enters, if_pos (by omega)]
      exact .tooDeep opens full deeper
  | @some value left h =>
      have goes : step limit s c.current = some m := by
        rw [enters, if_pos (by omega)]
      have first : c.current.kind ≠ .endOfInput := by
        rcases opens with kind | kind | kind <;> rw [kind] <;> decide
      exact .bind ended (.advance ended first goes) fun _ ended₁ =>
        .nested ended₁ (within h rfl ended₁)

/-- A list in its delimiters, from the opening one on. -/
lemma tracks_enclosed {close : TokenKind} {delimiter : Char}
    {list : Parse Node → Parse (List α)} {build : List α → Span → β}
    (inside : TracksInside inner room) (levels : room + fs.length = limit) (ended : c.Ended)
    (closes : Closes close) (opens : c.current.Opens delimiter)
    (enters : ∀ limit, step limit s c.current =
      if fs.length < limit then some (.before goal fs) else none)
    (innermost : goal.delimiters = [c.current]) (lists : TracksList list goal close)
    (empty : ∀ {t : Token} {limit : Nat}, t.kind = close →
      step limit (.before goal fs) t = some (.before .rest fs)) :
    Tracks (do
      advance
      enclosed inner c.current.span close delimiter list build) limit s (.before .rest fs) c := by
  have last : close ≠ .endOfInput := by rcases closes with h | h <;> rw [h] <;> decide
  -- what is left once the list has been read
  have closing : ∀ {xs : List α} {m : State} {e : Cursor}, e.Ended →
      m.delimiters = (State.before goal fs).delimiters →
      (∀ limit, step limit m e.current =
        if e.current.kind = close then some (.before .rest fs) else none) →
      Tracks (do
        let closed ← expectClosing close delimiter c.current.span
        return build xs closed) limit m (.before .rest fs) e := by
    intro xs m e ended' delimiters closable
    rw [State.delimiters, innermost] at delimiters
    exact .bind ended' (.expectClosing ended' last closable delimiters opens) fun _ _ =>
      .pure (.refl _ _)
  refine tracks_level inside levels ended (opens.imp And.left fun brace => .inl brace.1) enters
    fun {value left d} h room ended₁ => .checks ?_
  by_cases nothing : d.current.kind = close
  · simp only [beq_iff_eq, if_pos nothing]
    refine .bind ended₁ (.pure (.refl _ _)) fun ran _ => ?_
    obtain ⟨-, rfl⟩ := pure_ok.1 ran
    exact closing ended₁ rfl fun limit => (empty nothing).trans (if_pos nothing).symm
  · simp only [beq_iff_eq, if_neg nothing]
    obtain ⟨m, delimiters, list, stops⟩ := lists h (room ▸ levels) ended₁ nothing
    exact .bind ended₁ list fun ran ended₂ => closing ended₂ delimiters (stops ran)

/-! ## Annotations and values -/

/-- An annotation behind its sign is tracked, if what is inside it is with a level less. -/
lemma tracks_annotations (inside : TracksInside inner room) (levels : room + fs.length = limit)
    (ended : c.Ended) :
    Tracks ( annotation inner) limit (.before .annotated fs) (.before .rest fs) c := by
  rw [annotation_eq]
  refine .bind ended (.expect ended (by decide) fun _ => rfl) fun {_ d} _ ended₁ => .checks ?_
  by_cases left : d.current.kind = .leftParen
  · rw [if_pos (beq_iff_eq.2 left)]
    have enters : ∀ limit, step limit (.before .parens fs) d.current =
        if fs.length < limit then some (.before (.arguments ⟨d.current, left⟩) fs) else none :=
      fun _ => dif_pos left
    exact .reads (tracks_enclosed inside levels ended₁ (.inl rfl) (.inl ⟨left, rfl⟩) enters rfl
      (tracks_arguments _) fun right => if_pos right)
  · rw [if_neg (by rwa [beq_iff_eq])]
    exact .pure ⟨rfl, fun _ => dif_neg left⟩

/-- A value of any form is tracked, if what is inside it is with a level less. -/
lemma tracks_valueWith (inside : TracksInside inner room)
    (inside' : TracksInside innermost (room - 1)) (levels : room + fs.length = limit)
    (ended : c.Ended) :
    Tracks (valueWith inner innermost) limit (.before .value fs) (.before .rest fs) c := by
  refine .reads ?_
  cases raw : c.current.kind.literalKind? with
  | some kind =>
      have word : c.current.kind.isWord = true := by rw [TokenKind.isWord, raw]; rfl
      have first : c.current.kind ≠ .endOfInput := fun same => by rw [same] at raw; cases raw
      exact .bind ended (.advance ended first (if_pos word)) fun _ _ => .pure (.refl _ _)
  | none =>
      have unread : ¬ c.current.kind.isWord = true := by rw [TokenKind.isWord, raw]; simp
      by_cases left : c.current.kind = .leftBrace
      · simp only [if_pos left, array_eq]
        have enters : ∀ limit, step limit (.before .value fs) c.current =
            if fs.length < limit then some (.before (.elements ⟨c.current, left⟩) fs) else none :=
          fun _ => (if_neg unread).trans (dif_pos left)
        exact .reads (tracks_enclosed inside levels ended (.inr rfl) (.inr ⟨left, rfl⟩) enters rfl
          (tracks_elements _) fun right => if_pos right)
      · simp only [if_neg left]
        by_cases mark : c.current.kind = .atSign
        · simp only [if_pos mark]
          have enters : ∀ limit, step limit (.before .value fs) c.current =
              if fs.length < limit then some (.before .annotated (.nested :: fs)) else none :=
            fun _ => (if_neg unread).trans ((dif_neg left).trans (if_pos mark))
          refine tracks_level inside levels ended (.inr (.inr mark)) enters fun _ more ended₁ => ?_
          have levels' : room - 1 + (Frame.nested :: fs).length = limit := by
            rw [List.length_cons]
            omega
          exact .bind ended₁ (tracks_annotations inside' levels' ended₁) fun _ _ =>
            .pure ⟨rfl, fun _ => rfl⟩
        · simp only [if_neg mark]
          exact .unexpected fun _ => (if_neg unread).trans ((dif_neg left).trans (if_neg mark))

lemma tracksInside_of {room : Nat} (h : ∀ left, left < room → TracksValue (Parse.value left) left) :
    TracksInside (inside room) room := by
  cases room with
  | zero => exact .none
  | succ left => exact .some (h left (Nat.lt_succ_self left))

/-- **Values are read as the machine reads them.** -/
theorem tracks_value (left : Nat) : TracksValue (Parse.value left) left := by
  induction left using Nat.strongRecOn with
  | ind left ih =>
      rw [value_eq]
      refine ⟨tracks_valueWith (tracksInside_of ih) (tracksInside_of fun m less =>
        ih m (Nat.lt_of_lt_of_le less (Nat.pred_le left))), fun {c} named => ?_⟩
      refine ⟨.literal .identifier c.current.text c.current.span, ?_⟩
      simp only [valueWith, bind_ok, current_ok]
      refine ⟨c.current, c, ⟨rfl, rfl⟩, ?_⟩
      rw [named]
      rfl

lemma tracksInside (room : Nat) : TracksInside (inside room) room :=
  tracksInside_of fun left _ => tracks_value left

/-! ## Whole texts -/

lemma tracks_nextValue (left : c.left = limit) (ended : c.Ended) :
    Tracks nextValue limit (.before .value []) (.before .rest []) c :=
  .gets ((tracks_value c.left).tracks left ended)

/-- A whole annotation is tracked from the first state of the machine. -/
lemma tracks_nextRoot (left : c.left = limit) (ended : c.Ended) :
    Tracks nextRoot limit (.before .root []) (.before .rest []) c := by
  refine .checks ?_
  by_cases mark : c.current.kind = .atSign
  · rw [if_pos (beq_iff_eq.2 mark)]
    refine .bind ended (.advance ended (by rw [mark]; decide) (if_pos mark)) fun ran ended₁ =>
      .gets ?_
    obtain rfl := advance_ok.1 ran
    exact tracks_annotations (tracksInside _) (left_next.trans left) ended₁
  · rw [if_neg (by rwa [beq_iff_eq])]
    exact .gets ((tracks_annotations (tracksInside _) left ended).congr
      ⟨rfl, fun _ => if_neg mark⟩)

lemma tracks_expectEnd : Tracks expectEnd limit (.before .rest []) (.before .rest []) c := by
  have refused : c.current.kind ≠ .endOfInput →
      ∀ limit, step limit (.before .rest []) c.current = none := fun more _ => if_neg more
  refine .reads ?_
  cases kind : c.current.kind
  case endOfInput => exact .pure (.refl _ _)
  case unterminated => exact .unexpected (refused (by rw [kind]; decide))
  all_goals
    exact .throws (.trailing (by rw [kind]; decide) (by rw [kind]; decide)
      (refused (by rw [kind]; decide)))

/-- **Where the parser fails on a text, the machine stops.** -/
theorem stuck_of_runText {text : String} {tokens : List Token} (cut : tokenize text = .ok tokens)
    (tracks : ∀ {c : Cursor}, c.left = maxNesting → c.Ended →
      Tracks p maxNesting s (.before .rest []) c)
    (failed : p.runText text = .error error) : Stuck maxNesting s tokens error := by
  obtain ⟨all, left, ended⟩ := ofTokens_of_tokenize cut
  have whole : Tracks (do let a ← p; expectEnd; return a) maxNesting s (.before .rest [])
      (Cursor.ofTokens tokens) :=
    .bind ended (tracks left ended) fun _ ended₁ =>
      .bind ended₁ tracks_expectEnd fun _ _ => .pure (.refl _ _)
  rw [← all]
  simp only [runText, cut] at failed
  split at failed
  · cases failed
  · next e d ran =>
      cases failed
      exact whole.error ran

end Parse

end DocAnnotations
