import DocAnnotations.Proofs.Node.Accepting

/-!
# The parser and its grammar

The lemmas follow the parser from the inside out: each assumes of the readings it is made of what it
shows of the whole.

**Arguments, annotations and arrays.**  Arguments are pairs if they begin with a name and an equals
sign, and one lone value otherwise; one token ahead is enough to tell them apart.  Both sorts of
brackets are read by one reading of what is `enclosed`, which has one lemma.

**Values.**  The readings are tied together by induction on the number of levels that may still be
opened (`accepts_value`).

**The main statements.**  **`parse_iff_derived`**: a text is read as a tree exactly if its tokens,
up to the end of input, are derived from the grammar as that tree with at most `maxNesting` levels
open at once; and so for lone values.
-/

namespace DocAnnotations

open Grammar

namespace Parse

variable {α β : Type} {p : Parse α} {c d : Cursor} {value : Parse Node} {room : Nat}

/-! ## Arguments, annotations and arrays -/

/-- The first token of a value opens a list, an annotation or is all of it. -/
lemma head_of_isValue {ts : List Token} {v : Node} {depth : Nat} (h : IsValue ts v depth) :
    ∃ t us, ts = t :: us ∧ t.kind ≠ .rightParen ∧ t.kind ≠ .rightBrace ∧
      (t.kind = .identifier → us = []) := by
  cases h with
  | @literal t kind raw =>
      refine ⟨t, [], rfl, ?_, ?_, fun _ => rfl⟩ <;> intro same <;> rw [same] at raw <;> cases raw
  | emptyArray left right => exact ⟨_, _, rfl, by rw [left]; simp⟩
  | array left items right => exact ⟨_, _, rfl, by rw [left]; simp⟩
  | nested mark inner => exact ⟨_, _, rfl, by rw [mark]; simp⟩

/-- What every item begins with, a list of items begins with. -/
lemma begins_of_separated {Item : List Token → α → Nat → Prop} {P : List Token → Prop}
    (grows : ∀ {ts}, P ts → ∀ us, P (ts ++ us))
    (begins : ∀ {ts x depth}, Item ts x depth → P ts) {ts : List Token} {xs : List α}
    {depth : Nat} (items : Separated Item ts xs depth) : P ts := by
  cases items with
  | last item => exact begins item
  | more item mark items => exact grows (begins item) _

/-- A list of pairs begins with a name and an equals sign, which no lone value does. -/
lemma begins_of_isPairs {ts : List Token} {ps : List PairNode} {depth : Nat}
    (items : Separated IsPair ts ps depth) :
    ∃ name equals us, ts = name :: equals :: us ∧ name.kind = .identifier ∧
      equals.kind = .equals := by
  refine begins_of_separated (P := fun ts => ∃ name equals us, ts = name :: equals :: us ∧
    name.kind = .identifier ∧ equals.kind = .equals) ?_ ?_ items
  · rintro _ ⟨name, equals, us, rfl, named, mark⟩ vs
    exact ⟨name, equals, us ++ vs, rfl, named, mark⟩
  · rintro _ _ _ ⟨named, mark, -⟩
    exact ⟨_, _, _, rfl, named, mark⟩

/-- No list starts with the delimiter that would close it. -/
lemma head_of_isArguments {ts : List Token} {ps : List PairNode} {depth : Nat}
    (h : IsArguments ts ps depth) : ∃ t us, ts = t :: us ∧ t.kind ≠ .rightParen := by
  cases h with
  | pairs items =>
      obtain ⟨name, equals, us, rfl, named, -⟩ := begins_of_isPairs items
      exact ⟨name, _, rfl, by rw [named]; decide⟩
  | lone derived =>
      obtain ⟨t, us, rfl, other, -⟩ := head_of_isValue derived
      exact ⟨t, us, rfl, other⟩

/-- A list of values does not begin with a closing brace, so that it is told from an empty one. -/
lemma head_of_isValues {ts : List Token} {ns : List Node} {depth : Nat}
    (items : Separated IsValue ts ns depth) : ∃ t us, ts = t :: us ∧ t.kind ≠ .rightBrace := by
  refine begins_of_separated (P := fun ts => ∃ t us, ts = t :: us ∧ t.kind ≠ .rightBrace)
    ?_ ?_ items
  · rintro _ ⟨t, us, rfl, other⟩ vs
    exact ⟨t, us ++ vs, rfl, other⟩
  · intro ts v depth derived
    obtain ⟨t, us, rfl, -, other, -⟩ := head_of_isValue derived
    exact ⟨t, us, rfl, other⟩

/-- Which of the two forms the arguments have is decided by the first two tokens. -/
lemma arguments_apply (c : Cursor) :
    arguments value c = (if c.current.kind == .identifier && c.kindAhead == .equals then
      items (pair value)
    else do
      let v ← value
      return [⟨"value", v, v.span⟩] : Parse (List PairNode)) c :=
  rfl

/-- If values are read as the grammar has them, so are arguments, in both forms. -/
lemma accepts_arguments (h : Accepts value IsValue room Delimits) :
    Accepts (arguments value) IsArguments room Closes where
  sound := by
    intro c ps d ended ran
    rw [arguments_apply] at ran
    split_ifs at ran
    · obtain ⟨ts, depth, derived, few, tokens⟩ := (accepts_items (accepts_pair h)).sound ended ran
      exact ⟨ts, depth, .pairs derived, few, tokens⟩
    · simp only [bind_ok, pure_ok] at ran
      obtain ⟨v, _, read, rfl, rfl⟩ := ran
      obtain ⟨ts, depth, derived, few, tokens⟩ := h.sound ended read
      exact ⟨ts, depth, .lone derived, few, tokens⟩
  complete := by
    intro c ps ts depth t rest derived few follow tokens
    rw [arguments_apply]
    cases derived with
    | pairs items =>
        obtain ⟨name, equals, us, rfl, named, mark⟩ := begins_of_isPairs items
        have first : c.current = name := (List.cons.inj tokens).1
        have named' : (c.current.kind == .identifier && c.kindAhead == .equals) = true := by
          simp [first, Cursor.kindAhead_of_tokens tokens, named, mark]
        rw [if_pos named']
        exact (accepts_items (accepts_pair h)).complete items few follow tokens
    | lone derived =>
        obtain ⟨u, us, rfl, -, -, alone⟩ := head_of_isValue derived
        have first : c.current = u := (List.cons.inj tokens).1
        have unnamed : ¬ (c.current.kind == .identifier && c.kindAhead == .equals) = true := by
          rw [Bool.and_eq_true, beq_iff_eq, beq_iff_eq, first]
          rintro ⟨named, mark⟩
          cases alone named
          rw [Cursor.kindAhead_of_tokens tokens] at mark
          rcases follow with closing | closing <;> rw [closing] at mark <;> cases mark
        rw [if_neg unnamed]
        obtain ⟨d, ran, tokens'⟩ := h.complete derived few follow.delimits tokens
        simp only [bind_ok, pure_ok]
        exact ⟨d, ⟨_, d, ran, rfl, rfl⟩, tokens'⟩

/-- How values are read one level further in, where `room` levels may be opened. -/
inductive AcceptsInside : Option (Parse Node) → Nat → Prop
  | none : AcceptsInside none 0
  | some {value : Parse Node} {left : Nat} (h : Accepts value IsValue left Delimits) :
      AcceptsInside (some value) (left + 1)

/-- A list on a level of its own, and the delimiter that closes it. -/
def enclosed (inner : Option (Parse Node)) (opened : Span) (close : TokenKind) (delimiter : Char)
    (list : Parse Node → Parse (List α)) (build : List α → Span → β) : Parse β :=
  nested inner opened fun value => do
    let xs ← if ← check close then pure [] else list value
    let closed ← expectClosing close delimiter opened
    return build xs closed

/-- What stands behind an opening delimiter: a list or nothing, and the closing delimiter. -/
inductive Enclosed (Part : List Token → List α → Nat → Prop) (close : TokenKind)
    (build : List α → Span → β) : List Token → β → Nat → Prop
  | nothing {closed : Token} (right : closed.kind = close) :
      Enclosed Part close build [closed] (build [] closed.span) 1
  | list {ts : List Token} {xs : List α} {depth : Nat} {closed : Token} (inner : Part ts xs depth)
      (right : closed.kind = close) :
      Enclosed Part close build (ts ++ [closed]) (build xs closed.span) (depth + 1)

section

variable {inner : Option (Parse Node)} {opened : Span} {close : TokenKind} {delimiter : Char}
  {list : Parse Node → Parse (List α)} {build : List α → Span → β}
  {Part : List Token → List α → Nat → Prop}

/-- Something enclosed is read if it is empty, or if a list is read in front of the closing
token. -/
lemma enclosed_ok {b : β} : enclosed inner opened close delimiter list build c = .ok b d ↔
    ∃ value xs c' e span, inner = some value ∧
      ((c.current.kind = close ∧ xs = [] ∧ c' = { c with depth := c.depth + 1 }) ∨
        (c.current.kind ≠ close ∧ list value { c with depth := c.depth + 1 } = .ok xs c')) ∧
      expectClosing close delimiter opened c' = .ok span e ∧ b = build xs span ∧
      d = { e with depth := e.depth - 1 } := by
  simp only [enclosed, nested_ok, bind_ok, check_ok]
  constructor
  · rintro ⟨value, e, rfl, ⟨_, _, ⟨rfl, rfl⟩, ran⟩, rfl⟩
    split_ifs at ran with empty
    · simp only [bind_ok, pure_ok] at ran
      obtain ⟨xs, _, ⟨rfl, rfl⟩, span, _, closing, rfl, rfl⟩ := ran
      exact ⟨value, _, _, _, span, rfl, .inl ⟨by simpa using empty, rfl, rfl⟩, closing, rfl, rfl⟩
    · simp only [bind_ok, pure_ok] at ran
      obtain ⟨xs, c', ran, span, _, closing, rfl, rfl⟩ := ran
      exact ⟨value, xs, c', _, span, rfl, .inr ⟨by simpa using empty, ran⟩, closing, rfl, rfl⟩
  · rintro ⟨value, xs, c', e, span, rfl, ran, closing, rfl, rfl⟩
    refine ⟨value, e, rfl, ⟨_, _, ⟨rfl, rfl⟩, ?_⟩, rfl⟩
    rcases ran with ⟨empty, rfl, rfl⟩ | ⟨more, ran⟩
    · rw [if_pos (by simpa using empty)]
      simp only [bind_ok, pure_ok]
      exact ⟨_, _, ⟨rfl, rfl⟩, span, e, closing, rfl, rfl⟩
    · rw [if_neg (by simpa using more)]
      simp only [bind_ok, pure_ok]
      exact ⟨xs, c', ran, span, e, closing, rfl, rfl⟩

/-- If the parts of a list are read as the grammar has them, so is the list between its brackets,
one level deeper. -/
lemma accepts_enclosed (h : AcceptsInside inner room) (closes : Closes close)
    (lists : ∀ {value left}, Accepts value IsValue left Delimits →
      Accepts (list value) Part left Closes)
    (head : ∀ {ts xs depth}, Part ts xs depth → ∃ t us, ts = t :: us ∧ t.kind ≠ close) :
    Accepts (enclosed inner opened close delimiter list build) (Enclosed Part close build) room
      fun _ => True where
  sound := by
    intro c b d ended ran
    rw [enclosed_ok] at ran
    obtain ⟨value, xs, c', e, span, same, ran, closing, rfl, rfl⟩ := ran
    cases h with
    | none => cases same
    | @some value left h =>
        cases same
        obtain ⟨right, rfl, rfl⟩ := expectClosing_ok.1 closing
        have last : close ≠ .endOfInput := by rcases closes with h | h <;> rw [h] <;> decide
        rcases ran with ⟨-, rfl, rfl⟩ | ⟨-, ran⟩
        · exact ⟨_, _, .nothing right, by omega,
            Cursor.Ended.tokens_eq (c := { c with depth := c.depth + 1 }) ended (right ▸ last)⟩
        · obtain ⟨ts, depth, derived, few, tokens⟩ :=
            (lists h).sound (c := { c with depth := c.depth + 1 }) ended ran
          have ended' : c'.Ended := Cursor.Ended.of_append (c := c) ended tokens
          refine ⟨_, _, .list derived right, by omega, ?_⟩
          rw [List.append_assoc]
          exact tokens.trans (congrArg _ (ended'.tokens_eq (right ▸ last)))
  complete := by
    intro c b ts depth t rest derived few _ tokens
    simp only [enclosed_ok]
    have last : close ≠ .endOfInput := by rcases closes with h | h <;> rw [h] <;> decide
    cases h with
    | none => cases derived <;> omega
    | @some value left h =>
        cases derived with
        | @nothing closed right =>
            have first : c.current = closed := (List.cons.inj tokens).1
            obtain ⟨e, ran, tokens'⟩ := exists_expectClosing
              (c := { c with depth := c.depth + 1 }) tokens (by simp) right last delimiter opened
            exact ⟨_, ⟨value, [], _, e, _, rfl, .inl ⟨by rw [first, right], rfl, rfl⟩, ran, rfl,
              rfl⟩, tokens'⟩
        | @list ts xs depth closed derived right =>
            obtain ⟨u, us, same, other⟩ := head derived
            rw [List.append_assoc] at tokens
            have first : c.current = u := by
              rw [same] at tokens
              exact (List.cons.inj tokens).1
            obtain ⟨c', ran, tokens'⟩ := (lists h).complete (c := { c with depth := c.depth + 1 })
              derived (Nat.le_of_succ_le_succ few) (right ▸ closes) tokens
            obtain ⟨e, ran', tokens''⟩ := exists_expectClosing tokens' (by simp) right last
              delimiter opened
            exact ⟨_, ⟨value, xs, c', e, _, rfl, .inr ⟨by rwa [first], ran⟩, ran', rfl, rfl⟩,
              tokens''⟩

end

lemma annotation_eq (inner : Option (Parse Node)) : annotation inner = (do
    let name ← expect .identifier "annotation name"
    if ← check .leftParen then
      let opened := (← current).span
      advance
      enclosed inner opened .rightParen '(' arguments fun pairs closed =>
        ⟨name.text, pairs, name.span.to closed⟩
    else return ⟨name.text, [], name.span⟩) := rfl

lemma array_eq (inner : Option (Parse Node)) : array inner = (do
    let opened := (← current).span
    advance
    enclosed inner opened .rightBrace '{' items fun elements closed =>
      .array elements (opened.to closed)) := rfl

variable {inner innermost : Option (Parse Node)}

/-- An annotation without its parentheses or with them. -/
lemma isAnnotation_iff {ts : List Token} {a : AnnotationNode} {depth : Nat} :
    IsAnnotation ts a depth ↔ ∃ name us, ts = name :: us ∧ name.kind = .identifier ∧
      ((us = [] ∧ a = ⟨name.text, [], name.span⟩ ∧ depth = 0) ∨ ∃ opened vs, us = opened :: vs ∧
        opened.kind = .leftParen ∧ Enclosed IsArguments .rightParen
          (fun pairs closed => ⟨name.text, pairs, name.span.to closed⟩) vs a depth) := by
  constructor
  · intro h
    cases h with
    | bare named => exact ⟨_, _, rfl, named, .inl ⟨rfl, rfl, rfl⟩⟩
    | empty named left right => exact ⟨_, _, rfl, named, .inr ⟨_, _, rfl, left, .nothing right⟩⟩
    | arguments named left inner right =>
        exact ⟨_, _, rfl, named, .inr ⟨_, _, rfl, left, .list inner right⟩⟩
  · rintro ⟨name, _, rfl, named, ⟨rfl, rfl, rfl⟩ | ⟨opened, vs, rfl, left, enclosed⟩⟩
    · exact .bare named
    · cases enclosed with
      | nothing right => exact .empty named left right
      | list inner right => exact .arguments named left inner right

/-- If the values inside are read as the grammar has them, so is an annotation behind its sign. -/
lemma accepts_annotations (h : AcceptsInside inner room) :
    Accepts ( annotation inner) IsAnnotation room Delimits where
  sound := by
    intro c a d ended ran
    simp only [annotation_eq, bind_ok, expect_ok, check_ok] at ran
    obtain ⟨name, _, ⟨named, rfl, rfl⟩, _, _, ⟨rfl, rfl⟩, ran⟩ := ran
    have first := ended.tokens_eq (by rw [named]; decide)
    have ended₁ := ended.of_cons first
    simp only [isAnnotation_iff]
    split_ifs at ran with left
    · simp only [bind_ok, current_ok, advance_ok] at ran
      obtain ⟨opened, _, ⟨rfl, rfl⟩, _, _, rfl, ran⟩ := ran
      rw [beq_iff_eq] at left
      have second := ended₁.tokens_eq (by rw [left]; decide)
      have ended₂ := ended₁.of_cons second
      obtain ⟨ts, depth, derived, few, third⟩ := (accepts_enclosed h (.inl rfl)
        accepts_arguments head_of_isArguments).sound ended₂ ran
      exact ⟨_, depth, ⟨_, _, rfl, named, .inr ⟨_, ts, rfl, left, derived⟩⟩, few,
        by rw [first, second, third]; rfl⟩
    · rw [pure_ok] at ran
      obtain ⟨rfl, rfl⟩ := ran
      exact ⟨_, 0, ⟨_, _, rfl, named, .inl ⟨rfl, rfl, rfl⟩⟩, Nat.zero_le _, first⟩
  complete := by
    intro c a ts depth t rest derived few follow tokens
    obtain ⟨name, us, rfl, named, shape⟩ := isAnnotation_iff.1 derived
    obtain ⟨c₁, ran₁, tokens₁⟩ := exists_expect tokens (by simp) named (by decide)
      "annotation name"
    simp only [annotation_eq, bind_ok, check_ok]
    rcases shape with ⟨rfl, rfl, rfl⟩ | ⟨opened, vs, rfl, left, derived⟩
    · have current : c₁.current = t := (List.cons.inj tokens₁).1
      refine ⟨c₁, ⟨name, c₁, ran₁, _, _, ⟨rfl, rfl⟩, ?_⟩, tokens₁⟩
      have bare : (c₁.current.kind == .leftParen) = false := by
        rw [current]
        rcases follow with h | h | h | h <;> rw [h] <;> rfl
      rw [bare]
      rfl
    · have current : c₁.current = opened := (List.cons.inj tokens₁).1
      obtain ⟨c₂, ran₂, tokens₂⟩ := exists_advance tokens₁ (by simp) (by rw [left]; decide)
      have list : Accepts (enclosed inner opened.span .rightParen '(' arguments fun pairs closed =>
          (⟨name.text, pairs, name.span.to closed⟩ : AnnotationNode)) _ room _ :=
        accepts_enclosed h (.inl rfl) accepts_arguments head_of_isArguments
      obtain ⟨d, ran, tokens₃⟩ := list.complete derived few trivial tokens₂
      refine ⟨d, ⟨name, c₁, ran₁, true, c₁, ⟨by rw [current, left]; rfl, rfl⟩, ?_⟩, tokens₃⟩
      simp only [if_true, bind_ok, current_ok]
      exact ⟨opened, c₁, ⟨current, rfl⟩, _, c₂, ran₂, ran⟩

/-! ## Values -/

/-- An array in its braces. -/
lemma isValue_array_iff {ts : List Token} {n : Node} {depth : Nat} {opened : Token}
    (left : opened.kind = .leftBrace) : IsValue (opened :: ts) n depth ↔
      Enclosed (Separated IsValue) .rightBrace
        (fun elements closed => Node.array elements (opened.span.to closed)) ts n depth := by
  constructor
  · intro h
    cases h with
    | literal raw => rw [left] at raw; cases raw
    | emptyArray _ right => exact .nothing right
    | array _ items right => exact .list items right
    | nested mark _ => rw [left] at mark; cases mark
  · intro h
    cases h with
    | nothing right => exact .emptyArray left right
    | list items right => exact .array left items right

/-- If what is inside is read as the grammar has it, so is a value of any form. -/
lemma accepts_valueWith (h : AcceptsInside inner room) (h' : AcceptsInside innermost (room - 1)) :
    Accepts (valueWith inner innermost) IsValue room Delimits where
  sound := by
    intro c v d ended ran
    simp only [valueWith, bind_ok, current_ok] at ran
    obtain ⟨_, _, ⟨rfl, rfl⟩, ran⟩ := ran
    cases raw : c.current.kind.literalKind? with
    | some kind =>
        simp only [raw, bind_ok, advance_ok, pure_ok] at ran
        obtain ⟨_, _, rfl, rfl, rfl⟩ := ran
        have inner : c.current.kind ≠ .endOfInput := fun same => by rw [same] at raw; cases raw
        exact ⟨_, 0, .literal raw, Nat.zero_le _, ended.tokens_eq inner⟩
    | none =>
        simp only [raw] at ran
        split_ifs at ran with left mark
        · simp only [array_eq, bind_ok, current_ok, advance_ok] at ran
          obtain ⟨_, _, ⟨rfl, rfl⟩, _, _, rfl, ran⟩ := ran
          have first := ended.tokens_eq (by rw [left]; decide)
          obtain ⟨ts, depth, derived, few, second⟩ := (accepts_enclosed h (.inr rfl)
            accepts_items head_of_isValues).sound (ended.of_cons first) ran
          exact ⟨_, depth, (isValue_array_iff left).2 derived, few, by rw [first, second]; rfl⟩
        · simp only [bind_ok, advance_ok, nested_ok, pure_ok] at ran
          obtain ⟨_, _, rfl, value, e, same, ⟨a, _, ran, rfl, rfl⟩, rfl⟩ := ran
          have first := ended.tokens_eq (by rw [mark]; decide)
          have ended' : Cursor.Ended { c.next with depth := c.next.depth + 1 } :=
            Cursor.Ended.of_cons (c := c) ended first
          obtain ⟨ts, depth, derived, few, second⟩ := (accepts_annotations h').sound ended' ran
          cases h with
          | none => cases same
          | some => exact ⟨_, depth + 1, .nested mark derived, Nat.succ_le_succ few,
              first.trans (congrArg _ second)⟩
        · exact absurd ran unexpected_ok
  complete := by
    intro c v ts depth t rest derived few follow tokens
    simp only [valueWith, bind_ok, current_ok]
    obtain ⟨u, us, rfl, -⟩ := head_of_isValue derived
    have current : c.current = u := (List.cons.inj tokens).1
    by_cases left : u.kind = .leftBrace
    · obtain ⟨c₁, ran₁, tokens₁⟩ := exists_advance tokens (by simp) (by rw [left]; decide)
      have list : Accepts (enclosed inner u.span .rightBrace '{' items fun elements closed =>
          Node.array elements (u.span.to closed)) _ room _ :=
        accepts_enclosed h (.inr rfl) accepts_items head_of_isValues
      obtain ⟨d, ran, tokens₂⟩ := list.complete ((isValue_array_iff left).1 derived) few trivial
        tokens₁
      refine ⟨d, ⟨u, c, ⟨current, rfl⟩, ?_⟩, tokens₂⟩
      simp only [left, TokenKind.literalKind?, if_true, array_eq, bind_ok, current_ok]
      exact ⟨u, c, ⟨current, rfl⟩, _, c₁, ran₁, ran⟩
    · cases derived with
      | @literal _ kind raw =>
          have inner : u.kind ≠ .endOfInput := fun same => by rw [same] at raw; cases raw
          obtain ⟨c₁, ran₁, tokens₁⟩ := exists_advance tokens (by simp) inner
          refine ⟨c₁, ⟨u, c, ⟨current, rfl⟩, ?_⟩, tokens₁⟩
          simp only [raw, bind_ok, pure_ok]
          exact ⟨_, c₁, ran₁, trivial, rfl⟩
      | emptyArray brace => exact absurd brace left
      | array brace => exact absurd brace left
      | @nested _ _ a _ mark derived =>
          obtain ⟨c₁, ran₁, tokens₁⟩ := exists_advance tokens (by simp) (by rw [mark]; decide)
          obtain ⟨d, ran, tokens₂⟩ := (accepts_annotations h').complete
            (c := { c₁ with depth := c₁.depth + 1 }) derived (Nat.le_pred_of_lt few) follow tokens₁
          refine ⟨{ d with depth := d.depth - 1 }, ⟨u, c, ⟨current, rfl⟩, ?_⟩, tokens₂⟩
          simp only [mark, TokenKind.literalKind?, if_true, reduceCtorEq, if_false, bind_ok,
            nested_ok, pure_ok]
          cases h with
          | none => omega
          | @some value _ _ => exact ⟨_, c₁, ran₁, value, d, rfl, ⟨a, d, ran, rfl, rfl⟩, rfl⟩

/-- The readings that a value is made of. -/
lemma value_eq : ∀ left : Nat, Parse.value left = valueWith (inside left) (inside (left - 1))
  | 0 => rfl
  | 1 => rfl
  | _ + 2 => rfl

/-- With a level left, the values inside are read with one level less. -/
lemma acceptsInside_of {room : Nat}
    (h : ∀ left, left < room → Accepts (Parse.value left) IsValue left Delimits) :
    AcceptsInside (inside room) room := by
  cases room with
  | zero => exact .none
  | succ left => exact .some (h left (Nat.lt_succ_self left))

/-- Values are read exactly as far as the levels that are left allow. -/
theorem accepts_value (left : Nat) : Accepts (Parse.value left) IsValue left Delimits := by
  induction left using Nat.strongRecOn with
  | ind left ih =>
      rw [value_eq]
      exact accepts_valueWith (acceptsInside_of ih)
        (acceptsInside_of fun m less => ih m (Nat.lt_of_lt_of_le less (Nat.pred_le left)))

/-- Whatever levels are left, the values inside are read as the grammar has them. -/
lemma acceptsInside (room : Nat) : AcceptsInside (inside room) room :=
  acceptsInside_of fun left _ => accepts_value left

/-! ## Whole texts -/

lemma left_next : c.next.left = c.left := by
  unfold Cursor.next Cursor.left
  split
  · rfl
  · split <;> rfl

/-- A root is an annotation at the cursor or behind an `@`. -/
lemma nextRoot_ok {a : AnnotationNode} : nextRoot c = .ok a d ↔
    (c.current.kind = .atSign ∧ annotation (inside c.left) c.next = .ok a d) ∨
      (c.current.kind ≠ .atSign ∧ annotation (inside c.left) c = .ok a d) := by
  simp only [nextRoot, bind_ok, check_ok]
  constructor
  · rintro ⟨_, _, ⟨rfl, rfl⟩, ran⟩
    split_ifs at ran with mark
    · simp only [bind_ok, advance_ok, get_ok] at ran
      obtain ⟨_, _, rfl, _, _, ⟨rfl, rfl⟩, ran⟩ := ran
      rw [left_next] at ran
      exact .inl ⟨by simpa using mark, ran⟩
    · simp only [bind_ok, get_ok] at ran
      obtain ⟨_, _, ⟨rfl, rfl⟩, ran⟩ := ran
      exact .inr ⟨by simpa using mark, ran⟩
  · rintro (⟨mark, ran⟩ | ⟨other, ran⟩)
    · refine ⟨true, c, ⟨by simp [mark], rfl⟩, ?_⟩
      simp only [if_true, bind_ok, advance_ok, get_ok]
      exact ⟨⟨⟩, _, rfl, _, _, ⟨rfl, rfl⟩, by rwa [left_next]⟩
    · refine ⟨false, c, ⟨by simp [other], rfl⟩, ?_⟩
      simp only [Bool.false_eq_true, if_false, bind_ok, get_ok]
      exact ⟨_, _, ⟨rfl, rfl⟩, ran⟩

lemma expectEnd_ok {u : Unit} : expectEnd c = .ok u d ↔ c.current.kind = .endOfInput ∧ c = d := by
  simp only [expectEnd, bind_ok, current_ok]
  constructor
  · rintro ⟨_, _, ⟨rfl, rfl⟩, ran⟩
    cases final : c.current.kind <;> simp only [final] at ran
    case endOfInput => exact ⟨rfl, (pure_ok.1 ran).2⟩
    case unterminated => exact absurd ran unexpected_ok
    all_goals exact absurd ran throw_ok
  · rintro ⟨final, rfl⟩
    exact ⟨_, _, ⟨rfl, rfl⟩, by rw [final]; rfl⟩

/-- A text is read if it can be cut into tokens, and the parser takes them all but the end of the
input. -/
lemma runText_ok {text : String} {a : α} : p.runText text = .ok a ↔
    ∃ tokens c, tokenize text = .ok tokens ∧ p (Cursor.ofTokens tokens) = .ok a c ∧
      c.current.kind = .endOfInput := by
  have whole : ∀ {c d a}, (do let a ← p; expectEnd; return a : Parse α) c = .ok a d ↔
      p c = .ok a d ∧ d.current.kind = .endOfInput := by
    intro c d a
    simp only [bind_ok, expectEnd_ok, pure_ok]
    grind
  unfold runText
  cases tokenize text with
  | error e => simp
  | ok tokens =>
      simp only [EStateM.run]
      constructor
      · intro h
        split at h
        · next b d ran =>
          cases h
          exact ⟨tokens, d, rfl, whole.1 ran⟩
        · cases h
      · rintro ⟨_, d, same, ran⟩
        cases same
        rw [whole.2 ran]

/-- The cursor before all tokens of a text. -/
lemma ofTokens_of_tokenize {text : String} {tokens : List Token}
    (h : tokenize text = .ok tokens) : (Cursor.ofTokens tokens).tokens = tokens ∧
      (Cursor.ofTokens tokens).left = maxNesting ∧ (Cursor.ofTokens tokens).Ended := by
  obtain ⟨ts, closing, rfl, final, -⟩ := tokenize_ok h
  have start : Cursor.ofTokens (ts ++ [closing])
      = ⟨(ts ++ [closing]).head (by simp), (ts ++ [closing]).tail, 0⟩ := by
    rw [Cursor.ofTokens, List.getLast?_concat]
    cases ts <;> simp [final]
  have tokens : (Cursor.ofTokens (ts ++ [closing])).tokens = ts ++ [closing] := by
    rw [start, Cursor.tokens, List.cons_head_tail]
  refine ⟨tokens, by rw [start]; rfl, closing, ?_, final⟩
  rw [tokens]
  simp

/-- Where the cursor stands at the end of input, that is all that is left of a text. -/
lemma tokens_at_end {text : String} {tokens ts : List Token} (h : tokenize text = .ok tokens)
    (all : tokens = ts ++ c.tokens) (final : c.current.kind = .endOfInput) :
    c.tokens = [c.current] := by
  obtain ⟨us, closing, rfl, -, inner⟩ := tokenize_ok h
  cases ahead : c.ahead with
  | nil => rw [Cursor.tokens, ahead]
  | cons u vs =>
      have mem : c.current ∈ us := by
        have front := congrArg List.dropLast all
        rw [List.dropLast_concat, Cursor.tokens, ahead, List.dropLast_append_of_ne_nil (by simp)]
          at front
        simp [front]
      exact absurd final (inner _ mem)

end Parse

/-! ## The main statements -/

/-- What a reading accepts and what follows up to the end of input make a whole text. -/
lemma runText_iff {α : Type} (p : Parse α) (Part : List Token → α → Nat → Prop) (text : String)
    (a : α) (sound : ∀ {c d}, c.Ended → c.left = maxNesting → p c = .ok a d →
      ∃ ts depth, Part ts a depth ∧ depth ≤ maxNesting ∧ c.tokens = ts ++ d.tokens)
    (complete : ∀ {c ts depth t}, c.left = maxNesting → Part ts a depth → depth ≤ maxNesting →
      t.kind = .endOfInput → c.tokens = ts ++ [t] → ∃ d, p c = .ok a d ∧ d.tokens = [t]) :
    p.runText text = .ok a ↔ ∃ ts closing depth, tokenize text = .ok (ts ++ [closing]) ∧
      closing.kind = .endOfInput ∧ Part ts a depth ∧ depth ≤ maxNesting := by
  rw [Parse.runText_ok]
  constructor
  · rintro ⟨tokens, d, cut, ran, final⟩
    obtain ⟨all, left, ended⟩ := Parse.ofTokens_of_tokenize cut
    obtain ⟨ts, depth, derived, few, split⟩ := sound ended left ran
    rw [all] at split
    have last := Parse.tokens_at_end cut split final
    exact ⟨ts, d.current, depth, by rw [cut, split, last], final, derived, few⟩
  · rintro ⟨ts, closing, depth, cut, final, derived, few⟩
    obtain ⟨all, left, -⟩ := Parse.ofTokens_of_tokenize cut
    obtain ⟨d, ran, rest⟩ := complete left derived few final all
    exact ⟨_, d, cut, ran, by rw [(List.cons.inj rest).1, final]⟩

/-- A lone value is read exactly as the grammar derives it. -/
lemma node_parse_iff {text : String} {n : Node} : Node.parse text = .ok n ↔ ∃ tokens depth,
    tokenize text = .ok tokens ∧ IsLoneValue tokens n depth ∧ depth ≤ maxNesting := by
  have whole := runText_iff Parse.nextValue IsValue text n
    (by
      intro c d ended left ran
      simp only [Parse.nextValue, Parse.bind_ok, Parse.get_ok] at ran
      obtain ⟨_, _, ⟨rfl, rfl⟩, ran⟩ := ran
      rw [left] at ran
      exact (Parse.accepts_value maxNesting).sound ended ran)
    (by
      intro c ts depth t left derived few final tokens
      obtain ⟨d, ran, rest⟩ := (Parse.accepts_value maxNesting).complete derived few
        (.inr (.inr (.inr final))) tokens
      refine ⟨d, ?_, rest⟩
      simp only [Parse.nextValue, Parse.bind_ok, Parse.get_ok]
      exact ⟨_, _, ⟨rfl, rfl⟩, by rwa [left]⟩)
  rw [Node.parse, whole]
  constructor
  · rintro ⟨ts, closing, depth, cut, final, derived, few⟩
    exact ⟨_, depth, cut, .value derived final, few⟩
  · rintro ⟨_, depth, cut, ⟨derived, final⟩, few⟩
    exact ⟨_, _, depth, cut, final, derived, few⟩

/-- What stands before the end of input in a root. -/
def IsMarked (tokens : List Token) (a : AnnotationNode) (depth : Nat) : Prop :=
  IsAnnotation tokens a depth ∨
    ∃ sign ts, tokens = sign :: ts ∧ sign.kind = .atSign ∧ IsAnnotation ts a depth

/-- A root is read exactly as the grammar derives it. -/
lemma annotation_parse_iff {text : String} {a : AnnotationNode} :
    AnnotationNode.parse text = .ok a ↔ ∃ tokens depth,
      tokenize text = .ok tokens ∧ IsRoot tokens a depth ∧ depth ≤ maxNesting := by
  have accepts := Parse.accepts_annotations (Parse.acceptsInside maxNesting)
  have whole := runText_iff Parse.nextRoot IsMarked text a
    (by
      intro c d ended left ran
      rw [Parse.nextRoot_ok, left] at ran
      rcases ran with ⟨mark, ran⟩ | ⟨-, ran⟩
      · have first := ended.tokens_eq (by rw [mark]; decide)
        obtain ⟨ts, depth, derived, few, rest⟩ :=
          accepts.sound (ended.of_cons first) ran
        exact ⟨_, depth, .inr ⟨_, ts, rfl, mark, derived⟩, few, by rw [first, rest]; rfl⟩
      · obtain ⟨ts, depth, derived, few, rest⟩ := accepts.sound ended ran
        exact ⟨ts, depth, .inl derived, few, rest⟩)
    (by
      intro c ts depth t left derived few final tokens
      simp only [Parse.nextRoot_ok, left]
      have follow : Parse.Delimits t.kind := .inr (.inr (.inr final))
      rcases derived with derived | ⟨sign, us, rfl, mark, derived⟩
      · obtain ⟨d, ran, rest⟩ := accepts.complete derived few follow tokens
        refine ⟨d, .inr ⟨?_, ran⟩, rest⟩
        obtain ⟨name, us, rfl, named, -⟩ := Parse.isAnnotation_iff.1 derived
        rw [(List.cons.inj tokens).1, named]
        decide
      · have more := Cursor.tokens_next tokens (by simp) (by rw [mark]; decide)
        obtain ⟨d, ran, rest⟩ := accepts.complete derived few follow more
        exact ⟨d, .inl ⟨by rw [(List.cons.inj tokens).1, mark], ran⟩, rest⟩)
  rw [AnnotationNode.parse, whole]
  constructor
  · rintro ⟨_, closing, depth, cut, final, derived | ⟨sign, ts, rfl, mark, derived⟩, few⟩
    · exact ⟨_, depth, cut, .plain derived final, few⟩
    · exact ⟨_, depth, cut, .marked mark derived final, few⟩
  · rintro ⟨_, depth, cut, derived, few⟩
    cases derived with
    | plain derived final => exact ⟨_, _, depth, cut, final, .inl derived, few⟩
    | marked mark derived final =>
        exact ⟨_, _, depth, cut, final, .inr ⟨_, _, rfl, mark, derived⟩, few⟩

open Parse in
/-- **The parser accepts exactly its grammar.** -/
theorem parse_iff_derived (text : String) :
    (∀ a, AnnotationNode.parse text = .ok a ↔ ∃ tokens depth, tokenize text = .ok tokens ∧
      IsRoot tokens a depth ∧ depth ≤ maxNesting) ∧
    (∀ n, Node.parse text = .ok n ↔ ∃ tokens depth, tokenize text = .ok tokens ∧
      IsLoneValue tokens n depth ∧ depth ≤ maxNesting) :=
  ⟨fun _ => annotation_parse_iff, fun _ => node_parse_iff⟩

end DocAnnotations
