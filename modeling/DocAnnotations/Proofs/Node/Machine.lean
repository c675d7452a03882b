import DocAnnotations.Proofs.Node.Derivation

/-!
# Reading token by token

A machine that reads literals one token at a time, without a tree and without looking ahead.  Its
state says what comes next and which levels are open around it.  A token that cannot come next has
no step.  The limit on the levels is its parameter.

What the machine is for:

* **`run_completion`**: from every state some tokens lead to the end of input, so that what has been
  read so far can be completed.
* **`unclosed_of_run`**: the delimiters that the state holds are those that are still open.
* **`run_mono`**: a higher limit takes no step away.
-/

namespace DocAnnotations.Machine

open Grammar

/-! ## States and steps -/

/-- A token of a given kind. -/
abbrev Mark (kind : TokenKind) : Type := { t : Token // t.kind = kind }

/-- A level that is open: what goes on in it behind the item that is being read. -/
inductive Frame where
  /-- Further pairs or the closing parenthesis. -/
  | pairs (opened : Mark .leftParen)
  /-- The closing parenthesis. -/
  | lone (opened : Mark .leftParen)
  /-- Further elements or the closing brace. -/
  | array (opened : Mark .leftBrace)
  /-- What comes behind the annotation as a value. -/
  | nested

/-- What comes next. -/
inductive Goal where
  | root
  | value
  | annotated
  /-- The parentheses of an annotation, if it has any. -/
  | parens
  /-- What stands in parentheses that were just opened. -/
  | arguments (opened : Mark .leftParen)
  /-- What stands behind a name in parentheses, which may be a value or begin a pair. -/
  | named (opened : Mark .leftParen)
  /-- What stands in braces that were just opened. -/
  | elements (opened : Mark .leftBrace)
  | pair
  /-- The equals sign of a pair. -/
  | sign
  /-- What comes behind an item. -/
  | rest

/-- The machine stands before something, with some levels open, or at the end of input. -/
inductive State where
  | before (goal : Goal) (frames : List Frame)
  | finished

/-- The step behind an item. -/
def leave : List Frame → Token → Option State
  | [], t => if t.kind = .endOfInput then some .finished else none
  | .pairs opened :: fs, t =>
    if t.kind = .comma then some (.before .pair (.pairs opened :: fs))
    else if t.kind = .rightParen then some (.before .rest fs)
    else none
  | .lone _ :: fs, t => if t.kind = .rightParen then some (.before .rest fs) else none
  | .array opened :: fs, t =>
    if t.kind = .comma then some (.before .value (.array opened :: fs))
    else if t.kind = .rightBrace then some (.before .rest fs)
    else none
  | .nested :: fs, t => leave fs t

/-- The step into a value. -/
def enter (limit : Nat) (fs : List Frame) (t : Token) : Option State :=
  if t.kind.isWord = true then some (.before .rest fs)
  else if left : t.kind = .leftBrace then
    if fs.length < limit then some (.before (.elements ⟨t, left⟩) fs) else none
  else if t.kind = .atSign then
    if fs.length < limit then some (.before .annotated (.nested :: fs)) else none
  else none

/-- The step with a token, where at most so many levels may be open. -/
def step (limit : Nat) : State → Token → Option State
  | .before .root fs, t =>
    if t.kind = .atSign then some (.before .annotated fs)
    else if t.kind = .identifier then some (.before .parens fs)
    else none
  | .before .value fs, t => enter limit fs t
  | .before .annotated fs, t => if t.kind = .identifier then some (.before .parens fs) else none
  | .before .parens fs, t =>
    if left : t.kind = .leftParen then
      if fs.length < limit then some (.before (.arguments ⟨t, left⟩) fs) else none
    else leave fs t
  | .before (.arguments opened) fs, t =>
    if t.kind = .rightParen then some (.before .rest fs)
    else if t.kind = .identifier then some (.before (.named opened) fs)
    else enter limit (.lone opened :: fs) t
  | .before (.named opened) fs, t =>
    if t.kind = .equals then some (.before .value (.pairs opened :: fs))
    else if t.kind = .rightParen then some (.before .rest fs)
    else none
  | .before (.elements opened) fs, t =>
    if t.kind = .rightBrace then some (.before .rest fs)
    else enter limit (.array opened :: fs) t
  | .before .pair fs, t => if t.kind = .identifier then some (.before .sign fs) else none
  | .before .sign fs, t => if t.kind = .equals then some (.before .value fs) else none
  | .before .rest fs, t => leave fs t
  | .finished, _ => none

/-- The steps with tokens one after the other. -/
def run (limit : Nat) (s : State) (ts : List Token) : Option State := ts.foldlM (step limit) s

variable {limit deeper : Nat} {s s' m : State} {t u : Token} {ts us : List Token}
  {goal : Goal} {fs : List Frame}

@[simp] lemma run_nil : run limit s [] = some s' ↔ s = s' := by simp [run]

lemma run_cons : run limit s (t :: ts) = some s' ↔
    ∃ m, step limit s t = some m ∧ run limit m ts = some s' := by
  rw [run, List.foldlM_cons]
  exact Option.bind_eq_some_iff

/-- Tokens in a row are run by running the first of them and then the others from the state
reached. -/
lemma run_append : run limit s (ts ++ us) = some s' ↔
    ∃ m, run limit s ts = some m ∧ run limit m us = some s' := by
  rw [run, List.foldlM_append]
  exact Option.bind_eq_some_iff

/-- What has been read is passed over. -/
lemma run_append_eq (front : run limit s ts = some m) :
    run limit s (ts ++ us) = run limit m us := by
  rw [run, List.foldlM_append]
  exact congrArg (fun found => found.bind fun m => run limit m us) front

lemma run_single : run limit s [t] = some s' ↔ step limit s t = some s' := by simp [run]

/-! ## Higher limits -/

lemma below_mono {count : Nat} (le : limit ≤ deeper)
    (h : (if count < limit then some m else none) = some s') :
    (if count < deeper then some m else none) = some s' := by
  split_ifs at h with room
  rw [if_pos (Nat.lt_of_lt_of_le room le), h]

/-- What is entered within a limit is entered within a deeper one, with the same state. -/
lemma enter_mono (le : limit ≤ deeper) (h : enter limit fs t = some s') :
    enter deeper fs t = some s' := by
  unfold enter at h ⊢
  by_cases word : t.kind.isWord = true
  · rwa [if_pos word] at h ⊢
  · rw [if_neg word] at h ⊢
    by_cases left : t.kind = .leftBrace
    · rw [dif_pos left] at h ⊢
      exact below_mono le h
    · rw [dif_neg left] at h ⊢
      by_cases mark : t.kind = .atSign
      · rw [if_pos mark] at h ⊢
        exact below_mono le h
      · rwa [if_neg mark] at h ⊢

/-- Only the steps into a value and into parentheses look at the limit. -/
lemma step_mono (le : limit ≤ deeper) (h : step limit s t = some s') :
    step deeper s t = some s' := by
  cases s with
  | finished => exact h
  | before goal fs =>
      cases goal
      case value => exact enter_mono le h
      case parens =>
        simp only [step] at h ⊢
        by_cases left : t.kind = .leftParen
        · rw [dif_pos left] at h ⊢
          exact below_mono le h
        · rwa [dif_neg left] at h ⊢
      case arguments opened =>
        simp only [step] at h ⊢
        split_ifs at h ⊢
        · exact h
        · exact h
        · exact enter_mono le h
      case elements opened =>
        simp only [step] at h ⊢
        split_ifs at h ⊢
        · exact h
        · exact enter_mono le h
      all_goals exact h

/-- **A higher limit takes no step away.** -/
theorem run_mono (le : limit ≤ deeper) (h : run limit s ts = some s') :
    run deeper s ts = some s' := by
  induction ts generalizing s with
  | nil => exact h
  | cons t ts ih =>
      obtain ⟨m, first, rest⟩ := run_cons.1 h
      exact run_cons.2 ⟨m, step_mono le first, ih rest⟩

/-! ## The way to the end -/

/-- A token of a kind.  Its text and its place do not matter. -/
def sample (kind : TokenKind) : Token := ⟨kind, "", ⟨0, 0⟩⟩

/-- Tokens that close what is open. -/
def closing : List Frame → List Token
  | [] => [sample .endOfInput]
  | .pairs _ :: fs => sample .rightParen :: closing fs
  | .lone _ :: fs => sample .rightParen :: closing fs
  | .array _ :: fs => sample .rightBrace :: closing fs
  | .nested :: fs => closing fs

/-- Tokens that lead to the end of what comes next. -/
def Goal.completion : Goal → List Token
  | .root | .value | .annotated => [sample .identifier]
  | .parens | .rest => []
  | .arguments _ | .named _ => [sample .rightParen]
  | .elements _ => [sample .rightBrace]
  | .pair => [sample .identifier, sample .equals, sample .identifier]
  | .sign => [sample .equals, sample .identifier]

/-- Tokens that lead to the end of input. -/
def State.completion : State → List Token
  | .before goal fs => goal.completion ++ closing fs
  | .finished => []

/-- Frames can always be closed by some tokens, the first of which is no opening parenthesis. -/
lemma exists_closing : ∀ fs : List Frame, ∃ t ts, closing fs = t :: ts ∧ t.kind ≠ .leftParen
  | [] | .pairs _ :: _ | .lone _ :: _ | .array _ :: _ =>
      ⟨_, _, rfl, by simp [sample]⟩
  | .nested :: fs => exists_closing fs

/-- Only the first step depends on the state. -/
lemma run_congr (same : step limit s t = step limit m t) :
    run limit s (t :: ts) = run limit m (t :: ts) := by
  rw [run, run, List.foldlM_cons, List.foldlM_cons, same]

/-- The tokens that close the open frames take the machine to its end. -/
lemma run_closing : ∀ fs : List Frame, run limit (.before .rest fs) (closing fs) = some .finished
  | [] => rfl
  | .pairs _ :: fs => run_cons.2 ⟨_, rfl, run_closing fs⟩
  | .lone _ :: fs => run_cons.2 ⟨_, rfl, run_closing fs⟩
  | .array _ :: fs => run_cons.2 ⟨_, rfl, run_closing fs⟩
  | .nested :: fs => by
      have inner := run_closing fs
      obtain ⟨t, ts, first, -⟩ := exists_closing fs
      rw [first] at inner
      rw [closing, first, ← inner]
      exact run_congr rfl

/-- Before its parentheses an annotation may be complete. -/
lemma run_closing_parens (fs : List Frame) :
    run limit (.before .parens fs) (closing fs) = some .finished := by
  obtain ⟨t, ts, first, other⟩ := exists_closing fs
  have rest : run limit (.before .rest fs) (closing fs) = some .finished := run_closing fs
  rw [first] at rest
  rw [first, ← rest]
  exact run_congr (by rw [step, dif_neg other, step])

/-- **Whatever has been read can be completed.** -/
theorem run_completion (s : State) : run limit s s.completion = some .finished := by
  cases s with
  | finished => rfl
  | before goal fs =>
      have rest : run limit (.before .rest fs) (closing fs) = some .finished := run_closing fs
      have parens : run limit (.before .parens fs) (closing fs) = some .finished :=
        run_closing_parens fs
      cases goal with
      | root => exact run_cons.2 ⟨_, rfl, parens⟩
      | value => exact run_cons.2 ⟨_, rfl, rest⟩
      | annotated => exact run_cons.2 ⟨_, rfl, parens⟩
      | parens => exact parens
      | arguments => exact run_cons.2 ⟨_, rfl, rest⟩
      | named => exact run_cons.2 ⟨_, rfl, rest⟩
      | elements => exact run_cons.2 ⟨_, rfl, rest⟩
      | pair => exact run_cons.2 ⟨_, rfl, run_cons.2 ⟨_, rfl, run_cons.2 ⟨_, rfl, rest⟩⟩⟩
      | sign => exact run_cons.2 ⟨_, rfl, run_cons.2 ⟨_, rfl, rest⟩⟩
      | rest => exact rest

/-! ## Open delimiters -/

def Frame.delimiters : Frame → List Token
  | .pairs opened => [opened.1]
  | .lone opened => [opened.1]
  | .array opened => [opened.1]
  | .nested => []

def Goal.delimiters : Goal → List Token
  | .arguments opened => [opened.1]
  | .named opened => [opened.1]
  | .elements opened => [opened.1]
  | _ => []

/-- The delimiters that are open, the innermost first. -/
def State.delimiters : State → List Token
  | .before goal fs => goal.delimiters ++ fs.flatMap Frame.delimiters
  | .finished => []

/-- All delimiters in the tokens are closed but the given ones, the innermost first. -/
inductive Unclosed : List Token → List Token → Prop
  | none {ts : List Token} (balanced : Balanced ts) : Unclosed ts []
  | opened {ts us delimiters : List Token} {t : Token} (outer : Unclosed ts delimiters)
      (opens : t.kind = .leftParen ∨ t.kind = .leftBrace) (inner : Balanced us) :
      Unclosed (ts ++ t :: us) (t :: delimiters)

namespace Unclosed

variable {delimiters : List Token}

/-- Balanced tokens leave open what was open before them. -/
lemma append (h : Unclosed ts delimiters) (balanced : Balanced us) :
    Unclosed (ts ++ us) delimiters := by
  cases h with
  | none inner => exact .none (inner.append balanced)
  | opened outer opens inner =>
      rw [List.append_assoc, List.cons_append]
      exact .opened outer opens (inner.append balanced)

/-- A matching token closes the delimiter that was opened last. -/
lemma close (h : Unclosed ts (t :: delimiters)) (pair : Matches t u) :
    Unclosed (ts ++ [u]) delimiters := by
  cases h with
  | opened outer opens inner =>
      rw [List.append_assoc]
      exact outer.append (.between pair inner)

end Unclosed

/-- What a step does to the open delimiters. -/
inductive Moves (s : State) (t : Token) : State → Prop
  | plain {goal : Goal} {fs : List Frame} (plain : IsPlain t)
      (same : (State.before goal fs).delimiters = s.delimiters) : Moves s t (.before goal fs)
  | opens {goal : Goal} {fs : List Frame} (opens : t.kind = .leftParen ∨ t.kind = .leftBrace)
      (more : (State.before goal fs).delimiters = t :: s.delimiters) : Moves s t (.before goal fs)
  | closes {goal : Goal} {fs : List Frame} {opened : Token} (pair : Matches opened t)
      (fewer : s.delimiters = opened :: (State.before goal fs).delimiters) :
      Moves s t (.before goal fs)
  | ends (final : t.kind = .endOfInput) (none : s.delimiters = []) : Moves s t .finished

/-- Only the open delimiters of the state matter. -/
lemma Moves.congr (h : Moves s t s') (same : s.delimiters = m.delimiters) : Moves m t s' := by
  cases h with
  | plain plain kept => exact .plain plain (kept.trans same)
  | opens opens more => exact .opens opens (by rw [more, same])
  | closes pair fewer => exact .closes pair (same.symm.trans fewer)
  | ends final none => exact .ends final (same.symm.trans none)

/-- Behind a value, a token closes the innermost frame, or goes on in it. -/
lemma leave_moves : ∀ {fs : List Frame}, leave fs t = some s' → Moves (.before .rest fs) t s'
  | [], h => by
      rw [leave] at h
      split_ifs at h with final
      cases h
      exact .ends final rfl
  | .pairs opened :: fs, h => by
      rw [leave] at h
      split_ifs at h with comma right
      · cases h
        exact .plain (.inr (.inl comma)) rfl
      · cases h
        exact .closes (.inl ⟨opened.2, right⟩) rfl
  | .lone opened :: fs, h => by
      rw [leave] at h
      split_ifs at h with right
      cases h
      exact .closes (.inl ⟨opened.2, right⟩) rfl
  | .array opened :: fs, h => by
      rw [leave] at h
      split_ifs at h with comma right
      · cases h
        exact .plain (.inr (.inl comma)) rfl
      · cases h
        exact .closes (.inr ⟨opened.2, right⟩) rfl
  | .nested :: fs, h => (leave_moves (show leave fs t = some s' from h)).congr rfl

/-- In front of a value, a token is a value of its own, or opens a frame. -/
lemma enter_moves (h : enter limit fs t = some s') : Moves (.before .value fs) t s' := by
  unfold enter at h
  split_ifs at h with word left room mark room
  · cases h
    exact .plain (.inl word) rfl
  · cases h
    exact .opens (.inr left) rfl
  · cases h
    exact .plain (.inr (.inr (.inr mark))) rfl

/-- **What a step does**: it passes a plain token, opens a level with a delimiter, closes one with
the delimiter that matches it, or passes the end of input. -/
theorem step_moves (h : step limit s t = some s') : Moves s t s' := by
  cases s with
  | finished => cases h
  | before goal fs =>
      cases goal with
      | root =>
          rw [step] at h
          split_ifs at h with mark named
          · cases h
            exact .plain (.inr (.inr (.inr mark))) rfl
          · cases h
            exact .plain (isPlain_of_identifier named) rfl
      | value => exact enter_moves h
      | annotated =>
          rw [step] at h
          split_ifs at h with named
          cases h
          exact .plain (isPlain_of_identifier named) rfl
      | parens =>
          rw [step] at h
          split_ifs at h with left room
          · cases h
            exact .opens (.inl left) rfl
          · exact (leave_moves h).congr rfl
      | arguments opened =>
          rw [step] at h
          split_ifs at h with right named
          · cases h
            exact .closes (.inl ⟨opened.2, right⟩) rfl
          · cases h
            exact .plain (isPlain_of_identifier named) rfl
          · exact (enter_moves h).congr rfl
      | named opened =>
          rw [step] at h
          split_ifs at h with mark right
          · cases h
            exact .plain (.inr (.inr (.inl mark))) rfl
          · cases h
            exact .closes (.inl ⟨opened.2, right⟩) rfl
      | elements opened =>
          rw [step] at h
          split_ifs at h with right
          · cases h
            exact .closes (.inr ⟨opened.2, right⟩) rfl
          · exact (enter_moves h).congr rfl
      | pair =>
          rw [step] at h
          split_ifs at h with named
          cases h
          exact .plain (isPlain_of_identifier named) rfl
      | sign =>
          rw [step] at h
          split_ifs at h with mark
          cases h
          exact .plain (.inr (.inr (.inl mark))) rfl
      | rest => exact leave_moves h

/-- Behind the end of the input nothing is run. -/
lemma eq_nil_of_run (h : run limit .finished ts = some s) : ts = [] := by
  cases ts with
  | nil => rfl
  | cons t ts =>
      obtain ⟨_, first, -⟩ := run_cons.1 h
      cases first

/-- **The machine holds the delimiters that are open.** -/
theorem unclosed_of_run (start : Unclosed us s.delimiters)
    (h : run limit s ts = some (.before goal fs)) :
    Unclosed (us ++ ts) (State.before goal fs).delimiters := by
  induction ts generalizing s us with
  | nil =>
      cases run_nil.1 h
      rwa [List.append_nil]
  | cons t ts ih =>
      obtain ⟨m, first, rest⟩ := run_cons.1 h
      rw [List.append_cons]
      cases step_moves first with
      | plain plain same => exact ih (by rw [same]; exact start.append (.single plain)) rest
      | opens opens more => exact ih (by rw [more]; exact .opened start opens .nil) rest
      | closes pair fewer => exact ih (Unclosed.close (by rwa [← fewer]) pair) rest
      | ends =>
          obtain rfl := eq_nil_of_run rest
          cases run_nil.1 rest

/-! ## The end of input -/

/-- What follows a value depends on the kinds of the tokens only. -/
lemma leave_congr (same : t.kind = u.kind) : ∀ fs : List Frame, leave fs t = leave fs u
  | [] => by rw [leave, leave, same]
  | .pairs _ :: fs => by rw [leave, leave, same]
  | .lone _ :: fs => by rw [leave, leave, same]
  | .array _ :: fs => by rw [leave, leave, same]
  | .nested :: fs => leave_congr same fs

/-- All tokens at the end of input take the same step. -/
lemma step_endOfInput (final : t.kind = .endOfInput) (final' : u.kind = .endOfInput) :
    step limit s t = step limit s u := by
  have same : t.kind = u.kind := final.trans final'.symm
  cases s with
  | finished => rfl
  | before goal fs =>
      cases goal
      case rest => exact leave_congr same fs
      case parens => simp [step, final, final', leave_congr same fs]
      all_goals simp [step, enter, final, final', TokenKind.isWord, TokenKind.literalKind?]

/-- The machine finishes with the end of input and goes no further. -/
lemma endOfInput_of_run (h : run limit s ts = some .finished) (unfinished : s ≠ .finished) :
    ∃ us t, ts = us ++ [t] ∧ t.kind = .endOfInput := by
  induction ts generalizing s with
  | nil => exact absurd (run_nil.1 h) unfinished
  | cons t ts ih =>
      obtain ⟨m, first, rest⟩ := run_cons.1 h
      by_cases final : m = .finished
      · subst final
        rw [eq_nil_of_run rest]
        cases step_moves first with
        | ends final => exact ⟨[], t, rfl, final⟩
      · obtain ⟨us, u, rfl, last⟩ := ih rest final
        exact ⟨t :: us, u, rfl, last⟩

end DocAnnotations.Machine
