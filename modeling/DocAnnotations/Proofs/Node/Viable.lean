import DocAnnotations.Proofs.Node.Respanned
import DocAnnotations.Proofs.Node.Tracking

/-!
# What can be completed

Tokens are viable when some literal starts with them.

**Literals.**  The machine accepts exactly the literals, for any limit on the levels
(**`run_root_iff`** and **`run_value_iff`**).  The grammar and the machine are not compared rule by
rule.  The parser stands between them: what it accepts is derived from the grammar, and where it
fails the machine stops.

**Viable tokens.**  Tokens are viable when the machine can read them (**`viable_iff_of`**): from
every state some tokens lead to the end, and no step is ever taken that leads nowhere.
-/

namespace DocAnnotations

open Grammar Machine Parse

variable {α : Type} {limit : Nat} {s : State} {ts : List Token}

/-- Something whole, with at most so many levels, starts with the tokens. -/
def Grammar.Viable (Whole : List Token → α → Nat → Prop) (limit : Nat) (ts : List Token) : Prop :=
  ∃ rest tree depth, Whole (ts ++ rest) tree depth ∧ depth ≤ limit

/-- The machine accepts what is derived from a part of the grammar and the end of input. -/
lemma run_finished_iff {p : Parse α} {Part : List Token → α → Nat → Prop}
    (accepts : Accepts p Part limit Delimits)
    (tracks : ∀ {c : Cursor}, c.Ended → Tracks p limit s (.before .rest []) c)
    (unfinished : s ≠ .finished) : run limit s ts = some .finished ↔
      ∃ us closing a depth, ts = us ++ [closing] ∧ closing.kind = .endOfInput ∧
        Part us a depth ∧ depth ≤ limit := by
  have ends : ∀ {t : Token}, t.kind = .endOfInput →
      run limit (.before .rest []) [t] = some .finished := fun final =>
    run_single.2 (if_pos final)
  constructor
  · intro ran
    obtain ⟨us, closing, rfl, final⟩ := endOfInput_of_run ran unfinished
    obtain ⟨c, tokens⟩ := exists_cursor us closing
    have ended : c.Ended := ⟨closing, by rw [tokens, List.getLast?_concat]; rfl, final⟩
    rw [← tokens] at ran ⊢
    -- the parser cannot fail here: the machine would stop before the end
    cases read : p c with
    | error e d =>
        obtain ⟨vs, k, rest, m, split, front, fault⟩ := (tracks ended).error read
        rw [split, run_append_eq front] at ran
        obtain ⟨_, goes, -⟩ := run_cons.1 ran
        rw [fault.step_eq_none] at goes
        cases goes
    | ok a d =>
        obtain ⟨vs, m, split, front, same⟩ := (tracks ended).ok read
        obtain ⟨part, depth, derived, few, split'⟩ := accepts.sound ended read
        rw [split, run_append_eq front, Cursor.tokens, run_congr (same.step limit)] at ran
        obtain ⟨m', goes, rest⟩ := run_cons.1 ran
        replace goes : (if d.current.kind = .endOfInput then some State.finished else none)
            = some m' := goes
        split_ifs at goes with final
        cases goes
        have last := eq_nil_of_run rest
        exact ⟨part, d.current, a, depth, by rw [split', Cursor.tokens, last], final, derived, few⟩
  · rintro ⟨us, closing, a, depth, rfl, final, derived, few⟩
    obtain ⟨c, tokens⟩ := exists_cursor us closing
    have ended : c.Ended := ⟨closing, by rw [tokens, List.getLast?_concat]; rfl, final⟩
    obtain ⟨d, read, last⟩ := accepts.complete derived few (.inr (.inr (.inr final))) tokens
    obtain ⟨vs, m, split, front, same⟩ := (tracks ended).ok read
    rw [← tokens, split, last]
    have place : d.current = closing := (List.cons.inj last).1
    exact run_after front (place ▸ same) (ends final)

/-- **The machine accepts the lone values.** -/
theorem run_value_iff : run limit (.before .value []) ts = some .finished ↔
    ∃ n depth, IsLoneValue ts n depth ∧ depth ≤ limit := by
  rw [run_finished_iff (accepts_value limit) ((tracks_value limit).tracks rfl) nofun]
  constructor
  · rintro ⟨us, closing, n, depth, rfl, final, derived, few⟩
    exact ⟨n, depth, .value derived final, few⟩
  · rintro ⟨n, depth, ⟨derived, final⟩, few⟩
    exact ⟨_, _, n, depth, rfl, final, derived, few⟩

/-- The machine takes tokens to its end as an annotation if and only if the grammar has them as one,
not too deep. -/
lemma run_annotated_iff : run limit (.before .annotated []) ts = some .finished ↔
    ∃ us closing a depth, ts = us ++ [closing] ∧ closing.kind = .endOfInput ∧
      IsAnnotation us a depth ∧ depth ≤ limit :=
  run_finished_iff (accepts_annotations (acceptsInside limit))
    (tracks_annotations (tracksInside limit) rfl) nofun

/-- **The machine accepts the annotation literals.** -/
theorem run_root_iff : run limit (.before .root []) ts = some .finished ↔
    ∃ a depth, IsRoot ts a depth ∧ depth ≤ limit := by
  constructor
  · intro ran
    cases ts with
    | nil => cases run_nil.1 ran
    | cons t ts =>
        by_cases mark : t.kind = .atSign
        · obtain ⟨m, goes, rest⟩ := run_cons.1 ran
          cases (if_pos mark : step limit (.before .root []) t = _).symm.trans goes
          obtain ⟨us, closing, a, depth, rfl, final, derived, few⟩ := run_annotated_iff.1 rest
          exact ⟨a, depth, .marked mark derived final, few⟩
        · have same : step limit (.before .root []) t = step limit (.before .annotated []) t :=
            if_neg mark
          rw [run_congr same] at ran
          obtain ⟨us, closing, a, depth, same, final, derived, few⟩ := run_annotated_iff.1 ran
          exact ⟨a, depth, same ▸ .plain derived final, few⟩
  · rintro ⟨a, depth, root, few⟩
    cases root with
    | plain derived final =>
        have rest : run limit (.before .annotated []) _ = some .finished :=
          run_annotated_iff.2 ⟨_, _, a, depth, rfl, final, derived, few⟩
        obtain ⟨name, us, rfl, named, -⟩ := isAnnotation_iff.1 derived
        rw [← rest]
        exact run_congr (if_neg (by rw [named]; decide))
    | marked mark derived final =>
        exact run_cons.2 ⟨_, if_pos mark,
          run_annotated_iff.2 ⟨_, _, a, depth, rfl, final, derived, few⟩⟩

/-- **What can be completed is what the machine can read.** -/
theorem viable_iff_of {Whole : List Token → α → Nat → Prop}
    (whole : ∀ {ts : List Token}, run limit s ts = some .finished ↔
      ∃ tree depth, Whole ts tree depth ∧ depth ≤ limit) :
    Viable Whole limit ts ↔ ∃ m, run limit s ts = some m := by
  constructor
  · rintro ⟨rest, accepted⟩
    obtain ⟨m, front, -⟩ := run_append.1 (whole.2 accepted)
    exact ⟨m, front⟩
  · rintro ⟨m, front⟩
    exact ⟨m.completion, whole.1 ((run_append_eq front).trans (run_completion m))⟩

end DocAnnotations
