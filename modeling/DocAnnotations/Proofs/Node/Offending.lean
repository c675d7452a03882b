import DocAnnotations.Proofs.Node.Viable
import DocAnnotations.Proofs.Token.Lossless

/-!
# The token that an error is about

The parser tracks the machine, and the machine reads what can become a literal, so all that is said
about errors is read off the state in which the machine stops.

**Statements about errors.**  `ParseError.Blames` says which token an error is about, and
`Grammar.Offends` that this token is the first that no literal has in its place: some literal starts
with the tokens before it, and none with it as well.  At most one token of a text offends.

**What a fault says.**  The error says what is wrong with this token: it is not closed, it opens one
level too many, it is the end of input while a delimiter is open, or it is just not what the grammar
has there.

**`parse_error_located`**: when a text is no literal, the parser stops at the offending token, and
says of it what is the case.
-/

namespace DocAnnotations

open Grammar Machine Parse

variable {α : Type} {limit : Nat} {s m : State} {text : String} {e : ParseError} {k : Token}
  {before after tokens : List Token} {Whole : List Token → α → Nat → Prop}

/-! ## Statements about errors -/

/-- The token that an error is about: the one at its offset, or the end of input where this leaves
the delimiter at its offset open. -/
def ParseError.Blames : ParseError → Token → Prop
  | .unbalanced _ _, k => k.kind = .endOfInput
  | e, k => k.span.start = e.offset

/-- A token at which no literal can go on, as an error says. -/
structure Grammar.Offends (Whole : List Token → α → Nat → Prop) (before : List Token) (k : Token)
    (e : ParseError) : Prop where
  /-- The tokens before it can be completed. -/
  viable : Viable Whole maxNesting before
  /-- With it they cannot. -/
  refused : ¬ Viable Whole maxNesting (before ++ [k])
  /-- At the end of input something is missing: more tokens lead to a literal, these are none. -/
  ending : k.kind = .endOfInput →
    (∃ t rest tree depth, t.kind ≠ .endOfInput ∧ Whole (before ++ t :: rest) tree depth ∧
      depth ≤ maxNesting) ∧
    ¬ ∃ tree depth, Whole (before ++ [k]) tree depth ∧ depth ≤ maxNesting
  /-- An unterminated literal is reported as such, and nothing else is. -/
  unterminated : (∃ text offset, e = .unterminated text offset) ↔ k.kind = .unterminated
  /-- A token opens a level too deep if it may stand there but for the limit. -/
  tooDeep : (∃ limit offset, e = .tooDeep limit offset) ↔
    k.OpensLevel ∧ ∃ limit, Viable Whole limit (before ++ [k])
  /-- An unbalanced delimiter is the innermost that is open. -/
  unbalanced : ∀ delimiter offset, e = .unbalanced delimiter offset →
    ∃ outer opened inner, before = outer ++ opened :: inner ∧ opened.Opens delimiter ∧
      opened.span.start = offset ∧ Balanced inner

/-- The error is about exactly one of the tokens, and this is where no literal can go on. -/
structure Grammar.Located (Whole : List Token → α → Nat → Prop) (tokens : List Token)
    (e : ParseError) : Prop where
  exists_token : ∃ before k after, tokens = before ++ k :: after ∧ e.Blames k
  offends : ∀ {before k after}, tokens = before ++ k :: after → e.Blames k →
    Offends Whole before k e

/-! ## The offending token -/

/-- There is one place in a list for what stands in relation to nothing of its kind. -/
lemma split_unique {R : α → α → Prop} {x y : α} {front front' behind behind' : List α}
    (apart : (front ++ x :: behind).Pairwise R)
    (same : front ++ x :: behind = front' ++ y :: behind') (first : ¬ R x y) (second : ¬ R y x) :
    front = front' ∧ x = y := by
  rcases List.append_eq_append_iff.1 same with ⟨more, rfl, tail⟩ | ⟨more, rfl, tail⟩
  · cases more with
    | nil => exact ⟨(List.append_nil _).symm, (List.cons.inj tail).1⟩
    | cons z zs =>
        obtain ⟨rfl, rfl⟩ := List.cons.inj tail
        have later := (List.pairwise_append.1 apart).2.1
        exact absurd ((List.pairwise_cons.1 later).1 y (by simp)) first
  · cases more with
    | nil => exact ⟨List.append_nil _, (List.cons.inj tail).1.symm⟩
    | cons z zs =>
        obtain ⟨rfl, rfl⟩ := List.cons.inj tail
        have earlier := (List.pairwise_append.1 apart).2.2
        exact absurd (earlier y (by simp) x (by simp)) second

/-- Only one token of a text is the one an error is about. -/
lemma blames_unique {before' after' : List Token} {k' : Token} (cut : tokenize text = .ok tokens)
    (split : tokens = before ++ k :: after) (split' : tokens = before' ++ k' :: after')
    (blames : e.Blames k) (blames' : e.Blames k') : before = before' ∧ k = k' := by
  have apart : tokens.Pairwise fun t u =>
      t.span.start < u.span.start ∧ t.kind ≠ .endOfInput := by
    obtain ⟨ts, closing, rfl, -, inner⟩ := tokenize_ok cut
    have rising := (tokensFrom_iff_tiled.1 cut).rising
    refine List.Pairwise.and (rising.imp fun order => order.1.trans_le order.2) ?_
    refine List.pairwise_append.2 ⟨?_, List.pairwise_singleton _ _, fun t mem _ _ => inner t mem⟩
    exact List.pairwise_of_forall_mem_list fun t mem _ _ => inner t mem
  have place : k.span.start = k'.span.start ∨ k.kind = .endOfInput ∧ k'.kind = .endOfInput := by
    cases e
    case unbalanced => exact .inr ⟨blames, blames'⟩
    all_goals exact .inl (blames.trans blames'.symm)
  rw [split] at apart
  refine split_unique apart (split ▸ split') ?_ ?_
  · rintro ⟨order, inner⟩
    exact place.elim (fun same => order.ne same) fun final => inner final.1
  · rintro ⟨order, inner⟩
    exact place.elim (fun same => order.ne same.symm) fun final => inner final.2

/-! ## What a fault says -/

namespace Parse

/-- What is said of a token that stands where something else was expected. -/
lemma ofToken_cases (k : Token) (expected : String) :
    (ParseError.ofToken k expected = .unexpectedEnd expected k.span.start ∧
        k.kind ≠ .unterminated) ∨
      (ParseError.ofToken k expected = .unterminated k.text k.span.start ∧
        k.kind = .unterminated) ∨
      ∃ found, ParseError.ofToken k expected = .unexpectedToken found expected k.span.start ∧
        k.kind ≠ .unterminated := by
  unfold ParseError.ofToken
  split
  · next kind => exact .inl ⟨rfl, by rw [kind]; decide⟩
  · next kind => exact .inr (.inl ⟨rfl, kind⟩)
  · next closed => exact .inr (.inr ⟨_, rfl, closed⟩)

namespace Fault

/-- A fault blames the token at which it occurs, or the opening token that is named in it. -/
lemma blames (h : Fault limit m k e) : e.Blames k := by
  cases h with
  | @unexpected expected =>
      rcases ofToken_cases k expected with ⟨same, -⟩ | ⟨same, -⟩ | ⟨found, same, -⟩ <;>
        rw [same] <;> rfl
  | trailing => rfl
  | unclosed final => exact final
  | tooDeep => rfl

/-- A fault reports an open quote if and only if the token at which it occurs is one. -/
lemma unterminated_iff (h : Fault limit m k e) :
    (∃ text offset, e = .unterminated text offset) ↔ k.kind = .unterminated := by
  cases h with
  | @unexpected expected =>
      rcases ofToken_cases k expected with ⟨same, kind⟩ | ⟨same, kind⟩ | ⟨found, same, kind⟩ <;>
        simp [same, kind]
  | trailing inner closed => simp [closed]
  | unclosed final => simp [final]
  | tooDeep opens => rcases opens with kind | kind | kind <;> simp [kind]

/-- A token that opens a level too deep may stand there but for the limit, and no other token of a
fault may. -/
lemma tooDeep_or (h : Fault limit m k e) :
    ((∃ limit offset, e = .tooDeep limit offset) ∧ k.OpensLevel ∧
        ∃ n, step (limit + 1) m k = some n) ∨
      (¬ ∃ limit offset, e = .tooDeep limit offset) ∧ ∀ limit, step limit m k = none := by
  cases h with
  | @unexpected expected refused =>
      refine .inr ⟨?_, refused⟩
      rcases ofToken_cases k expected with ⟨same, -⟩ | ⟨same, -⟩ | ⟨found, same, -⟩ <;> simp [same]
  | trailing _ _ refused => exact .inr ⟨by simp, refused⟩
  | unclosed _ refused => exact .inr ⟨by simp, refused⟩
  | tooDeep opens _ deeper => exact .inl ⟨⟨_, _, rfl⟩, opens, _, deeper⟩

/-- A fault that reports an open bracket names the bracket that was opened last. -/
lemma innermost {delimiter : Char} {offset : Nat} (h : Fault limit m k e)
    (unbalanced : e = .unbalanced delimiter offset) : ∃ opened outer,
      m.delimiters = opened :: outer ∧ opened.Opens delimiter ∧ opened.span.start = offset := by
  cases h with
  | @unexpected expected =>
      rcases ofToken_cases k expected with ⟨same, -⟩ | ⟨same, -⟩ | ⟨found, same, -⟩ <;>
        rw [same] at unbalanced <;> cases unbalanced
  | trailing => cases unbalanced
  | unclosed _ _ innermost opens =>
      cases unbalanced
      exact ⟨_, _, innermost, opens, rfl⟩
  | tooDeep => cases unbalanced

end Fault

end Parse

/-! ## Where the machine stops -/

/-- After what the machine has read, a token can be read exactly if it has a step. -/
lemma run_snoc (front : run limit s before = some m) :
    (∃ n, run limit s (before ++ [k]) = some n) ↔ ∃ n, step limit m k = some n := by
  simp only [run_append_eq front, run_single]

/-- Where the machine stops at the end of input, it goes on with another token. -/
lemma exists_more (front : run limit s before = some m) (inner : ∀ t ∈ before, t.kind ≠ .endOfInput)
    (unfinished : s ≠ .finished) (final : k.kind = .endOfInput) (stops : step limit m k = none) :
    ∃ t rest, t.kind ≠ .endOfInput ∧ run limit s (before ++ t :: rest) = some .finished := by
  have ran : run limit s (before ++ m.completion) = some .finished :=
    (run_append_eq front).trans (run_completion m)
  cases completion : m.completion with
  | nil =>
      rw [completion, List.append_nil] at ran
      obtain ⟨us, t, rfl, last⟩ := endOfInput_of_run ran unfinished
      exact absurd last (inner t (by simp))
  | cons t rest =>
      rw [completion] at ran
      refine ⟨t, rest, fun last => ?_, ran⟩
      rw [run_append_eq front] at ran
      obtain ⟨n, goes, -⟩ := run_cons.1 ran
      rw [step_endOfInput last final, stops] at goes
      cases goes

section

variable (accepted : ∀ {limit : Nat} {ts : List Token}, run limit s ts = some .finished ↔
    ∃ tree depth, Whole ts tree depth ∧ depth ≤ limit)
  (start : s.delimiters = []) (unfinished : s ≠ .finished)

include accepted start unfinished

/-- A token at which the machine has a fault can follow no tokens that lead there. -/
lemma offends_of_fault (front : run maxNesting s before = some m)
    (fault : Fault maxNesting m k e) (inner : ∀ t ∈ before, t.kind ≠ .endOfInput) :
    Offends Whole before k e := by
  have viable_iff : ∀ {limit : Nat} {ts : List Token},
      Viable Whole limit ts ↔ ∃ m, run limit s ts = some m := viable_iff_of accepted
  have stops := fault.step_eq_none
  have refused : ¬ Viable Whole maxNesting (before ++ [k]) := by
    rw [viable_iff, run_snoc front, stops]
    simp
  refine ⟨viable_iff.2 ⟨m, front⟩, refused, fun final => ⟨?_, ?_⟩, fault.unterminated_iff, ?_,
    fun delimiter offset unbalanced => ?_⟩
  · obtain ⟨t, rest, more, ran⟩ := exists_more front inner unfinished final stops
    obtain ⟨tree, depth, whole, few⟩ := accepted.1 ran
    exact ⟨t, rest, tree, depth, more, whole, few⟩
  · rintro ⟨tree, depth, whole, few⟩
    exact refused ⟨[], tree, depth, by rwa [List.append_nil], few⟩
  · rcases fault.tooDeep_or with ⟨deep, opens, deeper⟩ | ⟨other, never⟩
    · have front' := run_mono (Nat.le_succ maxNesting) front
      exact iff_of_true deep ⟨opens, maxNesting + 1, viable_iff.2 ((run_snoc front').2 deeper)⟩
    · refine iff_of_false other ?_
      rintro ⟨-, limit, viable⟩
      -- under the higher of both limits the machine would pass the token
      obtain ⟨n, ran⟩ := viable_iff.1 viable
      have front' := run_mono (le_max_right limit maxNesting) front
      obtain ⟨_, goes⟩ := (run_snoc front').1 ⟨n, run_mono (le_max_left limit maxNesting) ran⟩
      rw [never] at goes
      cases goes
  · obtain ⟨opened, outer, delimiters, opens, place⟩ := fault.innermost unbalanced
    cases m with
    | finished => cases delimiters
    | before goal fs =>
        have nothing : Unclosed [] s.delimiters := start ▸ .none .nil
        have unclosed := unclosed_of_run nothing front
        rw [delimiters, List.nil_append] at unclosed
        cases unclosed with
        | opened _ _ balanced => exact ⟨_, opened, _, rfl, opens, place, balanced⟩

/-- An error of a reading that tracks the machine is about the token at which this stops. -/
lemma located_of_error {p : Parse α} (cut : tokenize text = .ok tokens)
    (tracks : ∀ {c : Cursor}, c.left = maxNesting → c.Ended →
      Tracks p maxNesting s (.before .rest []) c)
    (failed : p.runText text = .error e) : Located Whole tokens e := by
  obtain ⟨front, k, behind, m, split, ran, fault⟩ := stuck_of_runText cut tracks failed
  have inner : ∀ t ∈ front, t.kind ≠ .endOfInput := by
    obtain ⟨ts, closing, rfl, -, inner⟩ := tokenize_ok cut
    have parts := congrArg List.dropLast split
    rw [List.dropLast_concat, List.dropLast_append_of_ne_nil (by simp)] at parts
    exact fun t mem => inner t (parts ▸ List.mem_append_left _ mem)
  refine ⟨⟨front, k, behind, split, fault.blames⟩, fun split' blames => ?_⟩
  obtain ⟨rfl, rfl⟩ := blames_unique cut split split' fault.blames blames
  exact offends_of_fault accepted start unfinished ran fault inner

end

/-! ## The main statement -/

/-- **Errors are reported at the first token that cannot continue.** -/
theorem parse_error_located (cut : tokenize text = .ok tokens) :
    (∀ e, AnnotationNode.parse text = .error e → Located IsRoot tokens e) ∧
    ∀ e, Node.parse text = .error e → Located IsLoneValue tokens e :=
  ⟨fun _ failed => located_of_error run_root_iff rfl nofun cut tracks_nextRoot failed,
    fun _ failed => located_of_error run_value_iff rfl nofun cut tracks_nextValue failed⟩

/-- The parenthesis behind the outer name is open when the text ends. -/
def sampleUnclosed : String := "@A(v = \x7b1, 2\x7d, w = @B(3)"

/-- The end of input is the offending token, and the parenthesis the innermost delimiter that is
open. -/
theorem parse_error_located_sampleUnclosed : ∃ before k after,
    tokenize sampleUnclosed = .ok (before ++ k :: after) ∧
      AnnotationNode.parse sampleUnclosed = .error (.unbalanced '(' 2) ∧
      k.kind = .endOfInput ∧ Offends IsRoot before k (.unbalanced '(' 2) := by
  have found : (match AnnotationNode.parse sampleUnclosed with
      | .ok _ => none
      | .error e => some e) = some (.unbalanced '(' 2) := by decide +kernel
  have failed : AnnotationNode.parse sampleUnclosed = .error (.unbalanced '(' 2) := by
    split at found
    · cases found
    · next e failed =>
        cases found
        exact failed
  have cuts : (tokenize sampleUnclosed).isOk = true := by decide +kernel
  cases cut : tokenize sampleUnclosed with
  | error e =>
      rw [cut] at cuts
      cases cuts
  | ok tokens =>
      have located := (parse_error_located cut).1 _ failed
      obtain ⟨before, k, after, rfl, blames⟩ := located.exists_token
      exact ⟨before, k, after, rfl, failed, blames, located.offends rfl blames⟩

end DocAnnotations
