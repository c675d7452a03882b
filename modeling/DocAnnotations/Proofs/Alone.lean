import DocAnnotations.Proofs.Defaults.Coherence
import DocAnnotations.Proofs.Defaults.Ending
import DocAnnotations.Proofs.Defaults.Resolving
import DocAnnotations.Proofs.Outcomes

/-!
# Occurrences on their own

The occurrences of a batch share a registry, and each of them may add defaults to it.  All these
registries are coherent with the one that the batch starts with, so an occurrence comes to the same
wherever it stands in the batch, and whatever stands before it.

This needs that loading defaults ends (`Loader.Ends`), as it always does over a loaded index
(`defaultsEnd_of_ofSchema`): otherwise the limit on the loads under way shows, and a cached entry
can save a load.

**Single occurrences.**  `Loader.ComesTo` says that an occurrence comes to an outcome with every
coherent registry.  `exists_comesTo`: where loading defaults ends, an occurrence that does not stop
the batch comes to one.

**Whole batches.**  `compileOccurrences_of_comesTo` says what a batch comes to when its occurrences
are known one by one.  **`exists_outcomes`** is what the theorems about batches start from: a batch
that nothing stops has outcomes, and each is what its occurrence comes to alone, with the registry
that the batch starts with.
-/

namespace DocAnnotations

open Attribute

/-- A literal for which loading defaults ends, or which is skipped for its leading name. -/
def Loader.Ends (l : Loader) (r : Registry) (literal : String) : Prop :=
  l.skips literal = true ∨ Finished CompileError.Settled (compileLiteral l literal r)

variable {l : Loader} {base r : Registry} {i : Interface} {o : Occurrence}

/-- Where loading the defaults of each interface ends, compiling each literal ends, from whatever
registry it starts. -/
lemma Loader.DefaultsEnd.ends (ends : l.DefaultsEnd) (r : Registry) (literal : String) :
    l.Ends r literal :=
  .inr (ends.compileLiteral literal r)

/-- Loads of settled defaults with coherent registries follow one another. -/
lemma Loader.follows_defaultsFor (known : l.types.Knows i) :
    FollowsUpTo ReadError.Settled (fun r t => l.Coherent base r ∧ l.Coherent base t)
      (l.defaultsFor i) (l.defaultsFor i) := by
  rintro r t ⟨coherent, coherent'⟩
  have down := defaultsWithin_follows l.types.interfaceNames.length i known r base coherent
  have up := follows_defaultsWithin l.types.interfaceNames.length le_rfl i known base t coherent'
  rw [← defaultsFor] at down up
  rw [← settledDefaults] at up
  cases ran : l.defaultsFor i r with
  | ok a r' =>
      simp only [ran] at down
      obtain ⟨s, computed, next⟩ := down
      simp only [computed] at up
      obtain ⟨t', ran', next'⟩ := up
      exact ⟨t', ran', next, next'⟩
  | error e r' =>
      intro settled
      simp only [ran] at down
      obtain ⟨s, computed, next⟩ := down settled
      simp only [computed] at up
      obtain ⟨t', ran', next'⟩ := up settled
      exact ⟨t', ran', next, next'⟩

/-- Two registries that are coherent with one base answer alike, so that resolution cannot tell them
apart. -/
lemma Loader.resolvesLike_of_coherent (l : Loader) (base : Registry) :
    ResolvesLike (fun e => CompileError.Settled (.resolve e))
      (fun r t => l.Coherent base r ∧ l.Coherent base t) (fun _ => True) l l where
  types := rfl
  closed _ _ _ _ _ _ _ := trivial
  answers _ known _ _ := (follows_defaultsFor known).adaptExcept fun _ => id

/-- With a coherent registry a literal compiles as it does at first. -/
lemma compileLiteral_of_coherent {text : String} (coherent : l.Coherent base r)
    (ends : Finished CompileError.Settled (compileLiteral l text base)) :
    ∃ r', l.Coherent base r' ∧ compileLiteral l text r = match compileLiteral l text base with
      | .ok found _ => .ok found r'
      | .error e _ => .error e r' := by
  have follows := follows_compileLiteral (l.resolvesLike_of_coherent base) text base r
    ⟨l.coherent_self base, coherent⟩
  cases ran : compileLiteral l text base with
  | ok found s =>
      simp only [ran] at follows
      obtain ⟨r', ran', -, next⟩ := follows
      exact ⟨r', next, ran'⟩
  | error e s =>
      rw [ran] at ends
      simp only [ran] at follows
      obtain ⟨r', ran', -, next⟩ := follows ends
      exact ⟨r', next, ran'⟩

/-- What an occurrence comes to on its own. -/
def Loader.ComesTo (l : Loader) (base : Registry) (o : Occurrence) (outcome : Outcome) : Prop :=
  ∀ r, l.Coherent base r → ∃ r', compileOccurrence l o r = .ok outcome r' ∧ l.Coherent base r'

/-- An occurrence whose literal compiles and ends has an outcome of its own, which any coherent
registry leads to. -/
lemma exists_comesTo (compiles : l.Compiles o.literal) (ends : l.Ends base o.literal) :
    ∃ outcome, l.ComesTo base o outcome ∧ outcome.FailsAlone := by
  obtain ⟨outcome, s, ran, alone⟩ := compileOccurrence_of_compiles compiles base
  refine ⟨outcome, fun r coherent => ?_, alone⟩
  cases tried : l.skips o.literal with
  | true =>
      rw [compileOccurrence_of_skips tried] at ran ⊢
      cases ran
      exact ⟨r, rfl, coherent⟩
  | false =>
      obtain ⟨r', next, same⟩ :=
        compileLiteral_of_coherent coherent (ends.resolve_left (by simp [tried]))
      cases ran' : compileLiteral l o.literal base with
      | ok found s' =>
          rw [ran'] at same
          rw [compileOccurrence_of_ok tried ran'] at ran
          cases ran
          exact ⟨r', compileOccurrence_of_ok tried same, next⟩
      | error e s' =>
          rw [ran'] at same
          rw [compileOccurrence_of_error tried ran'] at ran
          have failed := compileOccurrence_of_error tried same
          cases lexical : e.lexError? with
          | some cause =>
              rw [lexical] at ran
              cases ran
          | none =>
              rw [lexical] at ran failed
              cases ran
              exact ⟨r', failed, next⟩

/-- A batch comes to what its occurrences come to one by one. -/
theorem compileOccurrences_of_comesTo {f : Occurrence → Outcome} :
    ∀ (occurrences : List Occurrence) (found : List (Occurrence × Outcome)) {r : Registry},
    (∀ o ∈ occurrences, l.ComesTo base o (f o)) → l.Coherent base r →
    ∃ r', compileOccurrences l found occurrences r
      = .ok (found.reverse ++ occurrences.map fun o => (o, f o)) r'
  | [], found, r, _, _ => ⟨r, by rw [List.map_nil, List.append_nil]; rfl⟩
  | o :: occurrences, found, r, all, coherent => by
      obtain ⟨first, rest⟩ := List.forall_mem_cons.1 all
      obtain ⟨r', ran, next⟩ := first r coherent
      obtain ⟨r'', rest⟩ :=
        compileOccurrences_of_comesTo occurrences ((o, f o) :: found) rest next
      refine ⟨r'', ?_⟩
      rw [compileOccurrences]
      simp only [Bind.bind, EStateM.bind, ran]
      rw [rest, List.reverse_cons, List.append_assoc, List.singleton_append, List.map_cons]

/-- **The outcomes of a batch** whose literals do not stop it, and for which loading defaults ends:
it is compiled to the end, and each occurrence comes to what it comes to alone. -/
theorem exists_outcomes {occurrences : List Occurrence}
    (compiles : ∀ o ∈ occurrences, l.Compiles o.literal)
    (ends : ∀ o ∈ occurrences, l.Ends r o.literal) :
    ∃ outcomes r', compileOccurrences l [] occurrences r = .ok outcomes r'
      ∧ outcomes.map Prod.fst = occurrences
      ∧ (∀ p ∈ outcomes, ∃ s, compileOccurrence l p.1 r = .ok p.2 s)
      ∧ ∀ p ∈ outcomes, p.2.FailsAlone := by
  have alone : ∀ o ∈ occurrences, ∃ outcome, l.ComesTo r o outcome ∧ outcome.FailsAlone :=
    fun o mem => exists_comesTo (compiles o mem) (ends o mem)
  have : Nonempty Outcome := ⟨.unknownName ""⟩
  choose! f comesTo fails using alone
  obtain ⟨r', ran⟩ := compileOccurrences_of_comesTo occurrences [] comesTo (l.coherent_self r)
  have names : (occurrences.map fun o => (o, f o)).map Prod.fst = occurrences := by
    rw [List.map_map]
    exact List.map_id occurrences
  refine ⟨_, r', ran, names, fun p mem => ?_, fun p mem => ?_⟩
  · obtain ⟨o, there, rfl⟩ := List.mem_map.1 mem
    obtain ⟨s, here, -⟩ := comesTo o there r (l.coherent_self r)
    exact ⟨s, here⟩
  · obtain ⟨o, there, rfl⟩ := List.mem_map.1 mem
    exact fails o there

end DocAnnotations
