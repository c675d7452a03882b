import DocAnnotations.Proofs.Groups
import DocAnnotations.Proofs.Outcomes
import DocAnnotations.Proofs.Unchanged

/-!
# Attributes of a batch

A batch succeeds if all its literals have tokens (`compileOccurrences_ok`), whatever else is wrong
with them.

**Single occurrences.**  What an occurrence is resolved to has every property that the loader keeps,
and the registry has only such defaults afterwards.

**Verdicts and attributes.**  So what a batch accepts was resolved, and it comes back unchanged when
the names of types are plain.  **`attributes_read_back`**: each attribute of a batch is read back as
the annotations that were accepted for its member, in the order of the batch, unless one of them is
nested more deeply than the reader goes.

Nothing in the compiler prevents the latter: the parser counts the levels that are written in a
literal, not those that defaults add.
-/

namespace DocAnnotations

open Attribute

variable {l : Loader} {P : Value → Prop} {r : Registry}

/-! ## Single occurrences -/

/-- The annotations that outcomes have resolved to have `P` everywhere. -/
def ResolvedHave (P : Value → Prop) (outcome : Outcome) : Prop :=
  ∀ a, outcome = .resolved a → (Value.nested a).Everywhere P

/-- A literal that can be cut into tokens compiles to an outcome, and a property that the loader
keeps holds of what was resolved. -/
lemma compileOccurrence_ok (keeps : l.Keeps P) (holds : l.Holds P r) {o : Occurrence}
    (lexed : ∃ tokens, tokenize o.literal = .ok tokens) :
    ∃ outcome r', compileOccurrence l o r = .ok outcome r' ∧ l.Holds P r'
      ∧ ResolvedHave P outcome := by
  have compiled := ensures_compileLiteral keeps.keepsWith o.literal
  cases tried : l.skips o.literal with
  | true => exact ⟨_, r, compileOccurrence_of_skips tried r, holds, nofun⟩
  | false =>
      cases ran : compileLiteral l o.literal r with
      | ok found r' =>
          obtain ⟨inside, holds'⟩ := compiled.ok holds ran
          refine ⟨_, r', compileOccurrence_of_ok tried ran, holds', fun a same => ?_⟩
          cases found with
          | none => cases same
          | some b =>
              cases same
              exact inside a rfl
      | error e r' =>
          have failed := compileOccurrence_of_error tried ran
          cases lexical : e.lexError? with
          | none =>
              rw [lexical] at failed
              exact ⟨_, r', failed, compiled.error holds ran, nofun⟩
          | some cause =>
              obtain ⟨tokens, lexed⟩ := lexed
              rw [tokenize_of_compileLiteral ran lexical] at lexed
              cases lexed

/-- A batch of literals that all have tokens is compiled to the end. -/
lemma compileOccurrences_ok (keeps : l.Keeps P) : ∀ (occurrences : List Occurrence)
    (found : List (Occurrence × Outcome)) {r : Registry}, l.Holds P r →
    (∀ o ∈ occurrences, ∃ tokens, tokenize o.literal = .ok tokens) →
    ∃ outcomes r', compileOccurrences l found occurrences r = .ok (found.reverse ++ outcomes) r'
      ∧ outcomes.map Prod.fst = occurrences ∧ ∀ p ∈ outcomes, ResolvedHave P p.2
  | [], found, r, _, _ => ⟨[], r, by rw [List.append_nil]; rfl, rfl, by simp⟩
  | o :: occurrences, found, r, holds, lexed => by
      obtain ⟨first, rest⟩ := List.forall_mem_cons.1 lexed
      obtain ⟨outcome, r', ran, holds', here⟩ := compileOccurrence_ok keeps holds first
      obtain ⟨outcomes, r'', rest, names, all⟩ :=
        compileOccurrences_ok keeps occurrences ((o, outcome) :: found) holds' rest
      refine ⟨(o, outcome) :: outcomes, r'', ?_, by rw [List.map_cons, names],
        List.forall_mem_cons.2 ⟨here, all⟩⟩
      rw [compileOccurrences]
      simp only [Bind.bind, EStateM.bind, ran]
      rw [rest, List.reverse_cons, List.append_assoc, List.singleton_append]

/-! ## Verdicts and attributes -/

/-- What was accepted was resolved. -/
lemma resolved_of_mem_judge {p : Occurrence × Verdict} {a : Annotation} :
    ∀ {outcomes : List (Occurrence × Outcome)} {taken : List (Target × String)},
    p ∈ judge taken outcomes → p.2.annotation? = some a → (p.1, .resolved a) ∈ outcomes
  | (o, .resolved b) :: outcomes, taken, mem, accepted => by
      rw [judge] at mem
      split_ifs at mem
      · rcases List.mem_cons.1 mem with rfl | mem
        · cases accepted
        · exact List.mem_cons_of_mem _ (resolved_of_mem_judge mem accepted)
      · rcases List.mem_cons.1 mem with rfl | mem
        · cases accepted
          exact List.mem_cons_self
        · exact List.mem_cons_of_mem _ (resolved_of_mem_judge mem accepted)
  | (o, .unknownName name) :: outcomes, taken, mem, accepted => by
      rw [judge] at mem
      rcases List.mem_cons.1 mem with rfl | mem
      · cases accepted
      · exact List.mem_cons_of_mem _ (resolved_of_mem_judge mem accepted)
  | (o, .failed d) :: outcomes, taken, mem, accepted => by
      rw [judge] at mem
      rcases List.mem_cons.1 mem with rfl | mem
      · cases accepted
      · exact List.mem_cons_of_mem _ (resolved_of_mem_judge mem accepted)

/-- What was accepted at a target is what some occurrence was accepted with. -/
lemma mem_of_mem_acceptedAt {verdicts : List (Occurrence × Verdict)} {target : Target}
    {a : Annotation} (mem : a ∈ acceptedAt verdicts target) :
    ∃ p ∈ verdicts, p.2.annotation? = some a := by
  obtain ⟨p, hp, accepted⟩ := List.mem_filterMap.1 mem
  split_ifs at accepted
  exact ⟨p, hp, accepted⟩

/-- The attributes of a report say what was accepted for their members. -/
lemma memberBytes_of_mem_attributes {verdicts : List (Occurrence × Verdict)} {m : MemberAttribute}
    (mem : m ∈ (Report.ofVerdicts verdicts).attributes) :
    memberBytes (acceptedAt verdicts m.target) = .ok m.bytes := by
  obtain ⟨g, hg, made⟩ := List.mem_filterMap.1 mem
  unfold Group.attribute? at made
  split at made
  · next written =>
    cases made
    rwa [Group.encoded, annotations_of_mem_groupsOf hg] at written
  · cases made

/-- **Attributes are read back.**  Over a loaded index with plain type names and its own defaults,
and after any operations, a batch of literals that have tokens succeeds, and each of its attributes
is read with any registry as the annotations that were accepted for its member, in the order of the
batch; if one of these is nested more deeply than the reader goes, the attribute is refused. -/
theorem attributes_read_back {schema : Schema} {index : TypeIndex}
    (loaded : TypeIndex.ofSchema schema = .ok index)
    (plain : ∀ name ∈ schema.typeNames, PlainName name) (token : ModuleToken)
    (operations : List Operation) (occurrences : List Occurrence)
    (lexed : ∀ o ∈ occurrences, ∃ tokens, tokenize o.literal = .ok tokens) :
    let l := index.loader token
    let r := l.registryAfter operations
    ∃ outcomes r', compileOccurrences l [] occurrences r = .ok outcomes r'
      ∧ outcomes.map Prod.fst = occurrences
      ∧ compileBatch l occurrences r = .ok (.ofVerdicts (judge [] outcomes)) r'
      ∧ ∀ m ∈ (Report.ofVerdicts (judge [] outcomes)).attributes, ∀ s,
        let accepted := acceptedAt (judge [] outcomes) m.target
        l.decodeMember m.bytes s = if ∀ a ∈ accepted, a.depth ≤ nestingLimit then .ok accepted s
          else .error (.tooDeep nestingLimit) s := by
  intro l r
  have keeps : l.Keeps index.lookup.Unchanged :=
    keeps_of_ofSchema loaded (suits_unchanged loaded plain) token
  have holds : l.Holds index.lookup.Unchanged r :=
    holds_registryAfter keeps (fun _ h => approves_of_resolved (l := l) h.1) operations
  have once : l.types.DeclaresOnce := TypeIndex.declaresOnce loaded
  obtain ⟨outcomes, r', ran, names, unchanged⟩ :=
    compileOccurrences_ok keeps occurrences [] holds lexed
  rw [List.reverse_nil, List.nil_append] at ran
  refine ⟨outcomes, r', ran, names, ?_, fun m mem s => ?_⟩
  · simp only [compileBatch, Bind.bind, EStateM.bind, ran]
    rfl
  · refine decodeMember_of_unchanged once (fun a ha => ?_) (memberBytes_of_mem_attributes mem) s
    obtain ⟨p, hp, accepted⟩ := mem_of_mem_acceptedAt ha
    exact unchanged _ (resolved_of_mem_judge hp accepted) a rfl

/-- A shape and a point at one class, with a literal of no annotation between them. -/
def sampleBatch : List Occurrence :=
  [⟨"p.C", "C.java", 1, .wholeClass, "Shape(at = @Point(unit = Unit.CM), mark = 'x')"⟩,
    ⟨"p.C", "C.java", 2, .field "f", "Nothing"⟩,
    ⟨"p.C", "C.java", 3, .wholeClass, "@Point(x = 1, unit = Unit.INCH)"⟩]

/-- The one attribute of the batch is read back as the shape and the point. -/
theorem attributes_read_back_sampleBatch :
    let l := sampleIndex.loader ⟨0⟩
    ∃ report r', compileBatch l sampleBatch .empty = .ok report r'
      ∧ ∃ m, report.attributes = [m] ∧ ∀ s, ∃ accepted, l.decodeMember m.bytes s = .ok accepted s
        ∧ accepted.map Annotation.typeName = ["p.Shape", "p.Point"] := by
  intro l
  have lexed : ∀ o ∈ sampleBatch, ∃ tokens, tokenize o.literal = .ok tokens := by
    have all : ∀ o ∈ sampleBatch, (tokenize o.literal).isOk = true := by decide +kernel
    exact fun o ho => exists_tokens_of_isOk (all o ho)
  obtain ⟨outcomes, r', ran, -, compiled, back⟩ := attributes_read_back ofSchema_sampleSchema
    (by decide) ⟨0⟩ [] sampleBatch lexed
  have checked : (returned (compileOccurrences l [] sampleBatch .empty)).map (fun outcomes =>
      let accepted := acceptedAt (judge [] outcomes) ⟨"p.C", .wholeClass⟩
      ((Report.ofVerdicts (judge [] outcomes)).attributes.map MemberAttribute.target,
        accepted.map Annotation.typeName, accepted.map Annotation.depth))
      = some ([⟨"p.C", .wholeClass⟩], ["p.Shape", "p.Point"], [2, 1]) := by
    decide +kernel
  rw [show compileOccurrences l [] sampleBatch .empty = _ from ran] at checked
  simp only [returned, Option.map_some, Option.some.injEq, Prod.mk.injEq] at checked
  obtain ⟨targets, names, depths⟩ := checked
  obtain ⟨m, single, target⟩ := List.map_eq_singleton_iff.1 targets
  refine ⟨_, r', compiled, m, single, fun s => ?_⟩
  have shallow : ∀ a ∈ acceptedAt (judge [] outcomes) m.target, a.depth ≤ nestingLimit := by
    intro a ha
    rw [target] at ha
    have known : a.depth ∈ [2, 1] := depths ▸ List.mem_map_of_mem ha
    exact (by decide : ∀ d ∈ [2, 1], d ≤ nestingLimit) _ known
  have read := back m (by simp [single]) s
  dsimp only at read
  rw [if_pos shallow] at read
  exact ⟨_, read, by rw [target, names]⟩

end DocAnnotations
