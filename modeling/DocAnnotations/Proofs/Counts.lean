import DocAnnotations.Proofs.Counting

/-!
# Counts in balance

The summary of a batch is what counting one by one comes to (`count?_eq_summary`).  Here it is
compared with the batch, with what the batch attaches and with what it reports.

**Occurrences.**  Each is accepted, fails or is skipped, and no two of these (`length_eq_sum`).

**Attributes.**  Each says in front how many annotations it has (`count_of_memberBytes`), and has at
least one (`of_mem_attributes`).  What was accepted stands in an attribute or in a member that is
lost, so the attributes count what the summary counts (`accepted_eq_sum`).

**Failures.**  A lost member has annotations and an error, so there are failures where there are
errors (`failed_eq_zero_iff`).

**`counts_balance`** puts these together for a batch that nothing stops.
-/

namespace DocAnnotations

open Attribute

variable {verdicts : List (Occurrence × Verdict)} {groups : List Group} {g : Group}
  {m : MemberAttribute}

/-! ## Attributes -/

/-- How many annotations an attribute says that it has. -/
def MemberAttribute.count (m : MemberAttribute) : Nat := ofBigEndian (m.bytes.take 2)

/-- The count in front of an attribute is that of its annotations. -/
lemma count_of_memberBytes {annotations : List Annotation}
    (written : memberBytes annotations = .ok m.bytes) : m.count = annotations.length := by
  obtain ⟨count, items, number, -, split⟩ := memberBytes_ok written
  obtain ⟨small, rfl⟩ := lengthBytes_ok number
  have front : m.bytes.take 2 = bigEndian 2 annotations.length := by
    rw [split, List.take_left' (length_bigEndian 2 _)]
  rw [MemberAttribute.count, front, ofBigEndian_bigEndian small]

/-- Every annotation stands in a group that cannot be written or is counted by an attribute. -/
lemma length_annotations (groups : List Group) : (groups.flatMap Group.annotations).length
    = unwritable groups + ((groups.filterMap Group.attribute?).map MemberAttribute.count).sum := by
  induction groups with
  | nil => rfl
  | cons g groups ih =>
      rw [List.flatMap_cons, List.length_append, ih]
      rcases g.written_or_lost with ⟨m, -, -, made, none, written⟩ | ⟨-, d, -, none, lost⟩
      · rw [unwritable_cons_of_none none, List.filterMap_cons_some made, List.map_cons,
          List.sum_cons, count_of_memberBytes written]
        omega
      · rw [unwritable_cons_of_some lost, List.filterMap_cons_none none]
        omega

/-- Where no annotation is in a group that cannot be written, every group can be written. -/
lemma unwritable_eq_zero_iff (filled : ∀ g ∈ groups, g.annotations ≠ []) :
    unwritable groups = 0 ↔ groups.filterMap Group.diagnostic? = [] := by
  induction groups with
  | nil => simp [unwritable]
  | cons g groups ih =>
      obtain ⟨some_, rest⟩ := List.forall_mem_cons.1 filled
      rcases g.written_or_lost with ⟨-, -, -, -, none, -⟩ | ⟨-, d, -, -, lost⟩
      · rw [unwritable_cons_of_none none, List.filterMap_cons_none none, ih rest]
      · have positive : g.annotations.length ≠ 0 :=
          fun zero => some_ (List.length_eq_zero_iff.1 zero)
        rw [unwritable_cons_of_some lost, List.filterMap_cons_some lost]
        simp [positive]

/-- Only an accepted annotation makes a group. -/
lemma annotations_ne_nil (mem : g ∈ groupsOf verdicts) : g.annotations ≠ [] := by
  obtain ⟨first, annotations⟩ := mem_groupsOf_iff.1 mem
  intro none
  rw [firstAcceptedAt_eq_none_iff.2 (annotations ▸ none)] at first
  cases first

/-- Every verdict is counted once. -/
lemma length_verdicts (verdicts : List (Occurrence × Verdict)) : verdicts.length
    = (verdicts.filterMap fun p => p.2.annotation?).length + (failuresOf verdicts).length
      + (verdicts.filterMap fun p => skipMessage? p.1 p.2).length := by
  induction verdicts with
  | nil => rfl
  | cons p verdicts ih =>
      obtain ⟨o, v⟩ := p
      rw [List.length_cons, ih]
      cases v <;> simp [failuresOf, Verdict.annotation?, Verdict.diagnostic?, skipMessage?] <;>
        omega

/-! ## Reports -/

/-- What is counted as accepted is what the attributes count. -/
lemma accepted_eq_sum (verdicts : List (Occurrence × Verdict)) :
    (Report.ofVerdicts verdicts).summary.accepted
      = ((Report.ofVerdicts verdicts).attributes.map MemberAttribute.count).sum := by
  have all := length_annotations (groupsOf verdicts)
  rw [(perm_groupsOf verdicts).length_eq] at all
  exact Nat.sub_eq_of_eq_add (all.trans (Nat.add_comm _ _))

/-- An occurrence is accepted, fails or is skipped. -/
lemma length_eq_sum (verdicts : List (Occurrence × Verdict)) :
    let s := (Report.ofVerdicts verdicts).summary
    verdicts.length = s.accepted + s.failed + s.skipped := by
  intro s
  have accepted : s.accepted = (verdicts.filterMap fun p => p.2.annotation?).length
      - unwritable (groupsOf verdicts) := rfl
  have failed : s.failed = (failuresOf verdicts).length + unwritable (groupsOf verdicts) := rfl
  have skipped : s.skipped = (verdicts.filterMap fun p => skipMessage? p.1 p.2).length := rfl
  have all := length_verdicts verdicts
  have enough := unwritable_le verdicts
  omega

/-- Something fails if and only if an error is reported. -/
lemma failed_eq_zero_iff (verdicts : List (Occurrence × Verdict)) :
    (Report.ofVerdicts verdicts).summary.failed = 0 ↔ (Report.ofVerdicts verdicts).errors = [] := by
  have members : unwritable (groupsOf verdicts) = 0
      ↔ (groupsOf verdicts).filterMap Group.diagnostic? = [] :=
    unwritable_eq_zero_iff fun _ => annotations_ne_nil
  rw [show (Report.ofVerdicts verdicts).errors
    = failuresOf verdicts ++ (groupsOf verdicts).filterMap Group.diagnostic? from rfl,
    List.append_eq_nil_iff, ← members, ← List.length_eq_zero_iff]
  exact Nat.add_eq_zero_iff

/-- An attribute has at least one annotation, and counts those that it has. -/
lemma of_mem_attributes (mem : m ∈ (Report.ofVerdicts verdicts).attributes) :
    0 < m.count ∧ ∃ annotations, memberBytes annotations = .ok m.bytes
      ∧ annotations.length = m.count := by
  obtain ⟨g, there, made⟩ := List.mem_filterMap.1 mem
  rcases g.written_or_lost with ⟨m', -, -, made', -, written⟩ | ⟨-, -, -, none, -⟩
  · cases made.symm.trans made'
    have count := count_of_memberBytes written
    exact ⟨count ▸ List.length_pos_of_ne_nil (annotations_ne_nil there),
      g.annotations, written, count.symm⟩
  · cases made.symm.trans none

/-- **Counts in balance.**  A batch whose literals do not stop it, and for which loading defaults
ends, succeeds with any registry, and each of its occurrences comes to what it comes to alone.  Its
summary is what counting one by one comes to, which never takes back more annotations than were
accepted.  Every occurrence is counted as accepted, failed or skipped.  The
accepted ones are as many as the attributes have annotations, by the counts in front of them.  There
are as many attributes as counted, each with at least one annotation.  Nothing fails if and only if
no error is reported. -/
theorem counts_balance (l : Loader) (r : Registry) (occurrences : List Occurrence)
    (compiles : ∀ o ∈ occurrences, l.Compiles o.literal)
    (ends : ∀ o ∈ occurrences, l.Ends r o.literal) :
    ∃ (outcomes : List (Occurrence × Outcome)) (r' : Registry) (report : Report),
      compileOccurrences l [] occurrences r = .ok outcomes r'
      ∧ outcomes.map Prod.fst = occurrences
      ∧ (∀ p ∈ outcomes, ∃ s, compileOccurrence l p.1 r = .ok p.2 s)
      ∧ compileBatch l occurrences r = .ok report r'
      ∧ Summary.count? (judge [] outcomes) = some report.summary
      ∧ report.summary.occurrences = occurrences.length
      ∧ report.summary.occurrences
        = report.summary.accepted + report.summary.failed + report.summary.skipped
      ∧ report.summary.accepted = (report.attributes.map MemberAttribute.count).sum
      ∧ report.summary.attributes = report.attributes.length
      ∧ (∀ m ∈ report.attributes, 0 < m.count ∧ ∃ annotations,
        memberBytes annotations = .ok m.bytes ∧ annotations.length = m.count)
      ∧ (report.summary.failed = 0 ↔ report.errors = []) := by
  obtain ⟨outcomes, r', ran, names, alone, -⟩ := exists_outcomes compiles ends
  have many : (judge [] outcomes).length = occurrences.length := by
    rw [length_judge, ← names, List.length_map]
  exact ⟨outcomes, r', .ofVerdicts (judge [] outcomes), ran, names, alone,
    compileBatch_of_outcomes ran, count?_eq_summary _, many, length_eq_sum _, accepted_eq_sum _,
    rfl, fun m mem => of_mem_attributes mem, failed_eq_zero_iff _⟩

/-- Two of the three annotations are accepted, at two members, and the repeated point fails. -/
theorem counts_balance_repeatedBatch :
    let l := sampleIndex.loader ⟨0⟩
    ∃ report r', compileBatch l repeatedBatch .empty = .ok report r'
      ∧ report.summary = ⟨3, 2, 1, 0, 2⟩
      ∧ (report.attributes.map MemberAttribute.count).sum = 2
      ∧ (∀ m ∈ report.attributes, 0 < m.count) ∧ report.errors ≠ [] := by
  intro l
  have lexed : ∀ o ∈ repeatedBatch, (tokenize o.literal).isOk = true := by decide +kernel
  have ends : l.DefaultsEnd := defaultsEnd_of_ofSchema ofSchema_sampleSchema ⟨0⟩
  obtain ⟨outcomes, r', report, ran, -, -, compiled, counted, -, -, accepted, -, filled, failed⟩ :=
    counts_balance l .empty repeatedBatch (fun o mem => .of_isOk (lexed o mem))
      fun o _ => ends.ends .empty o.literal
  have checked : (returned (compileOccurrences l [] repeatedBatch .empty)).map (fun outcomes =>
      Summary.count? (judge [] outcomes)) = some (some ⟨3, 2, 1, 0, 2⟩) := by
    decide +kernel
  rw [ran] at checked
  simp only [returned, Option.map_some, counted, Option.some.injEq] at checked
  refine ⟨report, r', compiled, checked, ?_, fun m mem => (filled m mem).1, fun none => ?_⟩
  · rw [← accepted, checked]
  · have zero := failed.2 none
    rw [checked] at zero
    cases zero

end DocAnnotations
