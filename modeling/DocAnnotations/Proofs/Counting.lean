import DocAnnotations.Proofs.Verdicts
import Mathlib.Data.List.Flatten

/-!
# Counting one by one

A batch counts as it goes: one verdict after the other, and then one member after the other.  A
member whose annotations cannot be written takes them back from the accepted ones and adds them to
the failed ones.  `Summary.count?` counts in this way, and has no result when more would be taken
back than there is.

**Why there is always enough.**  The annotations of the members that are still to come are among the
accepted ones all the time (`Summary.Covers`).  `Summary.Covers.step` keeps this for one member, and
`foldlM_countMember?` goes through all of them.

**`count?_eq_summary`**: counting one by one has a result, and it is the summary of the report, in
which the counts are the lengths of lists.
-/

namespace DocAnnotations

open Attribute

variable {verdicts : List (Occurrence × Verdict)} {groups : List Group} {g : Group} {s : Summary}

/-! ## The counters -/

/-- The counts after one more verdict. -/
def Summary.countVerdict (s : Summary) : Verdict → Summary
  | .accepted _ => { s with accepted := s.accepted + 1 }
  | .skipped _ => { s with skipped := s.skipped + 1 }
  | .failed _ => { s with failed := s.failed + 1 }

/-- The counts after one more member.  The annotations of a member that cannot be written were
counted as accepted, and fail now. -/
def Summary.countMember? (s : Summary) (g : Group) : Option Summary :=
  match g.encoded with
  | .ok _ => some { s with attributes := s.attributes + 1 }
  | .error _ =>
    if g.annotations.length ≤ s.accepted then
      some { s with
        accepted := s.accepted - g.annotations.length
        failed := s.failed + g.annotations.length }
    else none

/-- The counts of a batch: all verdicts, then all members. -/
def Summary.count? (verdicts : List (Occurrence × Verdict)) : Option Summary :=
  (groupsOf verdicts).foldlM Summary.countMember?
    (verdicts.foldl (fun s p => s.countVerdict p.2) { occurrences := verdicts.length })

/-! ## Members -/

/-- A group has an attribute with its annotations, or else a diagnostic. -/
lemma Group.written_or_lost (g : Group) :
    (∃ m bytes, g.encoded = .ok bytes ∧ g.attribute? = some m ∧ g.diagnostic? = none
      ∧ memberBytes g.annotations = .ok m.bytes) ∨
    ∃ e d, g.encoded = .error e ∧ g.attribute? = none ∧ g.diagnostic? = some d := by
  cases written : g.encoded with
  | ok bytes =>
      refine .inl ⟨⟨g.target, bytes⟩, bytes, rfl, ?_, ?_, written⟩
      · rw [attribute?, written]
      · rw [diagnostic?, written]
  | error e =>
      refine .inr ⟨e, .ofEncodeError g.first e, rfl, ?_, ?_⟩
      · rw [attribute?, written]
      · rw [diagnostic?, written]

/-- A group that cannot be written is lost with all its annotations. -/
lemma unwritable_cons_of_some {d : Diagnostic} (lost : g.diagnostic? = some d) :
    unwritable (g :: groups) = g.annotations.length + unwritable groups := by
  simp [unwritable, lost]

/-- Of a group that can be written nothing is lost. -/
lemma unwritable_cons_of_none (written : g.diagnostic? = none) :
    unwritable (g :: groups) = unwritable groups := by
  simp [unwritable, written]

/-- The annotations of the groups to come are among those that are counted as accepted. -/
def Summary.Covers (s : Summary) (groups : List Group) : Prop :=
  (groups.flatMap Group.annotations).length ≤ s.accepted

/-- The counts when all of the given members are counted. -/
def Summary.withMembers (s : Summary) (groups : List Group) : Summary :=
  { s with
    accepted := s.accepted - unwritable groups
    failed := s.failed + unwritable groups
    attributes := s.attributes + (groups.filterMap Group.attribute?).length }

/-- A member takes back no more than there is, and leaves enough for those behind it. -/
lemma Summary.Covers.step (covers : s.Covers (g :: groups)) : ∃ t, s.countMember? g = some t
    ∧ t.Covers groups ∧ t.withMembers groups = s.withMembers (g :: groups) := by
  rw [Covers, List.flatMap_cons, List.length_append] at covers
  rcases g.written_or_lost with ⟨m, bytes, written, made, none, -⟩ | ⟨e, d, failed, none, lost⟩
  · refine ⟨{ s with attributes := s.attributes + 1 }, ?_, ?_, ?_⟩
    · rw [countMember?, written]
    · dsimp only [Covers]
      omega
    · rw [withMembers, withMembers, unwritable_cons_of_none none, List.filterMap_cons_some made,
        List.length_cons, Nat.add_assoc, Nat.add_comm 1]
  · have enough : g.annotations.length ≤ s.accepted := by omega
    refine ⟨{ s with
      accepted := s.accepted - g.annotations.length
      failed := s.failed + g.annotations.length }, ?_, ?_, ?_⟩
    · rw [countMember?, failed]
      exact if_pos enough
    · dsimp only [Covers]
      omega
    · rw [withMembers, withMembers, unwritable_cons_of_some lost, List.filterMap_cons_none none,
        Nat.sub_sub, Nat.add_assoc]

/-- All members are counted, one after the other. -/
lemma foldlM_countMember? : ∀ {groups : List Group} {s : Summary}, s.Covers groups →
    groups.foldlM Summary.countMember? s = some (s.withMembers groups)
  | [], _, _ => rfl
  | g :: groups, s, covers => by
      obtain ⟨t, counted, rest, same⟩ := covers.step
      rw [List.foldlM_cons, counted, ← same]
      exact foldlM_countMember? rest

/-! ## Verdicts -/

/-- The counts when all of the given verdicts are counted. -/
def Summary.withVerdicts (s : Summary) (verdicts : List (Occurrence × Verdict)) : Summary :=
  { s with
    accepted := s.accepted + (verdicts.filterMap fun p => p.2.annotation?).length
    failed := s.failed + (failuresOf verdicts).length
    skipped := s.skipped + (verdicts.filterMap fun p => skipMessage? p.1 p.2).length }

/-- All verdicts are counted, one after the other. -/
lemma foldl_countVerdict : ∀ (verdicts : List (Occurrence × Verdict)) (s : Summary),
    verdicts.foldl (fun s p => s.countVerdict p.2) s = s.withVerdicts verdicts
  | [], _ => rfl
  | (o, v) :: verdicts, s => by
      rw [List.foldl_cons, foldl_countVerdict verdicts]
      cases v <;> simp [Summary.withVerdicts, Summary.countVerdict, failuresOf,
        Verdict.annotation?, Verdict.diagnostic?, skipMessage?] <;> omega

/-! ## Reports -/

/-- Only what was accepted can be lost. -/
lemma unwritable_le (verdicts : List (Occurrence × Verdict)) :
    unwritable (groupsOf verdicts) ≤ (verdicts.filterMap fun p => p.2.annotation?).length := by
  rw [← (perm_groupsOf verdicts).length_eq]
  exact (List.filter_sublist.map Group.annotations).flatten.length_le

/-- **Counting one by one** has a result, which is the summary of the report. -/
lemma count?_eq_summary (verdicts : List (Occurrence × Verdict)) :
    Summary.count? verdicts = some (Report.ofVerdicts verdicts).summary := by
  have covers : Summary.Covers (Summary.withVerdicts { occurrences := verdicts.length } verdicts)
      (groupsOf verdicts) := by
    rw [Summary.Covers, (perm_groupsOf verdicts).length_eq]
    exact Nat.le_add_left _ _
  rw [Summary.count?, foldl_countVerdict, foldlM_countMember? covers]
  simp only [Summary.withMembers, Summary.withVerdicts, Nat.zero_add]
  rfl

end DocAnnotations
