import DocAnnotations.Batch
import Mathlib.Data.List.Basic
import Mathlib.Data.List.Induction
import Mathlib.Tactic.Common

/-!
# Annotations by member

The accepted annotations of a batch are gathered by member, in groups that rise strictly in the
order of the members.

**The order of members.**  Members are compared as their keys are (`Target.compare_eq_compareKeys`),
and different members have different keys.

**Adding to groups.**  `annotationsAt` is the view of such groups, with one equation for adding an
annotation (`annotationsAt_addToGroups`).

**Whole batches.**  **`annotations_of_mem_groupsOf`**: the group of a member has all annotations
that were accepted for the member, in the order of the batch.  **`mem_groupsOf_iff`**: this and the
first accepted occurrence is all that a group is, and every member with an accepted occurrence has
one.
-/

namespace DocAnnotations

open Std

/-! ## The order of members -/

/-- What members are compared by: their kind, name and descriptor. -/
def Member.key : Member → Nat × String × String
  | .wholeClass => (0, "", "")
  | .field name => (1, name, "")
  | .method name descriptor => (2, name, descriptor)

/-- What targets are compared by. -/
def Target.key (t : Target) : String × Nat × String × String := (t.className, t.member.key)

/-- Targets with the same key are the same target. -/
lemma Target.key_injective {s t : Target} (h : s.key = t.key) : s = t := by
  obtain ⟨c, m⟩ := s
  obtain ⟨d, n⟩ := t
  cases m <;> cases n <;> simp_all [Target.key, Member.key]

/-- Comparison of keys, part by part. -/
def compareKeys : String × Nat × String × String → String × Nat × String × String → Ordering :=
  compareLex (compareOn fun k => k.1) (compareLex (compareOn fun k => k.2.1)
    (compareLex (compareOn fun k => k.2.2.1) (compareOn fun k => k.2.2.2)))

instance : TransCmp compareKeys := by
  unfold compareKeys
  infer_instance

/-- Targets are compared as their keys are, component by component. -/
lemma Target.compare_eq_compareKeys (s t : Target) :
    s.compare t = compareKeys s.key t.key := by
  obtain ⟨c, m⟩ := s
  obtain ⟨d, n⟩ := t
  simp only [Target.compare, compareKeys, compareLex, compareOn, Target.key]
  cases m <;> cases n <;> simp [Member.compare, Member.key] <;> rfl

instance : TransCmp Target.compare where
  eq_swap {s t} := by
    rw [s.compare_eq_compareKeys, t.compare_eq_compareKeys]
    exact OrientedCmp.eq_swap
  isLE_trans {s t u} := by
    rw [s.compare_eq_compareKeys, t.compare_eq_compareKeys, s.compare_eq_compareKeys]
    exact TransCmp.isLE_trans

instance : LawfulEqCmp Target.compare where
  eq_of_compare {s t} h := by
    rw [s.compare_eq_compareKeys] at h
    simp only [compareKeys, compareLex_eq_eq, compareOn] at h
    obtain ⟨className, rank, name, descriptor⟩ := h
    refine Target.key_injective (Prod.ext ?_ (Prod.ext ?_ (Prod.ext ?_ ?_)))
    · exact LawfulEqCmp.eq_of_compare className
    · exact LawfulEqCmp.eq_of_compare rank
    · exact LawfulEqCmp.eq_of_compare name
    · exact LawfulEqCmp.eq_of_compare descriptor

/-- A target does not come before itself. -/
lemma Target.ne_of_lt {s t : Target} (h : s.compare t = .lt) : s ≠ t := by
  rintro rfl
  have self : s.compare s = .eq := ReflCmp.compare_self
  rw [self] at h
  cases h

/-! ## Adding to groups -/

/-- The annotations that groups have for a member. -/
def annotationsAt (target : Target) : List Group → List Annotation
  | [] => []
  | g :: groups => if g.target = target then g.annotations else annotationsAt target groups

/-- The targets of groups rise strictly. -/
def Rising (groups : List Group) : Prop :=
  groups.Pairwise fun g h => g.target.compare h.target = .lt

variable {groups : List Group} {target : Target} {o : Occurrence} {a : Annotation}

/-- There is nothing for a member below all others. -/
lemma annotationsAt_of_forall_lt :
    ∀ {groups : List Group}, (∀ g ∈ groups, target.compare g.target = .lt) →
      annotationsAt target groups = []
  | [], _ => rfl
  | g :: groups, h => by
      obtain ⟨first, rest⟩ := List.forall_mem_cons.1 h
      rw [annotationsAt, if_neg (Target.ne_of_lt first).symm, annotationsAt_of_forall_lt rest]

/-- Only a member that has a group has annotations. -/
lemma exists_of_annotationsAt : ∀ {groups : List Group}, annotationsAt target groups ≠ [] →
    ∃ g ∈ groups, g.target = target
  | [], h => absurd rfl h
  | g :: groups, h => by
      rw [annotationsAt] at h
      split_ifs at h with here
      · exact ⟨g, List.mem_cons_self, here⟩
      · obtain ⟨g', mem, there⟩ := exists_of_annotationsAt h
        exact ⟨g', List.mem_cons_of_mem _ mem, there⟩

/-- A group has what there is for its member. -/
lemma annotationsAt_of_mem : ∀ {groups : List Group}, Rising groups → ∀ g ∈ groups,
    annotationsAt g.target groups = g.annotations
  | h :: groups, rising, g, mem => by
      obtain ⟨first, rest⟩ := List.pairwise_cons.1 rising
      rcases List.mem_cons.1 mem with rfl | mem
      · rw [annotationsAt, if_pos rfl]
      · rw [annotationsAt, if_neg (Target.ne_of_lt (first g mem)), annotationsAt_of_mem rest g mem]

/-- A member below the first of the groups is below all of them. -/
lemma lt_of_rising {g : Group} (rising : Rising (g :: groups))
    (below : target.compare g.target = .lt) :
    ∀ h ∈ g :: groups, target.compare h.target = .lt := by
  obtain ⟨first, -⟩ := List.pairwise_cons.1 rising
  exact List.forall_mem_cons.2 ⟨below, fun h mem => TransCmp.lt_trans below (first h mem)⟩

/-- An annotation goes behind those of its member, and leaves those of others alone. -/
lemma annotationsAt_addToGroups (target : Target) :
    ∀ {groups : List Group}, Rising groups →
      annotationsAt target (addToGroups o a groups)
        = annotationsAt target groups ++ if o.target = target then [a] else []
  | [], _ => rfl
  | g :: groups, rising => by
      rw [addToGroups]
      cases order : o.target.compare g.target with
      | lt =>
          by_cases here : o.target = target
          · subst here
            have none := annotationsAt_of_forall_lt (lt_of_rising rising order)
            rw [annotationsAt, none, if_pos rfl, List.nil_append]
          · simp [annotationsAt, here]
      | eq =>
          have same : o.target = g.target := LawfulEqCmp.eq_of_compare order
          by_cases here : g.target = target <;> simp [annotationsAt, same, here]
      | gt =>
          have ih := annotationsAt_addToGroups target (List.pairwise_cons.1 rising).2
          have apart : g.target ≠ o.target :=
            Target.ne_of_lt (OrientedCmp.gt_iff_lt.1 order)
          by_cases here : g.target = target
          · subst here
            simp [annotationsAt, Ne.symm apart]
          · simp [annotationsAt, here, ih]

/-- Every group has the target and the first occurrence of one that was there, or those of the added
annotation, and then no group had this target. -/
lemma of_mem_addToGroups {g : Group} : ∀ {groups : List Group}, Rising groups →
    g ∈ addToGroups o a groups → (∃ h ∈ groups, g.target = h.target ∧ g.first = h.first) ∨
      g.target = o.target ∧ g.first = o ∧ ∀ h ∈ groups, h.target ≠ o.target
  | [], _, mem => by
      cases List.mem_singleton.1 mem
      exact Or.inr ⟨rfl, rfl, by simp⟩
  | h :: groups, rising, mem => by
      rw [addToGroups] at mem
      cases order : o.target.compare h.target with
      | lt =>
          rw [order] at mem
          rcases List.mem_cons.1 mem with rfl | mem
          · have behind := lt_of_rising rising order
            exact Or.inr ⟨rfl, rfl, fun h mem => (Target.ne_of_lt (behind h mem)).symm⟩
          · exact Or.inl ⟨g, mem, rfl, rfl⟩
      | eq =>
          rw [order] at mem
          rcases List.mem_cons.1 mem with rfl | mem
          · exact Or.inl ⟨h, List.mem_cons_self, rfl, rfl⟩
          · exact Or.inl ⟨g, List.mem_cons_of_mem _ mem, rfl, rfl⟩
      | gt =>
          rw [order] at mem
          rcases List.mem_cons.1 mem with rfl | mem
          · exact Or.inl ⟨g, List.mem_cons_self, rfl, rfl⟩
          · rcases of_mem_addToGroups (List.pairwise_cons.1 rising).2 mem with
              ⟨h', mem, same⟩ | ⟨target, first, new⟩
            · exact Or.inl ⟨h', List.mem_cons_of_mem _ mem, same⟩
            · have apart := Target.ne_of_lt (OrientedCmp.gt_iff_lt.1 order)
              exact Or.inr ⟨target, first, List.forall_mem_cons.2 ⟨apart, new⟩⟩

/-- Adding an annotation keeps the groups in strictly rising order of their targets. -/
lemma Rising.addToGroups : ∀ {groups : List Group}, Rising groups →
    Rising (addToGroups o a groups)
  | [], _ => List.pairwise_singleton _ _
  | g :: groups, rising => by
      obtain ⟨first, rest⟩ := List.pairwise_cons.1 rising
      rw [DocAnnotations.addToGroups]
      cases order : o.target.compare g.target with
      | lt => exact List.pairwise_cons.2 ⟨lt_of_rising rising order, rising⟩
      | eq => exact List.pairwise_cons.2 ⟨first, rest⟩
      | gt =>
          refine List.pairwise_cons.2 ⟨fun h mem => ?_, Rising.addToGroups rest⟩
          rcases of_mem_addToGroups rest mem with ⟨h', mem, same, -⟩ | ⟨same, -, -⟩
          · rw [same]
            exact first h' mem
          · rw [same]
            exact OrientedCmp.gt_iff_lt.1 order

/-- Wherever an annotation goes, it is all that is added. -/
lemma perm_addToGroups (o : Occurrence) (a : Annotation) : ∀ groups : List Group,
    ((addToGroups o a groups).flatMap Group.annotations).Perm
      (a :: groups.flatMap Group.annotations)
  | [] => .refl _
  | g :: groups => by
      rw [addToGroups]
      cases o.target.compare g.target with
      | lt => exact .refl _
      | eq =>
          rw [List.flatMap_cons, List.flatMap_cons, List.append_assoc]
          exact List.perm_middle
      | gt =>
          rw [List.flatMap_cons, List.flatMap_cons]
          exact ((perm_addToGroups o a groups).append_left g.annotations).trans List.perm_middle

/-! ## Whole batches -/

/-- The annotations that were accepted for a member, in the order of the batch. -/
def acceptedAt (verdicts : List (Occurrence × Verdict)) (target : Target) : List Annotation :=
  verdicts.filterMap fun p => if p.1.target = target then p.2.annotation? else none

/-- Only the verdicts at the member count. -/
lemma acceptedAt_filter (verdicts : List (Occurrence × Verdict)) (target : Target) :
    acceptedAt (verdicts.filter fun p => p.1.target = target) target
      = acceptedAt verdicts target := by
  rw [acceptedAt, acceptedAt, List.filterMap_filter]
  refine List.filterMap_congr fun p _ => ?_
  by_cases here : p.1.target = target <;> simp [here]

/-- The groups of verdicts added to given groups. -/
lemma groups_foldl (target : Target) : ∀ (verdicts : List (Occurrence × Verdict))
    {groups : List Group}, Rising groups →
    let all := verdicts.foldl (fun groups (o, v) => match v with
      | .accepted a => addToGroups o a groups
      | _ => groups) groups
    Rising all
    ∧ annotationsAt target all = annotationsAt target groups ++ acceptedAt verdicts target
  | [], groups, rising => ⟨rising, by simp [acceptedAt]⟩
  | (o, v) :: verdicts, groups, rising => by
      cases v with
      | accepted a =>
          have extended : Rising (addToGroups o a groups) := rising.addToGroups
          obtain ⟨still, view⟩ := groups_foldl target verdicts extended
          refine ⟨still, ?_⟩
          rw [List.foldl_cons, view, annotationsAt_addToGroups target rising, List.append_assoc]
          by_cases here : o.target = target <;> simp [acceptedAt, here, Verdict.annotation?]
      | _ =>
          obtain ⟨still, view⟩ := groups_foldl target verdicts rising
          refine ⟨still, ?_⟩
          rw [List.foldl_cons, view]
          simp [acceptedAt, Verdict.annotation?]

variable {verdicts : List (Occurrence × Verdict)} {g : Group}

lemma rising_groupsOf (verdicts : List (Occurrence × Verdict)) : Rising (groupsOf verdicts) :=
  (groups_foldl default verdicts List.Pairwise.nil).1

/-- In the group of a target stands what was accepted at it, in the order of the verdicts. -/
lemma annotationsAt_groupsOf (verdicts : List (Occurrence × Verdict)) (target : Target) :
    annotationsAt target (groupsOf verdicts) = acceptedAt verdicts target :=
  (groups_foldl target verdicts List.Pairwise.nil).2

/-- The group of a member has exactly the annotations accepted for it. -/
theorem annotations_of_mem_groupsOf (mem : g ∈ groupsOf verdicts) :
    g.annotations = acceptedAt verdicts g.target := by
  rw [← annotationsAt_of_mem (rising_groupsOf verdicts) g mem, annotationsAt_groupsOf]

/-- The first occurrence that was accepted for a member. -/
def firstAcceptedAt (verdicts : List (Occurrence × Verdict)) (target : Target) :
    Option Occurrence :=
  (verdicts.find? fun p => p.1.target = target ∧ p.2.annotation?.isSome = true).map Prod.fst

/-- Which occurrence was first accepted at a target depends only on the verdicts at this target. -/
lemma firstAcceptedAt_filter (verdicts : List (Occurrence × Verdict)) (target : Target) :
    firstAcceptedAt (verdicts.filter fun p => p.1.target = target) target
      = firstAcceptedAt verdicts target := by
  rw [firstAcceptedAt, firstAcceptedAt, List.find?_filter]
  simp

/-- One more verdict behind the others. -/
lemma groupsOf_concat (o : Occurrence) (v : Verdict) : groupsOf (verdicts ++ [(o, v)])
    = match v with
      | .accepted a => addToGroups o a (groupsOf verdicts)
      | _ => groupsOf verdicts := by
  rw [groupsOf, List.foldl_append]
  rfl

/-- No accepted annotation is lost in the groups, and none is there twice. -/
lemma perm_groupsOf (verdicts : List (Occurrence × Verdict)) :
    ((groupsOf verdicts).flatMap Group.annotations).Perm
      (verdicts.filterMap fun p => p.2.annotation?) := by
  induction verdicts using List.reverseRecOn with
  | nil => exact .refl _
  | append_singleton verdicts p ih =>
      obtain ⟨o, v⟩ := p
      rw [groupsOf_concat, List.filterMap_append]
      cases v with
      | accepted a =>
          exact ((perm_addToGroups o a _).trans (ih.cons a)).trans
            (List.perm_append_singleton a _).symm
      | _ => simpa [Verdict.annotation?] using ih

/-- A further verdict tells which occurrence was first only if none was accepted before. -/
lemma firstAcceptedAt_concat (p : Occurrence × Verdict) :
    firstAcceptedAt (verdicts ++ [p]) target = (firstAcceptedAt verdicts target).or
      (if p.1.target = target ∧ p.2.annotation?.isSome = true then some p.1 else none) := by
  rw [firstAcceptedAt, firstAcceptedAt, List.find?_append, Option.map_or]
  by_cases here : p.1.target = target ∧ p.2.annotation?.isSome = true <;> simp [here]

/-- A member has a first accepted occurrence if and only if it has accepted annotations. -/
lemma firstAcceptedAt_eq_none_iff :
    firstAcceptedAt verdicts target = none ↔ acceptedAt verdicts target = [] := by
  rw [firstAcceptedAt, Option.map_eq_none_iff, List.find?_eq_none, acceptedAt,
    List.filterMap_eq_nil_iff]
  refine forall₂_congr fun p _ => ?_
  by_cases here : p.1.target = target <;> simp [here]

/-- The group of a member starts with the first occurrence that was accepted for it.  Only an
annotation that finds no group of its member makes one. -/
lemma first_of_mem_groupsOf : ∀ g ∈ groupsOf verdicts,
    firstAcceptedAt verdicts g.target = some g.first := by
  induction verdicts using List.reverseRecOn with
  | nil => exact fun g mem => nomatch mem
  | append_singleton verdicts p ih =>
      obtain ⟨o, v⟩ := p
      intro g mem
      rw [groupsOf_concat] at mem
      rw [firstAcceptedAt_concat]
      cases v with
      | accepted a =>
          rcases of_mem_addToGroups (rising_groupsOf verdicts) mem with
            ⟨h, there, target, first⟩ | ⟨target, first, new⟩
          · rw [target, first, ih h there, Option.some_or]
          · have absent : acceptedAt verdicts g.target = [] := by
              rw [← annotationsAt_groupsOf]
              by_contra some_
              obtain ⟨h, there, same⟩ := exists_of_annotationsAt some_
              exact new h there (same.trans target)
            rw [firstAcceptedAt_eq_none_iff.2 absent, Option.none_or]
            simp [target, first, Verdict.annotation?]
      | _ => rw [ih g mem, Option.some_or]

/-- **A group is what was accepted for its member.**  Every member with an accepted occurrence has
one. -/
theorem mem_groupsOf_iff : g ∈ groupsOf verdicts ↔
    firstAcceptedAt verdicts g.target = some g.first ∧
      g.annotations = acceptedAt verdicts g.target := by
  constructor
  · exact fun mem => ⟨first_of_mem_groupsOf g mem, annotations_of_mem_groupsOf mem⟩
  · rintro ⟨first, annotations⟩
    have some_ : annotationsAt g.target (groupsOf verdicts) ≠ [] := by
      intro none
      rw [annotationsAt_groupsOf] at none
      rw [firstAcceptedAt_eq_none_iff.2 none] at first
      cases first
    obtain ⟨h, mem, same⟩ := exists_of_annotationsAt some_
    obtain ⟨target, o, as⟩ := g
    obtain ⟨target', o', as'⟩ := h
    cases same
    have first' := first_of_mem_groupsOf _ mem
    have annotations' := annotations_of_mem_groupsOf mem
    dsimp only at first annotations first' annotations'
    rw [first] at first'
    cases first'
    rw [annotations, ← annotations']
    exact mem

end DocAnnotations
