import DocAnnotations.Proofs.Alone
import DocAnnotations.Proofs.Verdicts
import Mathlib.Data.List.Sort

/-!
# Occurrences that make no difference

The occurrences of a batch share the registry, the list of what is taken, and the groups.  Still an
occurrence that is not accepted leaves no trace but its own message, and the occurrences at one
member do not care how those at others are mixed with them.

Both follow from what is known of the single steps: outcomes do not depend on the place in the batch
(`compileOccurrences_of_comesTo`), a verdict depends on what was resolved before it, at the same
member (`judge_append`, `judge_filter`), and a group is what was accepted for its member
(`mem_groupsOf_iff`).

**`others_unaffected`** states them for whole batches.
-/

namespace DocAnnotations

open Attribute

/-! ## One occurrence less -/

/-- A report that differs from another only by an occurrence with the given verdict, which is not
that it was accepted. -/
structure Report.AddsOnly (report : Report) (o : Occurrence) (v : Verdict) (less : Report) :
    Prop where
  attributes : report.attributes = less.attributes
  accepted : report.accepted = less.accepted
  errors : ∃ before after, less.errors = before ++ after ∧
    report.errors = before ++ v.diagnostic?.toList ++ after
  infos : ∃ before after, less.infos = before ++ after ∧
    report.infos = before ++ (skipMessage? o v).toList ++ after
  summary : report.summary = { less.summary with
    occurrences := less.summary.occurrences + 1
    failed := less.summary.failed + v.diagnostic?.toList.length
    skipped := less.summary.skipped + (skipMessage? o v).toList.length }

variable {o : Occurrence} {v : Verdict} {outcome : Outcome}
  {before after : List (Occurrence × Outcome)} {verdicts verdicts' : List (Occurrence × Verdict)}

/-- A verdict without an annotation leaves the groups as they are without it. -/
lemma groupsOf_without (first : List (Occurrence × Verdict)) (none : v.annotation? = none) :
    groupsOf (first ++ (o, v) :: verdicts) = groupsOf (first ++ verdicts) := by
  rw [groupsOf, groupsOf, List.foldl_append, List.foldl_append, List.foldl_cons]
  cases v with
  | accepted a => cases none
  | _ => rfl

/-- One more item adds to what is kept of a list what is kept of the item, at its place. -/
lemma filterMap_insert {α β : Type} (f : α → Option β) (xs : List α) (x : α) (ys : List α) :
    (xs ++ x :: ys).filterMap f = xs.filterMap f ++ (f x).toList ++ ys.filterMap f := by
  rw [List.filterMap_append, List.filterMap_cons, List.append_assoc]
  cases f x <;> rfl

/-- A verdict without an annotation adds to a report its own diagnostic and count, and nothing
else. -/
lemma addsOnly_ofVerdicts (first : List (Occurrence × Verdict)) (none : v.annotation? = none) :
    (Report.ofVerdicts (first ++ (o, v) :: verdicts)).AddsOnly o v
      (Report.ofVerdicts (first ++ verdicts)) := by
  have groups : groupsOf (first ++ (o, v) :: verdicts) = groupsOf (first ++ verdicts) :=
    groupsOf_without first none
  have accepted : (first ++ (o, v) :: verdicts).filterMap (fun p => p.2.annotation?)
      = (first ++ verdicts).filterMap fun p => p.2.annotation? := by
    rw [filterMap_insert, none, Option.toList_none, List.append_nil, List.filterMap_append]
  have failures := filterMap_insert (fun p => p.2.diagnostic?) first (o, v) verdicts
  have infos := filterMap_insert (fun p => skipMessage? p.1 p.2) first (o, v) verdicts
  constructor
  case attributes => simp only [Report.ofVerdicts, groups]
  case accepted => exact accepted
  case errors =>
    refine ⟨first.filterMap fun p => p.2.diagnostic?, (verdicts.filterMap fun p => p.2.diagnostic?)
      ++ (groupsOf (first ++ verdicts)).filterMap Group.diagnostic?, ?_, ?_⟩
    · simp only [Report.ofVerdicts, List.filterMap_append, List.append_assoc]
    · simp only [Report.ofVerdicts, groups, failures, List.append_assoc]
  case infos =>
    exact ⟨_, _, List.filterMap_append, infos⟩
  case summary =>
    simp only [Report.ofVerdicts, groups, accepted, failures, infos, List.filterMap_append,
      List.length_append, List.length_cons, Summary.mk.injEq, true_and]
    refine ⟨?_, ?_, ?_, trivial⟩ <;> omega

/-- The verdicts around one occurrence. -/
lemma judge_around (before after : List (Occurrence × Outcome)) (o : Occurrence)
    (outcome : Outcome) : judge [] (before ++ (o, outcome) :: after)
      = judge [] before ++ (o, outcome.verdict (resolvedOf before) o)
        :: judge (takenOf (resolvedOf (before ++ [(o, outcome)]))) after := by
  rw [← List.singleton_append, ← List.append_assoc, judge_append, List.append_nil, judge_concat,
    List.append_assoc, List.singleton_append]

/-- An occurrence that is not accepted makes no difference to the verdicts behind it. -/
lemma judge_behind (none : (outcome.verdict (resolvedOf before) o).annotation? = none) :
    judge (takenOf (resolvedOf (before ++ [(o, outcome)]))) after
      = judge (takenOf (resolvedOf before)) after := by
  refine judge_congr after fun p _ name => ?_
  rw [resolvedOf_concat]
  cases outcome with
  | resolved a =>
      by_cases repeated : Repeats (resolvedOf before) (o, a)
      · have there := mem_takenOf_iff.2 repeated
        rw [Outcome.annotation?, Option.map_some, Option.toList_some, takenOf, List.map_append,
          ← takenOf, List.mem_append, List.map_singleton, List.mem_singleton]
        exact or_iff_left_of_imp fun same => same ▸ there
      · rw [Outcome.verdict, if_neg repeated] at none
        cases none
  | _ => simp [Outcome.annotation?]

/-- The report without an occurrence that is not accepted. -/
lemma addsOnly_judge (judged : (judge [] (before ++ (o, outcome) :: after))[before.length]?
    = some (o, v)) (none : v.annotation? = none) :
    (Report.ofVerdicts (judge [] (before ++ (o, outcome) :: after))).AddsOnly o v
      (Report.ofVerdicts (judge [] (before ++ after))) := by
  rw [judge_around] at judged ⊢
  rw [← length_judge before [], List.getElem?_append_right le_rfl, Nat.sub_self,
    List.getElem?_cons_zero, Option.some.injEq, Prod.mk.injEq] at judged
  obtain ⟨-, rfl⟩ := judged
  rw [judge_behind none, judge_append, List.append_nil]
  exact addsOnly_ofVerdicts _ none

/-! ## Other orders -/

/-- Two lists have the same items for each member, in the same order. -/
def SameByMember {α : Type} (target : α → Target) (xs ys : List α) : Prop :=
  ∀ t, (xs.filter fun x => target x = t) = ys.filter fun x => target x = t

namespace SameByMember

variable {α β : Type} {target : α → Target} {xs ys : List α}

/-- Such lists are permutations of each other. -/
lemma perm (same : SameByMember target xs ys) : xs.Perm ys := by
  classical
  refine List.perm_iff_count.2 fun x => ?_
  have here := congrArg (List.count x) (same (target x))
  rwa [List.count_filter (by simp), List.count_filter (by simp)] at here

/-- Lists that are alike by member stay so under a map that leaves the members alone. -/
lemma map {f : α → β} {target' : β → Target} (same : SameByMember target xs ys)
    (keeps : ∀ x, target' (f x) = target x) : SameByMember target' (xs.map f) (ys.map f) := by
  intro t
  have moved : ∀ zs : List α, (zs.map f).filter (fun z => target' z = t)
      = (zs.filter fun z => target z = t).map f := by
    intro zs
    rw [List.filter_map]
    simp only [Function.comp_def, keeps]
  rw [moved, moved, same t]

end SameByMember

/-- Mixing members in another order mixes the verdicts in the same way. -/
lemma SameByMember.judge {outcomes outcomes' : List (Occurrence × Outcome)}
    (same : SameByMember (fun p => p.1.target) outcomes outcomes') :
    SameByMember (fun p => p.1.target) (judge [] outcomes) (DocAnnotations.judge [] outcomes') := by
  intro t
  rw [← judge_filter, ← judge_filter, same t]

section

variable (same : SameByMember (fun p => p.1.target) verdicts verdicts')

include same

/-- The groups do not depend on the order of the members. -/
lemma groupsOf_of_sameByMember : groupsOf verdicts = groupsOf verdicts' := by
  have mem : ∀ g, g ∈ groupsOf verdicts ↔ g ∈ groupsOf verdicts' := by
    intro g
    rw [mem_groupsOf_iff, mem_groupsOf_iff, ← firstAcceptedAt_filter, ← acceptedAt_filter,
      same g.target, firstAcceptedAt_filter, acceptedAt_filter]
  have distinct : ∀ {groups : List Group}, Rising groups → groups.Nodup := fun rising =>
    rising.imp fun below same => Target.ne_of_lt below (congrArg Group.target same)
  have perm : (groupsOf verdicts).Perm (groupsOf verdicts') :=
    (List.perm_ext_iff_of_nodup (distinct (rising_groupsOf _)) (distinct (rising_groupsOf _))).2 mem
  refine perm.eq_of_pairwise (fun g h _ _ below above => ?_) (rising_groupsOf _) (rising_groupsOf _)
  rw [Std.OrientedCmp.gt_iff_lt.2 above] at below
  cases below

/-- Neither do the attributes and the counts. -/
lemma report_of_sameByMember :
    (Report.ofVerdicts verdicts).attributes = (Report.ofVerdicts verdicts').attributes ∧
      (Report.ofVerdicts verdicts).summary = (Report.ofVerdicts verdicts').summary := by
  have groups := groupsOf_of_sameByMember same
  have counts : ∀ {β : Type} (f : Occurrence × Verdict → Option β),
      (verdicts.filterMap f).length = (verdicts'.filterMap f).length :=
    fun f => (same.perm.filterMap f).length_eq
  constructor
  · simp only [Report.ofVerdicts, groups]
  · simp only [Report.ofVerdicts, groups, counts, same.perm.length_eq]

end

/-! ## Whole batches -/

/-- **Occurrences that make no difference.**  A batch whose literals do not stop it, and for which
loading defaults ends, succeeds with any registry.  Without any one of the occurrences that were not
accepted it attaches and accepts the same, and says the same but for the message about this
occurrence.  With its members mixed in any other way it attaches the same and counts the same. -/
theorem others_unaffected (l : Loader) (r : Registry) (occurrences : List Occurrence)
    (compiles : ∀ o ∈ occurrences, l.Compiles o.literal)
    (ends : ∀ o ∈ occurrences, l.Ends r o.literal) :
    ∃ outcomes report r', compileOccurrences l [] occurrences r = .ok outcomes r'
      ∧ compileBatch l occurrences r = .ok report r'
      ∧ (∀ before o after v, occurrences = before ++ o :: after →
        (judge [] outcomes)[before.length]? = some (o, v) → v.annotation? = none →
        ∃ less r'', compileBatch l (before ++ after) r = .ok less r'' ∧ report.AddsOnly o v less)
      ∧ ∀ mixed, SameByMember Occurrence.target occurrences mixed →
        ∃ other r'', compileBatch l mixed r = .ok other r''
          ∧ other.attributes = report.attributes ∧ other.summary = report.summary := by
  have alone : ∀ o ∈ occurrences, ∃ outcome, l.ComesTo r o outcome ∧ outcome.FailsAlone :=
    fun o mem => exists_comesTo (compiles o mem) (ends o mem)
  have : Nonempty Outcome := ⟨.unknownName ""⟩
  choose! f comesTo _ using alone
  -- Whatever occurrences of the batch are compiled, in whatever order, `f` tells their outcomes.
  have compiled : ∀ os : List Occurrence, (∀ o ∈ os, o ∈ occurrences) →
      ∃ r', compileOccurrences l [] os r = .ok (os.map fun o => (o, f o)) r' :=
    fun os inside => compileOccurrences_of_comesTo os [] (fun o mem => comesTo o (inside o mem))
      (l.coherent_self r)
  obtain ⟨r', ran⟩ := compiled occurrences fun _ mem => mem
  refine ⟨_, _, r', ran, compileBatch_of_outcomes ran, ?_, ?_⟩
  · rintro before o after v rfl judged none
    obtain ⟨r'', ran'⟩ := compiled (before ++ after) fun o' mem => by
      rcases List.mem_append.1 mem with mem | mem
      · exact List.mem_append_left _ mem
      · exact List.mem_append_right _ (List.mem_cons_of_mem _ mem)
    rw [List.map_append, List.map_cons] at judged ⊢
    rw [List.map_append] at ran'
    refine ⟨_, r'', compileBatch_of_outcomes ran', addsOnly_judge ?_ none⟩
    rwa [List.length_map]
  · intro mixed same
    obtain ⟨r'', ran'⟩ := compiled mixed fun o mem => same.perm.mem_iff.2 mem
    refine ⟨_, r'', compileBatch_of_outcomes ran', ?_⟩
    have outcomes : SameByMember (fun p => p.1.target) (occurrences.map fun o => (o, f o))
        (mixed.map fun o => (o, f o)) := same.map fun _ => rfl
    obtain ⟨attributes, summary⟩ := report_of_sameByMember outcomes.judge
    exact ⟨attributes.symm, summary.symm⟩

/-- Without the point that was dropped, and with the shape in front, the batch attaches the same. -/
theorem others_unaffected_repeatedBatch :
    let l := sampleIndex.loader ⟨0⟩
    ∃ report r', compileBatch l repeatedBatch .empty = .ok report r'
      ∧ (∃ less r'', compileBatch l (repeatedBatch.take 2) .empty = .ok less r''
        ∧ report.attributes = less.attributes
        ∧ report.summary.failed = less.summary.failed + 1)
      ∧ ∃ other r'', compileBatch l ((repeatedBatch.take 2).reverse ++ repeatedBatch.drop 2) .empty
          = .ok other r''
        ∧ other.attributes = report.attributes ∧ other.summary = report.summary := by
  intro l
  have lexed : ∀ o ∈ repeatedBatch, (tokenize o.literal).isOk = true := by decide +kernel
  have ends : l.DefaultsEnd := defaultsEnd_of_ofSchema ofSchema_sampleSchema ⟨0⟩
  obtain ⟨outcomes, report, r', ran, compiled, without, mixed⟩ :=
    others_unaffected l .empty repeatedBatch (fun o mem => .of_isOk (lexed o mem))
      fun o _ => ends.ends .empty o.literal
  have checked : (returned (compileOccurrences l [] repeatedBatch .empty)).map (fun outcomes =>
      (judge [] outcomes)[2]?.map fun p =>
        (p.1, p.2.annotation?.isNone, p.2.diagnostic?.toList.length))
      = some (repeatedBatch[2]?.map fun o => (o, true, 1)) := by
    decide +kernel
  rw [ran] at checked
  obtain ⟨⟨o, v⟩, judged, dropped⟩ := Option.map_eq_some_iff.1 (Option.some.inj checked)
  simp only [Prod.mk.injEq, Option.isNone_iff_eq_none] at dropped
  obtain ⟨rfl, none, one⟩ := dropped
  refine ⟨report, r', compiled, ?_, mixed _ ?_⟩
  · obtain ⟨less, r'', ran', only⟩ := without (repeatedBatch.take 2) _ [] v rfl judged none
    refine ⟨less, r'', ran', only.attributes, ?_⟩
    rw [only.summary, one]
  · intro t
    by_cases point : (⟨"p.C", .wholeClass⟩ : Target) = t
    · subst point
      decide
    · by_cases shape : (⟨"p.C", .field "f"⟩ : Target) = t
      · subst shape
        decide
      · simp [repeatedBatch, Occurrence.target, point, shape]

end DocAnnotations
