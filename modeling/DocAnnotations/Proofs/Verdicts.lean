import DocAnnotations.Proofs.Alone
import DocAnnotations.Proofs.Groups
import DocAnnotations.Proofs.Resolved
import Mathlib.Data.List.Infix

/-!
# What a batch attaches

Two resolved annotations of one type at one member stand in each other's way, and the first of them
is kept.  The compiler finds this out with a list of what it has taken, and gathers what it keeps in
groups that grow one by one.  Here the same is said of the occurrences as they stand: an annotation
`Repeats` an earlier one or it does not, a member has the annotations `keptAt` it.

**Parts of a batch.**  `judge_append` takes verdicts apart between any two occurrences, and
`judge_filter` takes those of one member out of a batch.

**Kept and dropped.**  By induction from the last occurrence, what is accepted is what is kept
(`acceptedAt_judge`), the first accepted occurrence of a member is its first resolved one
(`firstAcceptedAt_judge`), and the messages about repeated annotations are those about the dropped
ones (`duplicates_judge`).

**Members.**  The attribute and the diagnostic of a group are given by what is kept at its member
(`attribute?_of_mem_groupsOf`, `diagnostic?_of_mem_groupsOf`).

**`attributes_of_compiles`**: a batch that nothing stops attaches to each member with a resolved
annotation what is kept for the member, in the order of the members.  All messages about repeated
annotations and about members that cannot be written are told as well, with the occurrences at which
they stand.
-/

namespace DocAnnotations

open Attribute

/-! ## Judging a part of a batch -/

/-- The annotation that a literal was resolved to. -/
def Outcome.annotation? : Outcome → Option Annotation
  | resolved a => some a
  | _ => none

/-- The occurrences that were resolved, with their annotations. -/
def resolvedOf (outcomes : List (Occurrence × Outcome)) : List (Occurrence × Annotation) :=
  outcomes.filterMap fun p => p.2.annotation?.map (p.1, ·)

/-- The members and types of resolved annotations. -/
def takenOf (resolved : List (Occurrence × Annotation)) : List (Target × String) :=
  resolved.map fun p => (p.1.target, p.2.typeName)

/-- An annotation repeats an earlier one: they are of one type and stand at one member. -/
def Repeats (earlier : List (Occurrence × Annotation)) (p : Occurrence × Annotation) : Prop :=
  ∃ q ∈ earlier, q.1.target = p.1.target ∧ q.2.typeName = p.2.typeName

instance (earlier : List (Occurrence × Annotation)) (p : Occurrence × Annotation) :
    Decidable (Repeats earlier p) :=
  inferInstanceAs (Decidable (∃ q ∈ earlier, _))

variable {outcomes : List (Occurrence × Outcome)} {earlier : List (Occurrence × Annotation)}
  {o : Occurrence} {outcome : Outcome} {a : Annotation} {target : Target}

/-- A pair of a target and an interface is taken if and only if an annotation with it would be a
repetition. -/
lemma mem_takenOf_iff : (o.target, a.typeName) ∈ takenOf earlier ↔ Repeats earlier (o, a) := by
  simp [takenOf, Repeats]

lemma length_judge : ∀ (outcomes : List (Occurrence × Outcome)) (taken : List (Target × String)),
    (judge taken outcomes).length = outcomes.length
  | [], _ => rfl
  | (o, .resolved a) :: outcomes, taken => by
      rw [judge]
      split_ifs <;> rw [List.length_cons, List.length_cons, length_judge outcomes]
  | (o, .unknownName name) :: outcomes, taken => by
      rw [judge, List.length_cons, List.length_cons, length_judge outcomes]
  | (o, .failed d) :: outcomes, taken => by
      rw [judge, List.length_cons, List.length_cons, length_judge outcomes]

/-- Only what is taken at the members of the occurrences counts. -/
lemma judge_congr : ∀ (outcomes : List (Occurrence × Outcome))
    {taken taken' : List (Target × String)},
    (∀ p ∈ outcomes, ∀ name, (p.1.target, name) ∈ taken ↔ (p.1.target, name) ∈ taken') →
    judge taken outcomes = judge taken' outcomes
  | [], _, _, _ => rfl
  | (o, outcome) :: outcomes, taken, taken', same => by
      obtain ⟨here, rest⟩ := List.forall_mem_cons.1 same
      cases outcome with
      | resolved a =>
          have more : judge ((o.target, a.typeName) :: taken) outcomes
              = judge ((o.target, a.typeName) :: taken') outcomes :=
            judge_congr outcomes fun p hp name => by
              rw [List.mem_cons, List.mem_cons, rest p hp name]
          simp only [judge, List.contains_iff_mem, here a.typeName, judge_congr outcomes rest, more]
      | unknownName name => rw [judge, judge, judge_congr outcomes rest]
      | failed d => rw [judge, judge, judge_congr outcomes rest]

/-- Behind some occurrences what they were resolved to is taken, whether it was kept or not. -/
theorem judge_append (more : List (Occurrence × Outcome)) :
    ∀ (outcomes : List (Occurrence × Outcome)) (taken : List (Target × String)),
    judge taken (outcomes ++ more)
      = judge taken outcomes ++ judge (takenOf (resolvedOf outcomes) ++ taken) more
  | [], _ => rfl
  | (o, .resolved a) :: outcomes, taken => by
      have all : takenOf (resolvedOf ((o, .resolved a) :: outcomes))
          = (o.target, a.typeName) :: takenOf (resolvedOf outcomes) := rfl
      rw [List.cons_append, judge, judge]
      split_ifs with repeated
      · rw [judge_append more outcomes taken, List.cons_append]
        congr 2
        refine judge_congr more fun p _ name => ?_
        rw [List.contains_iff_mem] at repeated
        rw [all]
        simp only [List.mem_append, List.mem_cons]
        grind
      · rw [judge_append more outcomes, List.cons_append]
        congr 2
        refine judge_congr more fun p _ name => ?_
        rw [all]
        simp only [List.mem_append, List.mem_cons]
        tauto
  | (o, .unknownName name) :: outcomes, taken => by
      rw [List.cons_append, judge, judge, judge_append more outcomes taken, List.cons_append]
      rfl
  | (o, .failed d) :: outcomes, taken => by
      rw [List.cons_append, judge, judge, judge_append more outcomes taken, List.cons_append]
      rfl

/-- The occurrences at one member are judged like a batch of their own. -/
theorem judge_filter (target : Target) :
    ∀ (outcomes : List (Occurrence × Outcome)) (taken : List (Target × String)),
    judge taken (outcomes.filter fun p => p.1.target = target)
      = (judge taken outcomes).filter fun p => p.1.target = target
  | [], _ => rfl
  | (o, outcome) :: outcomes, taken => by
      have ih := judge_filter target outcomes
      by_cases here : o.target = target
      · rw [List.filter_cons_of_pos (by simpa using here)]
        cases outcome with
        | resolved a =>
            rw [judge, judge]
            split_ifs <;> rw [List.filter_cons_of_pos (by simpa using here), ih]
        | _ => rw [judge, judge, List.filter_cons_of_pos (by simpa using here), ih]
      · rw [List.filter_cons_of_neg (by simpa using here)]
        cases outcome with
        | resolved a =>
            rw [judge]
            split_ifs
            · rw [List.filter_cons_of_neg (by simpa using here), ih]
            · rw [List.filter_cons_of_neg (by simpa using here), ← ih]
              refine judge_congr _ fun p mem name => ?_
              have there : p.1.target = target := of_decide_eq_true (List.mem_filter.1 mem).2
              rw [List.mem_cons, Prod.mk.injEq, there, or_iff_right fun same => here same.1.symm]
        | _ => rw [judge, List.filter_cons_of_neg (by simpa using here), ih]

/-- The verdict on an occurrence behind resolved ones. -/
def Outcome.verdict (earlier : List (Occurrence × Annotation)) (o : Occurrence) :
    Outcome → Verdict
  | resolved a =>
    if Repeats earlier (o, a) then .failed (.ofDuplicate o a.typeName) else .accepted a
  | unknownName name => .skipped name
  | failed d => .failed d

/-- One more occurrence behind the others. -/
lemma judge_concat (outcomes : List (Occurrence × Outcome)) (o : Occurrence) (outcome : Outcome) :
    judge [] (outcomes ++ [(o, outcome)])
      = judge [] outcomes ++ [(o, outcome.verdict (resolvedOf outcomes) o)] := by
  rw [judge_append, List.append_nil]
  cases outcome with
  | resolved a =>
      by_cases repeated : Repeats (resolvedOf outcomes) (o, a)
      · simp [judge, Outcome.verdict, repeated, mem_takenOf_iff]
      · simp [judge, Outcome.verdict, repeated, mem_takenOf_iff]
  | unknownName name => rfl
  | failed d => rfl

/-- A further occurrence adds what it was resolved to, if it was. -/
lemma resolvedOf_concat (outcomes : List (Occurrence × Outcome)) (o : Occurrence)
    (outcome : Outcome) : resolvedOf (outcomes ++ [(o, outcome)])
      = resolvedOf outcomes ++ (outcome.annotation?.map (o, ·)).toList := by
  rw [resolvedOf, List.filterMap_append]
  cases outcome <;> rfl

/-! ## What is kept and what is dropped -/

/-- The items of a list, each with those before it. -/
def withEarlier {α : Type} (xs : List α) : List (List α × α) := xs.inits.zip xs

/-- The last item has all others before it. -/
lemma withEarlier_concat {α : Type} (xs : List α) (x : α) :
    withEarlier (xs ++ [x]) = withEarlier xs ++ [(xs, x)] := by
  induction xs with
  | nil => rfl
  | cons y xs ih =>
      unfold withEarlier at ih ⊢
      rw [List.cons_append, List.inits_cons, List.inits_cons, List.zip_cons_cons,
        List.zip_cons_cons, List.zip_map_left, List.zip_map_left, ih, List.map_append,
        List.cons_append]
      rfl

/-- The annotations of a member that repeat none before them, in the order of the batch. -/
def keptAt (outcomes : List (Occurrence × Outcome)) (target : Target) : List Annotation :=
  (withEarlier (resolvedOf outcomes)).filterMap fun (earlier, p) =>
    if p.1.target = target ∧ ¬ Repeats earlier p then some p.2 else none

/-- The annotations that repeat one before them. -/
def droppedOf (outcomes : List (Occurrence × Outcome)) : List (Occurrence × Annotation) :=
  (withEarlier (resolvedOf outcomes)).filterMap fun (earlier, p) =>
    if Repeats earlier p then some p else none

/-- The first occurrence at a member that was resolved. -/
def firstAt (outcomes : List (Occurrence × Outcome)) (target : Target) : Option Occurrence :=
  ((resolvedOf outcomes).find? fun p => p.1.target = target).map Prod.fst

/-- What is accepted is what is kept. -/
lemma acceptedAt_judge (outcomes : List (Occurrence × Outcome)) (target : Target) :
    acceptedAt (judge [] outcomes) target = keptAt outcomes target := by
  induction outcomes using List.reverseRecOn with
  | nil => rfl
  | append_singleton outcomes p ih =>
      obtain ⟨o, outcome⟩ := p
      rw [judge_concat, acceptedAt, List.filterMap_append, ← acceptedAt, ih, keptAt, keptAt,
        resolvedOf_concat]
      cases outcome with
      | resolved a =>
          rw [Outcome.annotation?, Option.map_some, Option.toList_some, withEarlier_concat,
            List.filterMap_append, Outcome.verdict]
          congr 1
          by_cases repeated : Repeats (resolvedOf outcomes) (o, a)
          · simp [repeated, Verdict.annotation?]
          · by_cases here : o.target = target <;> simp [repeated, here, Verdict.annotation?]
      | unknownName name =>
          simp [Outcome.annotation?, Outcome.verdict, Verdict.annotation?]
      | failed d =>
          simp [Outcome.annotation?, Outcome.verdict, Verdict.annotation?]

/-- A member has a resolved occurrence if it has one that others repeat. -/
lemma firstAt_ne_none_of_repeats (repeated : Repeats (resolvedOf outcomes) (o, a)) :
    firstAt outcomes o.target ≠ none := by
  obtain ⟨q, mem, same, -⟩ := repeated
  rw [firstAt, Ne, Option.map_eq_none_iff, List.find?_eq_none]
  exact fun none => none q mem (decide_eq_true same)

/-- The first accepted occurrence is the first resolved one. -/
lemma firstAcceptedAt_judge (outcomes : List (Occurrence × Outcome)) (target : Target) :
    firstAcceptedAt (judge [] outcomes) target = firstAt outcomes target := by
  induction outcomes using List.reverseRecOn with
  | nil => rfl
  | append_singleton outcomes p ih =>
      obtain ⟨o, outcome⟩ := p
      have last : firstAt (outcomes ++ [(o, outcome)]) target = (firstAt outcomes target).or
          (((outcome.annotation?.map (o, ·)).toList.find? fun p => p.1.target = target).map
            Prod.fst) := by
        rw [firstAt, resolvedOf_concat, List.find?_append, Option.map_or, ← firstAt]
      rw [judge_concat, firstAcceptedAt_concat, ih, last]
      cases outcome with
      | resolved a =>
          by_cases here : o.target = target
          · subst here
            by_cases repeated : Repeats (resolvedOf outcomes) (o, a)
            · obtain ⟨first, there⟩ :=
                Option.ne_none_iff_exists'.1 (firstAt_ne_none_of_repeats repeated)
              rw [there, Option.some_or, Option.some_or]
            · simp [repeated, Outcome.annotation?, Outcome.verdict, Verdict.annotation?]
          · simp [here, Outcome.annotation?]
      | unknownName name => simp [Outcome.annotation?, Outcome.verdict, Verdict.annotation?]
      | failed d => simp [Outcome.annotation?, Outcome.verdict, Verdict.annotation?]

/-- The diagnostics of single occurrences, in the order of the batch. -/
def failuresOf (verdicts : List (Occurrence × Verdict)) : List Diagnostic :=
  verdicts.filterMap fun p => p.2.diagnostic?

/-- No single occurrence is said to be unencodable. -/
lemma code_of_mem_failuresOf {d : Diagnostic} (alone : ∀ p ∈ outcomes, p.2.FailsAlone)
    (mem : d ∈ failuresOf (judge [] outcomes)) : d.code ≠ .encodeError := by
  induction outcomes using List.reverseRecOn with
  | nil => cases mem
  | append_singleton outcomes p ih =>
      obtain ⟨o, outcome⟩ := p
      obtain ⟨before, last⟩ := List.forall_mem_append.1 alone
      rw [judge_concat, failuresOf, List.filterMap_append, ← failuresOf] at mem
      rcases List.mem_append.1 mem with mem | mem
      · exact ih before mem
      · cases outcome with
        | resolved a =>
            by_cases repeated : Repeats (resolvedOf outcomes) (o, a)
            · simp only [Outcome.verdict, if_pos repeated] at mem
              cases List.mem_singleton.1 mem
              nofun
            · simp [Outcome.verdict, if_neg repeated, Verdict.diagnostic?] at mem
        | unknownName name => cases mem
        | failed d' =>
            cases List.mem_singleton.1 mem
            rcases last _ List.mem_cons_self d rfl with h | h <;> simp [h]

/-- Every dropped annotation has one diagnostic, at its own place. -/
lemma duplicates_judge (outcomes : List (Occurrence × Outcome))
    (alone : ∀ p ∈ outcomes, p.2.FailsAlone) :
    (failuresOf (judge [] outcomes)).filter (·.code = .duplicate)
      = (droppedOf outcomes).map fun p => .ofDuplicate p.1 p.2.typeName := by
  induction outcomes using List.reverseRecOn with
  | nil => rfl
  | append_singleton outcomes p ih =>
      obtain ⟨o, outcome⟩ := p
      obtain ⟨before, last⟩ := List.forall_mem_append.1 alone
      have fails := last _ List.mem_cons_self
      rw [judge_concat, failuresOf, List.filterMap_append, ← failuresOf, List.filter_append,
        ih before, droppedOf, droppedOf, resolvedOf_concat]
      cases outcome with
      | resolved a =>
          simp only [Outcome.annotation?, Option.map_some, Option.toList_some, withEarlier_concat,
            List.filterMap_append, List.map_append, Outcome.verdict]
          by_cases repeated : Repeats (resolvedOf outcomes) (o, a)
          · simp [repeated, Verdict.diagnostic?, Diagnostic.ofDuplicate, Diagnostic.ofOccurrence]
          · simp [repeated, Verdict.diagnostic?]
      | unknownName name =>
          simp [Outcome.annotation?, Outcome.verdict, Verdict.diagnostic?]
      | failed d =>
          have other : d.code ≠ .duplicate := by
            rcases fails d rfl with h | h <;> simp [h]
          simp [Outcome.annotation?, Outcome.verdict, Verdict.diagnostic?, other]

/-! ## Members -/

/-- The attribute of a member, unless what is kept for it cannot be written. -/
def attributeAt (outcomes : List (Occurrence × Outcome)) (target : Target) :
    Option MemberAttribute :=
  match memberBytes (keptAt outcomes target) with
  | .ok bytes => some ⟨target, bytes⟩
  | .error _ => none

/-- The diagnostic of a member for which what is kept cannot be written, at its first resolved
occurrence. -/
def encodeErrorAt (outcomes : List (Occurrence × Outcome)) (target : Target) :
    Option Diagnostic :=
  match memberBytes (keptAt outcomes target) with
  | .ok _ => none
  | .error e => (firstAt outcomes target).map fun first => .ofEncodeError first e

/-- What is kept at a member depends on nothing but the outcomes at this member. -/
lemma keptAt_filter (outcomes : List (Occurrence × Outcome)) (target : Target) :
    keptAt (outcomes.filter fun p => p.1.target = target) target = keptAt outcomes target := by
  rw [← acceptedAt_judge, ← acceptedAt_judge, judge_filter, acceptedAt_filter]

/-- The members that have groups. -/
def membersOf (outcomes : List (Occurrence × Outcome)) : List Target :=
  (groupsOf (judge [] outcomes)).map Group.target

/-- The members stand in strictly rising order. -/
lemma pairwise_membersOf (outcomes : List (Occurrence × Outcome)) :
    (membersOf outcomes).Pairwise fun s t => s.compare t = .lt :=
  List.pairwise_map.2 (rising_groupsOf _)

/-- The members that have groups are those with resolved occurrences. -/
lemma mem_membersOf_iff : target ∈ membersOf outcomes ↔ (firstAt outcomes target).isSome := by
  rw [membersOf, List.mem_map, ← firstAcceptedAt_judge, Option.isSome_iff_exists]
  constructor
  · rintro ⟨g, mem, rfl⟩
    exact ⟨g.first, first_of_mem_groupsOf g mem⟩
  · rintro ⟨first, found⟩
    exact ⟨⟨target, first, acceptedAt (judge [] outcomes) target⟩,
      mem_groupsOf_iff.2 ⟨found, rfl⟩, rfl⟩

section

variable {g : Group} (mem : g ∈ groupsOf (judge [] outcomes))

include mem

/-- The bytes of a group are written from what was kept at its target. -/
lemma encoded_of_mem_groupsOf : g.encoded = memberBytes (keptAt outcomes g.target) := by
  rw [Group.encoded, annotations_of_mem_groupsOf mem, acceptedAt_judge]

lemma attribute?_of_mem_groupsOf : g.attribute? = attributeAt outcomes g.target := by
  have encoded := encoded_of_mem_groupsOf mem
  cases written : memberBytes (keptAt outcomes g.target) with
  | ok bytes => simp only [Group.attribute?, attributeAt, encoded, written]
  | error e => simp only [Group.attribute?, attributeAt, encoded, written]

lemma diagnostic?_of_mem_groupsOf : g.diagnostic? = encodeErrorAt outcomes g.target := by
  have first := first_of_mem_groupsOf g mem
  rw [firstAcceptedAt_judge] at first
  rw [Group.diagnostic?, encoded_of_mem_groupsOf mem, encodeErrorAt, first]
  cases memberBytes (keptAt outcomes g.target) <;> rfl

end

/-- Nothing but unencodable members is reported about members. -/
lemma code_of_encodeErrorAt {d : Diagnostic} (found : encodeErrorAt outcomes target = some d) :
    d.code = .encodeError := by
  rw [encodeErrorAt] at found
  split at found
  · cases found
  · obtain ⟨first, -, rfl⟩ := Option.map_eq_some_iff.1 found
    rfl

/-! ## Places of messages -/

/-- A diagnostic says where an occurrence stands: class, file, line and member. -/
def Diagnostic.LocatedAt (d : Diagnostic) (o : Occurrence) : Prop :=
  d.className = o.className ∧ d.file = o.file ∧ d.line = o.line ∧ d.member = o.member

lemma locatedAt_ofOccurrence (o : Occurrence) (code : DiagnosticCode) (interface : Option String)
    (message : String) : (Diagnostic.ofOccurrence o code interface message).LocatedAt o :=
  ⟨rfl, rfl, rfl, rfl⟩

/-- What is said about a member that cannot be written is said at its first resolved occurrence. -/
lemma locatedAt_of_encodeErrorAt {d : Diagnostic} (found : encodeErrorAt outcomes target = some d) :
    ∃ first, firstAt outcomes target = some first ∧ d.LocatedAt first := by
  rw [encodeErrorAt] at found
  split at found
  · cases found
  · obtain ⟨first, here, rfl⟩ := Option.map_eq_some_iff.1 found
    exact ⟨first, here, locatedAt_ofOccurrence _ _ _ _⟩

/-! ## Reports -/

/-- The report on outcomes. -/
def reportOn (outcomes : List (Occurrence × Outcome)) : Report := .ofVerdicts (judge [] outcomes)

/-- The attributes of a report are those of its members, in their order. -/
lemma attributes_reportOn (outcomes : List (Occurrence × Outcome)) :
    (reportOn outcomes).attributes = (membersOf outcomes).filterMap (attributeAt outcomes) := by
  rw [membersOf, List.filterMap_map]
  exact List.filterMap_congr fun g mem => attribute?_of_mem_groupsOf mem

/-- The errors of a report are the failures of its occurrences, followed by those of members that
cannot be written. -/
lemma errors_reportOn (outcomes : List (Occurrence × Outcome)) :
    (reportOn outcomes).errors = failuresOf (judge [] outcomes)
      ++ (membersOf outcomes).filterMap (encodeErrorAt outcomes) := by
  rw [membersOf, List.filterMap_map]
  exact congrArg _ (List.filterMap_congr fun g mem => diagnostic?_of_mem_groupsOf mem)

/-- Errors of writing have one code, so that a selection by code takes all or none of them. -/
lemma filter_encodeErrors {targets : List Target} (code : DiagnosticCode) :
    (targets.filterMap (encodeErrorAt outcomes)).filter (·.code = code)
      = if code = .encodeError then targets.filterMap (encodeErrorAt outcomes) else [] := by
  split_ifs with same
  · refine List.filter_eq_self.2 fun d mem => ?_
    obtain ⟨target, -, found⟩ := List.mem_filterMap.1 mem
    simp [same, code_of_encodeErrorAt found]
  · refine List.filter_eq_nil_iff.2 fun d mem => ?_
    obtain ⟨target, -, found⟩ := List.mem_filterMap.1 mem
    simp [code_of_encodeErrorAt found, Ne.symm same]

/-- **What a batch attaches.**  A batch whose literals do not stop it, and for which loading
defaults ends, succeeds with any registry, and each of its occurrences comes to what it comes to
alone.  Its attributes are those of the members with a resolved occurrence, in the order of the
members, each with the bytes of what is kept at the member.  Every annotation that was dropped has
one diagnostic, with its own class, file, line and member, and every member that cannot be written
has one, with those of its first resolved occurrence.  Other members make no difference to any of
them. -/
theorem attributes_of_compiles (l : Loader) (r : Registry) (occurrences : List Occurrence)
    (compiles : ∀ o ∈ occurrences, l.Compiles o.literal)
    (ends : ∀ o ∈ occurrences, l.Ends r o.literal) :
    ∃ (outcomes : List (Occurrence × Outcome)) (r' : Registry) (report : Report)
      (members : List Target),
      compileOccurrences l [] occurrences r = .ok outcomes r'
      ∧ outcomes.map Prod.fst = occurrences
      ∧ (∀ p ∈ outcomes, ∃ s, compileOccurrence l p.1 r = .ok p.2 s)
      ∧ compileBatch l occurrences r = .ok report r'
      ∧ members.Pairwise (fun s t => s.compare t = .lt)
      ∧ (∀ t, t ∈ members ↔ (firstAt outcomes t).isSome)
      ∧ report.attributes = members.filterMap (attributeAt outcomes)
      ∧ report.errors.filter (·.code = .duplicate)
        = (droppedOf outcomes).map (fun p => .ofDuplicate p.1 p.2.typeName)
      ∧ List.Forall₂ (fun p d => d.LocatedAt p.1) (droppedOf outcomes)
        (report.errors.filter (·.code = .duplicate))
      ∧ report.errors.filter (·.code = .encodeError)
        = members.filterMap (encodeErrorAt outcomes)
      ∧ (∀ t d, encodeErrorAt outcomes t = some d →
        ∃ first, firstAt outcomes t = some first ∧ d.LocatedAt first)
      ∧ ∀ t, attributeAt (outcomes.filter fun p => p.1.target = t) t = attributeAt outcomes t := by
  obtain ⟨outcomes, r', ran, names, alone, fails⟩ := exists_outcomes compiles ends
  have duplicates : (reportOn outcomes).errors.filter (·.code = .duplicate)
      = (droppedOf outcomes).map fun p => .ofDuplicate p.1 p.2.typeName := by
    rw [errors_reportOn, List.filter_append, duplicates_judge outcomes fails,
      filter_encodeErrors, if_neg (by decide), List.append_nil]
  refine ⟨outcomes, r', reportOn outcomes, membersOf outcomes, ran, names, alone,
    compileBatch_of_outcomes ran, pairwise_membersOf outcomes, fun t => mem_membersOf_iff,
    attributes_reportOn outcomes, duplicates, ?_, ?_, fun t d => locatedAt_of_encodeErrorAt,
    fun t => by rw [attributeAt, attributeAt, keptAt_filter]⟩
  · rw [duplicates]
    exact List.forall₂_map_right_iff.2
      (List.forall₂_same.2 fun p _ => locatedAt_ofOccurrence _ _ _ _)
  · have none : (failuresOf (judge [] outcomes)).filter (·.code = .encodeError) = [] :=
      List.filter_eq_nil_iff.2 fun d mem => by simpa using code_of_mem_failuresOf fails mem
    rw [errors_reportOn, List.filter_append, none, filter_encodeErrors, if_pos rfl, List.nil_append]

/-- Two points at one class, one of them by its whole name, with a shape at a field between them. -/
def repeatedBatch : List Occurrence :=
  [⟨"p.C", "C.java", 1, .wholeClass, "@Point(unit = Unit.CM)"⟩,
    ⟨"p.C", "C.java", 2, .field "f", "Shape(at = @Point(unit = Unit.CM), mark = 'x')"⟩,
    ⟨"p.C", "C.java", 3, .wholeClass, "@p.Point(x = 1, unit = Unit.INCH)"⟩]

/-- The second point is dropped, and the first is attached. -/
theorem attributes_of_repeatedBatch :
    let l := sampleIndex.loader ⟨0⟩
    ∃ report r', compileBatch l repeatedBatch .empty = .ok report r'
      ∧ (report.errors.filter (·.code = .duplicate)).map Diagnostic.line = [3]
      ∧ ∃ m ∈ report.attributes, m.target = ⟨"p.C", .wholeClass⟩ := by
  intro l
  have lexed : ∀ o ∈ repeatedBatch, (tokenize o.literal).isOk = true := by decide +kernel
  have compiles : ∀ o ∈ repeatedBatch, l.Compiles o.literal :=
    fun o mem => .of_isOk (lexed o mem)
  have ends : l.DefaultsEnd := defaultsEnd_of_ofSchema ofSchema_sampleSchema ⟨0⟩
  obtain ⟨outcomes, r', report, members, ran, -, -, compiled, -, mem_members, attributes,
    duplicates, -, -, -, -⟩ := attributes_of_compiles l .empty repeatedBatch compiles
      fun o _ => ends.ends .empty o.literal
  have checked : (returned (compileOccurrences l [] repeatedBatch .empty)).map (fun outcomes =>
      ((droppedOf outcomes).map (·.1.line), (firstAt outcomes ⟨"p.C", .wholeClass⟩).isSome,
        (attributeAt outcomes ⟨"p.C", .wholeClass⟩).map MemberAttribute.target))
      = some ([3], true, some ⟨"p.C", .wholeClass⟩) := by
    decide +kernel
  rw [ran] at checked
  simp only [returned, Option.map_some, Option.some.injEq, Prod.mk.injEq] at checked
  obtain ⟨lines, found, attached⟩ := checked
  obtain ⟨m, written, here⟩ := Option.map_eq_some_iff.1 attached
  refine ⟨report, r', compiled, ?_, m, ?_, here⟩
  · rw [duplicates, List.map_map, ← lines]
    rfl
  · rw [attributes]
    exact List.mem_filterMap.2 ⟨_, (mem_members _).2 found, written⟩

end DocAnnotations
