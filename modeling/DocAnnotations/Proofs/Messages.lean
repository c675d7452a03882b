import DocAnnotations.Proofs.Canonical
import DocAnnotations.Proofs.Counting
import DocAnnotations.Proofs.Rendered

/-!
# Messages and counts

A batch announces an annotation when it is accepted, before it is known whether the annotations of
its member can be written together.  Where they cannot, the member is lost: it has no attribute, its
annotations count as failed although they were announced, and all of them share one error.

**Lost members.**  `unwritable_judge` says how many annotations the summary moves from the accepted
to the failed ones: those kept for lost members.

**Messages.**  What is announced is counted as accepted or lost (`length_accepted_reportOn`), an
error is about an occurrence or about a lost member (`errors_of_lostMembers`), and an announced
annotation is attached or lost (`attached_or_lost`).

**`messages_of_compiles`** says by how much the messages differ from the counts, and that nothing
else makes a difference.  Without a lost member every message counts.  `messages_longName` is a
batch that loses a member.
-/

namespace DocAnnotations

open Attribute

variable {outcomes : List (Occurrence × Outcome)} {verdicts : List (Occurrence × Verdict)}
  {target : Target} {m : MemberAttribute}

/-! ## Lost members -/

/-- The accepted occurrences with their annotations, in the order in which they are announced. -/
def acceptedOf (verdicts : List (Occurrence × Verdict)) : List (Occurrence × Annotation) :=
  verdicts.filterMap fun p => p.2.annotation?.map (p.1, ·)

/-- The members whose annotations cannot be written. -/
def lostMembers (outcomes : List (Occurrence × Outcome)) : List Target :=
  (membersOf outcomes).filter fun t => (encodeErrorAt outcomes t).isSome

/-- The annotations of lost members. -/
def lostOf (outcomes : List (Occurrence × Outcome)) : List Annotation :=
  (lostMembers outcomes).flatMap (keptAt outcomes)

/-- A member is lost if something was accepted at it and what was accepted cannot be written. -/
lemma mem_lostMembers_iff : target ∈ lostMembers outcomes ↔
    ∃ first e, firstAt outcomes target = some first
      ∧ memberBytes (keptAt outcomes target) = .error e := by
  rw [lostMembers, List.mem_filter, mem_membersOf_iff, encodeErrorAt, Option.isSome_iff_exists]
  cases memberBytes (keptAt outcomes target) with
  | ok bytes => simp
  | error e => simp [Option.isSome_iff_exists]

/-- What stands in groups that cannot be written is what is kept for lost members. -/
lemma unwritable_judge (outcomes : List (Occurrence × Outcome)) :
    unwritable (groupsOf (judge [] outcomes)) = (lostOf outcomes).length := by
  have lost : (groupsOf (judge [] outcomes)).filter (fun g => g.diagnostic?.isSome)
      = (groupsOf (judge [] outcomes)).filter fun g => (encodeErrorAt outcomes g.target).isSome :=
    List.filter_congr fun g mem => by rw [diagnostic?_of_mem_groupsOf mem]
  have kept : ∀ g ∈ (groupsOf (judge [] outcomes)).filter fun g =>
      (encodeErrorAt outcomes g.target).isSome, g.annotations = keptAt outcomes g.target :=
    fun g mem => by
      rw [annotations_of_mem_groupsOf (List.mem_of_mem_filter mem), acceptedAt_judge]
  rw [unwritable, lost, List.flatMap_congr kept, lostOf, lostMembers, membersOf, List.filter_map,
    List.flatMap_map]
  rfl

/-! ## Attributes -/

/-- The attribute of a member is for this member, and is written from what was accepted at it. -/
lemma of_attributeAt (found : attributeAt outcomes target = some m) :
    m.target = target ∧ memberBytes (keptAt outcomes target) = .ok m.bytes := by
  rw [attributeAt] at found
  split at found
  · next bytes written =>
      cases found
      exact ⟨rfl, written⟩
  · cases found

/-- The attributes are those of the members at which something was accepted that can be written. -/
lemma mem_attributes_reportOn_iff : m ∈ (reportOn outcomes).attributes ↔
    (firstAt outcomes m.target).isSome ∧ memberBytes (keptAt outcomes m.target) = .ok m.bytes := by
  rw [attributes_reportOn, List.mem_filterMap]
  constructor
  · rintro ⟨t, mem, found⟩
    obtain ⟨rfl, written⟩ := of_attributeAt found
    exact ⟨mem_membersOf_iff.1 mem, written⟩
  · rintro ⟨first, written⟩
    exact ⟨m.target, mem_membersOf_iff.2 first, by rw [attributeAt, written]⟩

/-- An accepted annotation is kept for its member, which has a resolved occurrence. -/
lemma of_mem_acceptedOf {p : Occurrence × Annotation}
    (mem : p ∈ acceptedOf (judge [] outcomes)) :
    p.2 ∈ keptAt outcomes p.1.target ∧ (firstAt outcomes p.1.target).isSome := by
  obtain ⟨⟨o, v⟩, there, found⟩ := List.mem_filterMap.1 mem
  obtain ⟨a, accepted, rfl⟩ := Option.map_eq_some_iff.1 found
  have kept : a ∈ acceptedAt (judge [] outcomes) o.target :=
    List.mem_filterMap.2 ⟨(o, v), there, by rw [if_pos rfl, accepted]⟩
  have first : firstAcceptedAt (judge [] outcomes) o.target ≠ none := fun none =>
    List.ne_nil_of_mem kept (firstAcceptedAt_eq_none_iff.1 none)
  rw [acceptedAt_judge] at kept
  rw [firstAcceptedAt_judge] at first
  exact ⟨kept, Option.isSome_iff_ne_none.2 first⟩

/-! ## Reports -/

/-- The messages of acceptance are for what was accepted, in order, also where it cannot be
written. -/
lemma accepted_reportOn (outcomes : List (Occurrence × Outcome)) :
    (reportOn outcomes).accepted = (acceptedOf (judge [] outcomes)).map Prod.snd := by
  rw [acceptedOf, List.map_filterMap]
  exact List.filterMap_congr fun ⟨o, v⟩ _ => by cases v <;> rfl

/-- Each accepted occurrence is counted as accepted, or is lost with its member. -/
lemma length_accepted_reportOn (outcomes : List (Occurrence × Outcome)) :
    (reportOn outcomes).accepted.length
      = (reportOn outcomes).summary.accepted + (lostOf outcomes).length := by
  rw [← unwritable_judge]
  exact (Nat.sub_add_cancel (unwritable_le (judge [] outcomes))).symm

/-- Every lost member has one error, and no other member has one. -/
lemma errors_of_lostMembers (outcomes : List (Occurrence × Outcome)) :
    (reportOn outcomes).errors = failuresOf (judge [] outcomes)
        ++ (lostMembers outcomes).filterMap (encodeErrorAt outcomes)
      ∧ ((lostMembers outcomes).filterMap (encodeErrorAt outcomes)).length
        = (lostMembers outcomes).length := by
  constructor
  · rw [errors_reportOn, lostMembers, List.filterMap_filter]
    congr 1
    exact List.filterMap_congr fun t _ => by cases encodeErrorAt outcomes t <;> rfl
  · rw [List.length_filterMap_eq_countP, List.countP_eq_length]
    exact fun t mem => (List.mem_filter.1 mem).2

/-- Each failed occurrence has an error of its own, or is lost with its member, which has one error
for all. -/
lemma length_errors_reportOn (outcomes : List (Occurrence × Outcome)) :
    (reportOn outcomes).errors.length + (lostOf outcomes).length
      = (reportOn outcomes).summary.failed + (lostMembers outcomes).length := by
  obtain ⟨errors, once⟩ := errors_of_lostMembers outcomes
  have failed : (reportOn outcomes).summary.failed
      = (failuresOf (judge [] outcomes)).length + (lostOf outcomes).length := by
    rw [← unwritable_judge]
    rfl
  rw [errors, List.length_append, once, failed]
  omega

/-- An announced annotation is in the attribute of its member, unless the member is lost. -/
lemma attached_or_lost {p : Occurrence × Annotation} (mem : p ∈ acceptedOf (judge [] outcomes)) :
    (p.1.target ∉ lostMembers outcomes ∧ ∃ m ∈ (reportOn outcomes).attributes,
      m.target = p.1.target ∧ ∃ annotations, p.2 ∈ annotations
        ∧ memberBytes annotations = .ok m.bytes)
    ∨ (p.1.target ∈ lostMembers outcomes ∧ p.2 ∈ lostOf outcomes
      ∧ ∀ m ∈ (reportOn outcomes).attributes, m.target ≠ p.1.target) := by
  obtain ⟨kept, first⟩ := of_mem_acceptedOf mem
  cases written : memberBytes (keptAt outcomes p.1.target) with
  | ok bytes =>
      refine .inl ⟨fun lost => ?_, ⟨p.1.target, bytes⟩, ?_, rfl, _, kept, written⟩
      · obtain ⟨-, e, -, failed⟩ := mem_lostMembers_iff.1 lost
        rw [written] at failed
        cases failed
      · exact mem_attributes_reportOn_iff.2 ⟨first, written⟩
  | error e =>
      obtain ⟨o, found⟩ := Option.isSome_iff_exists.1 first
      have lost : p.1.target ∈ lostMembers outcomes :=
        mem_lostMembers_iff.2 ⟨o, e, found, written⟩
      refine .inr ⟨lost, List.mem_flatMap.2 ⟨_, lost, kept⟩, fun m attached same => ?_⟩
      obtain ⟨-, bytes⟩ := mem_attributes_reportOn_iff.1 attached
      rw [same, written] at bytes
      cases bytes

/-- **Messages and counts.**  A batch whose literals do not stop it, and for which loading defaults
ends, succeeds with any registry, and each of its occurrences comes to what it comes to alone.  Its
counts are those of counting one by one.  It skips what it tells to be skipped.  It announces as
many annotations as it counts as accepted, and those of lost members.  Its errors are one for each
occurrence that failed by itself and one for each lost member, while all annotations of a lost
member count as failed; so messages and counts agree where no member is lost.  An announced
annotation is in the attribute of its member, unless the member is lost and has none. -/
theorem messages_of_compiles (l : Loader) (r : Registry) (occurrences : List Occurrence)
    (compiles : ∀ o ∈ occurrences, l.Compiles o.literal)
    (ends : ∀ o ∈ occurrences, l.Ends r o.literal) :
    ∃ (outcomes : List (Occurrence × Outcome)) (r' : Registry) (report : Report),
      compileOccurrences l [] occurrences r = .ok outcomes r'
      ∧ outcomes.map Prod.fst = occurrences
      ∧ (∀ p ∈ outcomes, ∃ s, compileOccurrence l p.1 r = .ok p.2 s)
      ∧ compileBatch l occurrences r = .ok report r'
      ∧ Summary.count? (judge [] outcomes) = some report.summary
      ∧ report.infos.length = report.summary.skipped
      ∧ report.accepted = (acceptedOf (judge [] outcomes)).map Prod.snd
      ∧ report.accepted.length = report.summary.accepted + (lostOf outcomes).length
      ∧ report.errors = failuresOf (judge [] outcomes)
        ++ (lostMembers outcomes).filterMap (encodeErrorAt outcomes)
      ∧ report.errors.length + (lostOf outcomes).length
        = report.summary.failed + (lostMembers outcomes).length
      ∧ (lostMembers outcomes = [] → report.accepted.length = report.summary.accepted
        ∧ report.errors.length = report.summary.failed)
      ∧ ∀ p ∈ acceptedOf (judge [] outcomes),
        (p.1.target ∉ lostMembers outcomes ∧ ∃ m ∈ report.attributes, m.target = p.1.target
          ∧ ∃ annotations, p.2 ∈ annotations ∧ memberBytes annotations = .ok m.bytes)
        ∨ (p.1.target ∈ lostMembers outcomes ∧ p.2 ∈ lostOf outcomes
          ∧ ∀ m ∈ report.attributes, m.target ≠ p.1.target) := by
  obtain ⟨outcomes, r', ran, names, alone, -⟩ := exists_outcomes compiles ends
  have announced := length_accepted_reportOn outcomes
  have told := length_errors_reportOn outcomes
  refine ⟨outcomes, r', reportOn outcomes, ran, names, alone, compileBatch_of_outcomes ran,
    count?_eq_summary _, rfl, accepted_reportOn outcomes, announced,
    (errors_of_lostMembers outcomes).1, told, fun none => ?_, fun p mem => attached_or_lost mem⟩
  have nothing : lostOf outcomes = [] := by rw [lostOf, none, List.flatMap_nil]
  rw [nothing] at announced told
  rw [none] at told
  exact ⟨announced, told⟩

/-- No member is lost, and the repeated point is the only failure. -/
theorem messages_of_repeatedBatch :
    let l := sampleIndex.loader ⟨0⟩
    ∃ report r', compileBatch l repeatedBatch .empty = .ok report r'
      ∧ report.accepted.length = 2 ∧ report.summary.accepted = 2
      ∧ report.errors.length = 1 ∧ report.summary.failed = 1
      ∧ report.infos.length = report.summary.skipped
      ∧ ∃ m ∈ report.attributes, m.target = ⟨"p.C", .wholeClass⟩ := by
  intro l
  have lexed : ∀ o ∈ repeatedBatch, (tokenize o.literal).isOk = true := by decide +kernel
  have compiles : ∀ o ∈ repeatedBatch, l.Compiles o.literal :=
    fun o mem => .of_isOk (lexed o mem)
  have ends : l.DefaultsEnd := defaultsEnd_of_ofSchema ofSchema_sampleSchema ⟨0⟩
  obtain ⟨outcomes, r', report, ran, -, -, compiled, -, infos, accepted, -, errors, -, equal,
    attached⟩ := messages_of_compiles l .empty repeatedBatch compiles
      fun o _ => ends.ends .empty o.literal
  have checked : (returned (compileOccurrences l [] repeatedBatch .empty)).map (fun outcomes =>
      (lostMembers outcomes, (acceptedOf (judge [] outcomes)).map (·.1.target),
        (failuresOf (judge [] outcomes)).length))
      = some ([], [⟨"p.C", .wholeClass⟩, ⟨"p.C", .field "f"⟩], 1) := by
    decide +kernel
  rw [ran] at checked
  simp only [returned, Option.map_some, Option.some.injEq, Prod.mk.injEq] at checked
  obtain ⟨none, targets, failures⟩ := checked
  obtain ⟨announced, told⟩ := equal none
  have two : report.accepted.length = 2 := by
    rw [accepted, List.length_map, ← List.length_map (fun p => p.1.target), targets]
    rfl
  have one : report.errors.length = 1 := by
    rw [errors, none, List.filterMap_nil, List.append_nil, failures]
  refine ⟨report, r', compiled, two, announced.symm.trans two, one, told.symm.trans one, infos, ?_⟩
  obtain ⟨p, mem, here⟩ : ∃ p ∈ acceptedOf (judge [] outcomes), p.1.target = ⟨"p.C", .wholeClass⟩ :=
    List.mem_map.1 (targets ▸ List.mem_cons_self)
  obtain ⟨-, m, attached, same, -⟩ | ⟨lost, -⟩ := attached p mem
  · exact ⟨m, attached, same.trans here⟩
  · rw [none] at lost
    cases lost

/-! ## A lost member -/

section

variable {l : Loader} {o : Occurrence} {i : Interface} {a d : Annotation} {literal name : String}

/-- A name is the whole of a literal. -/
def IsBare (literal name : String) : Prop :=
  ∃ node, AnnotationNode.parse literal = .ok node ∧ node.name = name ∧ node.pairs = []

lemma isBare_of_any (h : (AnnotationNode.parse literal).toOption.any (fun node =>
    decide (node.name = name) && node.pairs.isEmpty) = true) : IsBare literal name := by
  cases parsed : AnnotationNode.parse literal with
  | error e =>
      rw [parsed] at h
      cases h
  | ok node =>
      rw [parsed] at h
      simp only [Except.toOption, Option.any_some, Bool.and_eq_true, decide_eq_true_eq,
        List.isEmpty_iff] at h
      exact ⟨node, parsed, h⟩

/-- A bare name comes to the defaults of its interface, where they are all there is. -/
lemma returns_compileLiteral_bare (bare : IsBare literal name)
    (found : l.types.findAnnotation? name = some i) (decodes : l.DecodesTo i (.ok d))
    (filled : ∀ offset, Returns l.Computed
      (fillMissing i.name offset d i.elements (.empty i.name)) a) :
    Returns l.Computed (compileLiteral l literal) (some a) := by
  obtain ⟨node, parsed, rfl, none⟩ := bare
  have known : l.types.Knows i := l.types.annotation?_of_find found
  have loads : Returns l.Computed (l.defaultsFor i) d := Loader.comes_defaultsFor known decodes
  rw [compileLiteral, parsed]
  refine Returns.adaptExcept ?_ _
  rw [resolveRoot, found]
  refine Returns.bind (loads.adaptExcept _) ?_
  refine Returns.bind (a := a) ?_ (.pure _)
  rw [resolveAgainst, none]
  exact Returns.bind (.pure _) (filled _)

/-- An occurrence is resolved as its literal is compiled, if its leading name is found. -/
lemma returns_compileOccurrence (leading : leadingName o.literal = name)
    (found : l.types.findAnnotation? name = some i)
    (compiles : Returns l.Computed (compileLiteral l o.literal) (some a)) :
    Returns l.Computed (compileOccurrence l o) (.resolved a) := by
  have tried : l.skips o.literal = false := by
    rw [Loader.skips, leading, found, Option.isNone_some, Bool.and_false]
  intro r computed
  obtain ⟨r', next, ran⟩ := compiles r computed
  exact ⟨r', next, compileOccurrence_of_ok tried ran⟩

end

/-- An occurrence at a class. -/
def atClass (line : Nat) (literal : String) : Occurrence :=
  ⟨"p.C", "C.java", line, .wholeClass, literal⟩

/-- Two annotations at one class; the first is nothing but defaults. -/
def wideBatch : List Occurrence :=
  [atClass 1 "@p.A", atClass 2 "@p.B"]

/-- What the occurrences come to. -/
def wideOutcomes (name : String) : List (Occurrence × Outcome) :=
  [(atClass 1 "@p.A", .resolved (wideDefaults name)), (atClass 2 "@p.B", .resolved ⟨"p.B", []⟩)]

lemma returns_wideBatch (name : String) (token : ModuleToken) :
    Returns ((wideIndex name).loader token).Computed
      (compileOccurrences ((wideIndex name).loader token) [] wideBatch) (wideOutcomes name) := by
  let l := (wideIndex name).loader token
  have found : l.types.findAnnotation? "p.A" = some (wideInterface name) := rfl
  have found' : l.types.findAnnotation? "p.B" = some ⟨"p.B", []⟩ := rfl
  have filled : ∀ offset, Returns l.Computed (fillMissing "p.A" offset (wideDefaults name)
      [⟨name, .int, "()I"⟩] (.empty "p.A")) (wideDefaults name) := by
    intro offset
    have absent : Annotation.contains (.empty "p.A") name = false := rfl
    have given : (wideDefaults name).get? name = some (.int 1) := by
      simp [wideDefaults, Annotation.get?, lookupElement]
    simp only [fillMissing, absent, given]
    exact .pure _
  have first : Returns l.Computed (compileLiteral l "@p.A") (some (wideDefaults name)) :=
    returns_compileLiteral_bare (isBare_of_any (by decide +kernel)) found
      (decodesTo_wideInterface name token) filled
  have second : Returns l.Computed (compileLiteral l "@p.B") (some ⟨"p.B", []⟩) :=
    returns_compileLiteral_bare (isBare_of_any (by decide +kernel)) found'
      (fun _ _ => Comes.pure _) fun _ => .pure _
  exact (returns_compileOccurrence (by decide +kernel) found first).bind
    ((returns_compileOccurrence (by decide +kernel) found' second).bind (.pure _))

/-- Both annotations are accepted, as they are of different interfaces. -/
lemma judge_wideOutcomes (name : String) : judge [] (wideOutcomes name) =
    [(atClass 1 "@p.A", .accepted (wideDefaults name)),
      (atClass 2 "@p.B", .accepted ⟨"p.B", []⟩)] := by
  simp [judge, wideOutcomes, wideDefaults, atClass]

/-- Two annotations together are refused for the name of an element in the first, if it does not
fit. -/
lemma memberBytes_wide {name : String} (long : ¬ FitsText name) :
    memberBytes [wideDefaults name, ⟨"p.B", []⟩]
      = .error (.tooLong .elementName name.utf8ByteSize) := by
  simp only [memberBytes, annotationsBytes, annotationBytes_wideDefaults long]
  rfl

/-- Both occurrences are announced as accepted, both are counted as failed, and one error stands for
both. -/
lemma reportOn_wideOutcomes {name : String} (long : ¬ FitsText name) :
    (reportOn (wideOutcomes name)).accepted.length = 2
      ∧ (reportOn (wideOutcomes name)).summary.accepted = 0
      ∧ (reportOn (wideOutcomes name)).errors.length = 1
      ∧ (reportOn (wideOutcomes name)).summary.failed = 2
      ∧ (reportOn (wideOutcomes name)).attributes = [] := by
  let group : Group :=
    ⟨⟨"p.C", .wholeClass⟩, atClass 1 "@p.A", [wideDefaults name, ⟨"p.B", []⟩]⟩
  have failed : group.encoded = .error (.tooLong .elementName name.utf8ByteSize) :=
    memberBytes_wide long
  have self : Target.compare ⟨"p.C", .wholeClass⟩ ⟨"p.C", .wholeClass⟩ = .eq :=
    Std.ReflCmp.compare_self
  have groups : groupsOf (judge [] (wideOutcomes name)) = [group] := by
    simp [judge_wideOutcomes, groupsOf, addToGroups, Occurrence.target, atClass, self, group]
  rw [judge_wideOutcomes] at groups
  simp only [reportOn, Report.ofVerdicts, judge_wideOutcomes, groups]
  simp [unwritable, Group.diagnostic?, Group.attribute?, failed, group, Verdict.annotation?,
    Verdict.diagnostic?]

/-- Two annotations are announced and none is counted as accepted: the member of both is lost,
because the name of an element of the first is too long to be written.  Both count as failed, with
one error. -/
theorem messages_longName :
    TypeIndex.ofSchema (wideSchema longName) = .ok (wideIndex longName) ∧
    ∃ report r, compileBatch ((wideIndex longName).loader ⟨0⟩) wideBatch .empty = .ok report r
      ∧ report.accepted.length = 2 ∧ report.summary.accepted = 0
      ∧ report.errors.length = 1 ∧ report.summary.failed = 2 ∧ report.attributes = [] := by
  have long : ¬ FitsText longName := by
    rw [FitsText, utf8ByteSize_longName]
    exact Nat.lt_irrefl _
  obtain ⟨r, -, ran⟩ := returns_wideBatch longName ⟨0⟩ .empty Loader.computed_empty
  exact ⟨ofSchema_wideSchema longName, _, r, compileBatch_of_outcomes ran,
    reportOn_wideOutcomes long⟩

end DocAnnotations
