import DocAnnotations.Proofs.Alone
import DocAnnotations.Proofs.TypeIndex

/-!
# Explicit values and defaults

An annotation is put together in two passes: the pairs give values to the elements that they name,
and the declared elements without a pair take their defaults.

**Values of pairs.**  `Loader.Gives` says which value a pair gives, with the registry that the
resolution started with.  `Takes` says what the first pass makes of an annotation, pair by pair.
Pairs may stand in any order (`Takes.perm`), because values for different names are set
independently of each other.

**Defaults.**  The second pass fails exactly where an element without a pair lacks a default, and
otherwise leaves every declared element with a value.

**Whole annotations.**  **`resolveAgainst_merges`**: resolution succeeds exactly if every pair names
a declared element, no two name the same, every value suits its element and no element without a
pair lacks a default; the result has exactly the declared elements, and does not depend on the order
of the pairs.
-/

namespace DocAnnotations

open Annotation (contains contains_insert insert_comm ordered_empty)

variable {l : Loader} {base r r' : Registry} {i : Interface} {a b d : Annotation} {p : PairNode}
  {ps qs : List PairNode} {v : Value} {name interface : String} {offset : Nat}

/-! ## Values of pairs -/

/-- A pair names a declared element, and its value is resolved for the type of the element. -/
def Loader.Gives (l : Loader) (r : Registry) (i : Interface) (p : PairNode) (v : Value) : Prop :=
  ∃ e r', i.element? p.name = some e ∧
    resolveValue l i.name e.name p.value e.type r = .ok v r'

/-- A value is the same with every registry that the resolution may come to. -/
lemma resolveValue_of_coherent {element : String} {n : Node} {type : ElementType} {t : Registry}
    (coherent : l.Coherent base r) (coherent' : l.Coherent base t)
    (ran : resolveValue l interface element n type r = .ok v r') :
    ∃ t', resolveValue l interface element n type t = .ok v t' ∧ l.Coherent base r' ∧
      l.Coherent base t' := by
  have follows := follows_resolveValue (l.resolvesLike_of_coherent base) interface element n type
    (fun _ _ => trivial) r t ⟨coherent, coherent'⟩
  simpa only [ran] using follows

/-- Pairs take an annotation to another by setting the elements that they name, one by one; none
names an element that already has a value. -/
inductive Takes (l : Loader) (base : Registry) (i : Interface) :
    List PairNode → Annotation → Annotation → Prop
  | nothing {a : Annotation} : Takes l base i [] a a
  | pair {p : PairNode} {ps : List PairNode} {v : Value} {a b : Annotation}
      (gives : l.Gives base i p v) (new : ¬a.contains p.name = true)
      (more : Takes l base i ps (a.insert p.name v) b) : Takes l base i (p :: ps) a b

/-- **What pairs come to** does not depend on the registry. -/
theorem resolvePairs_ok_iff : ∀ {ps : List PairNode} {a : Annotation} {r : Registry},
    l.Coherent base r →
    ((∃ r', resolvePairs l i ps a r = .ok b r') ↔ Takes l base i ps a b)
  | [], a, r, coherent => by
      constructor
      · rintro ⟨r', ran⟩
        rw [resolvePairs] at ran
        cases ran
        exact .nothing
      · rintro ⟨⟩
        exact ⟨r, rfl⟩
  | ⟨name, value, span⟩ :: ps, a, r, coherent => by
      have self := l.coherent_self base
      rw [resolvePairs]
      constructor
      · rintro ⟨r', ran⟩
        cases found : i.element? name with
        | none =>
            rw [found] at ran
            cases ran
        | some e =>
            rw [found] at ran
            dsimp only at ran
            split_ifs at ran with there
            · cases ran
            · simp only [Bind.bind, EStateM.bind] at ran
              cases first : resolveValue l i.name e.name value e.type r with
              | error e s =>
                  rw [first] at ran
                  cases ran
              | ok v s =>
                  rw [first] at ran
                  obtain ⟨t, ran', next, -⟩ := resolveValue_of_coherent coherent self first
                  exact .pair (p := ⟨name, value, span⟩) ⟨e, t, found, ran'⟩ there
                    ((resolvePairs_ok_iff next).1 ⟨r', ran⟩)
      · intro takes
        cases takes with
        | @pair _ _ v _ _ gives new more =>
            obtain ⟨e, s, found, ran⟩ := gives
            obtain ⟨t, ran', -, next⟩ := resolveValue_of_coherent self coherent ran
            obtain ⟨r', rest⟩ := (resolvePairs_ok_iff next).2 more
            refine ⟨r', ?_⟩
            simp only [found, if_neg new, Bind.bind, EStateM.bind, ran', rest]

namespace Takes

lemma typeName (h : Takes l base i ps a b) : b.typeName = a.typeName := by
  induction h with
  | nothing => rfl
  | pair _ _ _ ih => rw [ih, Annotation.typeName_insert]

/-- Taking over pairs keeps the elements of an annotation in order. -/
lemma ordered (h : Takes l base i ps a b) (ordered : a.Ordered) : b.Ordered := by
  induction h with
  | nothing => exact ordered
  | pair _ _ _ ih => exact ih ordered.insert

/-- Names that have a value already keep it, and those of no pair have none. -/
lemma get?_of_not_mem (h : Takes l base i ps a b) (other : name ∉ ps.map PairNode.name) :
    b.get? name = a.get? name := by
  induction h with
  | nothing => rfl
  | pair _ _ _ ih =>
      rw [List.map_cons, List.mem_cons, not_or] at other
      rw [ih other.2, Annotation.get?_insert, if_neg (Ne.symm other.1)]

/-- No two pairs name the same, and none what was there before. -/
lemma distinct (h : Takes l base i ps a b) : (ps.map PairNode.name).Nodup ∧
    ∀ p ∈ ps, ¬a.contains p.name = true := by
  induction h with
  | nothing => simp
  | @pair p ps v a b gives new more ih =>
      obtain ⟨nodup, apart⟩ := ih
      have others : ∀ q ∈ ps, p.name ≠ q.name ∧ ¬a.contains q.name = true := fun q mem =>
        not_or.1 fun there => apart q mem (contains_insert.2 there)
      refine ⟨?_, List.forall_mem_cons.2 ⟨new, fun q mem => (others q mem).2⟩⟩
      rw [List.map_cons, List.nodup_cons, List.mem_map]
      exact ⟨fun ⟨q, mem, same⟩ => (others q mem).1 same.symm, nodup⟩

/-- Each pair gives its element the value that is resolved for it. -/
lemma get?_of_mem (h : Takes l base i ps a b) (mem : p ∈ ps) :
    ∃ v, l.Gives base i p v ∧ b.get? p.name = some v := by
  induction h with
  | nothing => cases mem
  | @pair q ps v a b gives new more ih =>
      rcases List.mem_cons.1 mem with rfl | mem
      · refine ⟨v, gives, ?_⟩
        rw [more.get?_of_not_mem, Annotation.get?_insert, if_pos rfl]
        intro there
        obtain ⟨q, mem, same⟩ := List.mem_map.1 there
        exact more.distinct.2 q mem (contains_insert.2 (.inl same.symm))
      · exact ih mem

/-- **The order of pairs does not matter.** -/
theorem perm (h : Takes l base i ps a b) (same : ps.Perm qs) : Takes l base i qs a b := by
  induction same generalizing a with
  | nil => exact h
  | cons p same ih =>
      cases h with
      | pair gives new more => exact .pair gives new (ih more)
  | swap p q ps =>
      cases h with
      | @pair _ _ v _ _ gives new more =>
          cases more with
          | @pair _ _ w _ _ gives' new' more =>
              rw [contains_insert, not_or] at new'
              refine .pair gives' new'.2 (.pair gives ?_ ?_)
              · rw [contains_insert, not_or]
                exact ⟨Ne.symm new'.1, new⟩
              · rwa [insert_comm (Ne.symm new'.1)] at more
  | trans _ _ ih ih' => exact ih' (ih h)

end Takes

/-- Pairs come to something if their names are new and apart and their values suit. -/
lemma exists_takes : ∀ {ps : List PairNode} {a : Annotation}, (ps.map PairNode.name).Nodup →
    (∀ p ∈ ps, ¬a.contains p.name = true) → (∀ p ∈ ps, ∃ v, l.Gives base i p v) →
    ∃ b, Takes l base i ps a b
  | [], a, _, _, _ => ⟨a, .nothing⟩
  | p :: ps, a, nodup, new, gives => by
      rw [List.map_cons, List.nodup_cons] at nodup
      obtain ⟨first, new⟩ := List.forall_mem_cons.1 new
      obtain ⟨⟨v, value⟩, gives⟩ := List.forall_mem_cons.1 gives
      have apart : ∀ q ∈ ps, ¬(a.insert p.name v).contains q.name = true := by
        intro q mem there
        rcases Annotation.contains_insert.1 there with same | there
        · exact nodup.1 (same ▸ List.mem_map_of_mem mem)
        · exact new q mem there
      obtain ⟨b, more⟩ := exists_takes nodup.2 apart gives
      exact ⟨b, .pair value first more⟩

/-! ## Defaults -/

/-- Filling in defaults leaves what is there, and adds the defaults of the other elements. -/
lemma fillMissing_ok : ∀ {es : List Element} {a : Annotation},
    fillMissing interface offset d es a r = .ok b r' →
    r' = r ∧ b.typeName = a.typeName ∧ (a.Ordered → b.Ordered) ∧
      (∀ e ∈ es, a.contains e.name = true ∨ d.contains e.name = true) ∧
      ∀ name, b.get? name =
        (a.get? name).or (if name ∈ es.map Element.name then d.get? name else none)
  | [], a, ran => by
      rw [fillMissing] at ran
      cases ran
      simp
  | e :: es, a, ran => by
      rw [fillMissing] at ran
      split_ifs at ran with there
      · obtain ⟨same, named, order, provided, values⟩ := fillMissing_ok ran
        refine ⟨same, named, order, List.forall_mem_cons.2 ⟨.inl there, provided⟩, fun name => ?_⟩
        rw [values]
        by_cases here : name = e.name
        · obtain ⟨v, value⟩ := Option.isSome_iff_exists.1 there
          simp only [here, value, Option.some_or]
        · simp only [List.map_cons, List.mem_cons, here, false_or]
      · cases default : d.get? e.name with
        | none =>
            rw [default] at ran
            cases ran
        | some v =>
            rw [default] at ran
            obtain ⟨same, named, order, provided, values⟩ := fillMissing_ok ran
            refine ⟨same, named, fun ordered => order ordered.insert, ?_, fun name => ?_⟩
            · refine List.forall_mem_cons.2 ⟨.inr (Option.isSome_iff_exists.2 ⟨v, default⟩), ?_⟩
              intro e' mem
              rcases provided e' mem with has | has
              · rcases Annotation.contains_insert.1 has with same | has
                · right
                  rw [← same, Annotation.contains, default]
                  rfl
                · exact .inl has
              · exact .inr has
            · rw [values, Annotation.get?_insert]
              by_cases here : e.name = name
              · have absent : a.get? e.name = none := Option.not_isSome_iff_eq_none.1 there
                subst here
                simp [absent, default]
              · simp only [if_neg here, List.map_cons, List.mem_cons, Ne.symm here, false_or]

/-- Filling in succeeds if no default lacks. -/
lemma exists_fillMissing : ∀ {es : List Element} {a : Annotation},
    (∀ e ∈ es, a.contains e.name = true ∨ d.contains e.name = true) →
    ∃ b, ∀ interface offset r, fillMissing interface offset d es a r = .ok b r
  | [], a, _ => ⟨a, fun _ _ _ => rfl⟩
  | e :: es, a, provided => by
      obtain ⟨first, provided⟩ := List.forall_mem_cons.1 provided
      cases there : a.contains e.name with
      | true =>
          obtain ⟨b, ran⟩ := exists_fillMissing provided
          exact ⟨b, fun interface offset r => by rw [fillMissing, if_pos there, ran]⟩
      | false =>
          obtain ⟨v, default⟩ := Option.isSome_iff_exists.1 (first.resolve_left (by simp [there]))
          have provided : ∀ e' ∈ es, (a.insert e.name v).contains e'.name = true ∨
              d.contains e'.name = true := fun e' mem =>
            (provided e' mem).imp_left fun has => Annotation.contains_insert.2 (.inr has)
          obtain ⟨b, ran⟩ := exists_fillMissing provided
          exact ⟨b, fun interface offset r => by
            rw [fillMissing, if_neg (by simp [there]), default]
            exact ran interface offset r⟩

/-- Filling in comes to the same wherever it is done. -/
lemma fillMissing_everywhere {es : List Element}
    (ran : fillMissing interface offset d es a r = .ok b r') (interface' : String)
    (offset' : Nat) (t : Registry) : fillMissing interface' offset' d es a t = .ok b t := by
  have provided := (fillMissing_ok ran).2.2.2.1
  obtain ⟨c, fills⟩ := exists_fillMissing provided
  have same := ran.symm.trans (fills interface offset r)
  cases same
  exact fills interface' offset' t

/-! ## Whole annotations -/

/-- What the two passes come to from the registry `r`. -/
lemma resolveAgainst_ok_iff {node : AnnotationNode} :
    (∃ r', resolveAgainst l i d node r = .ok b r') ↔
      ∃ a, Takes l r i node.pairs (.empty i.name) a ∧
        ∀ interface offset t, fillMissing interface offset d i.elements a t = .ok b t := by
  have self := l.coherent_self r
  simp only [resolveAgainst, Bind.bind, EStateM.bind]
  constructor
  · rintro ⟨r', ran⟩
    cases taken : resolvePairs l i node.pairs (.empty i.name) r with
    | error e s =>
        rw [taken] at ran
        cases ran
    | ok a s =>
        rw [taken] at ran
        exact ⟨a, (resolvePairs_ok_iff self).1 ⟨s, taken⟩, fillMissing_everywhere ran⟩
  · rintro ⟨a, takes, fills⟩
    obtain ⟨s, taken⟩ := (resolvePairs_ok_iff self).2 takes
    exact ⟨s, by simp only [taken, fills]⟩

/-- A pair that gives a value is for an element that its interface declares. -/
lemma Loader.Gives.declared (h : l.Gives r i p v) : (i.element? p.name).isSome := by
  obtain ⟨e, _, found, -⟩ := h
  rw [found]
  rfl

/-- The name of a declared element is among the names of the elements. -/
lemma Interface.mem_names_of_isSome_element? (h : (i.element? name).isSome) :
    name ∈ i.elements.map Element.name := by
  obtain ⟨e, found⟩ := Option.isSome_iff_exists.1 h
  have same : e.name = name := by simpa using List.find?_some found
  exact same ▸ List.mem_map_of_mem (List.mem_of_find?_eq_some found)

variable {node other : AnnotationNode}

/-- Resolution succeeds exactly if all pairs name declared elements, no two the same, every value is
resolved for its element, and no element without a pair lacks a default. -/
lemma exists_resolveAgainst_iff : (∃ a r', resolveAgainst l i d node r = .ok a r') ↔
    (∀ p ∈ node.pairs, (i.element? p.name).isSome) ∧ (node.pairs.map PairNode.name).Nodup ∧
    (∀ p ∈ node.pairs, ∃ v, l.Gives r i p v) ∧
    ∀ e ∈ i.elements, e.name ∉ node.pairs.map PairNode.name → d.contains e.name = true := by
  constructor
  · rintro ⟨a, resolved⟩
    obtain ⟨taken, takes, fills⟩ := resolveAgainst_ok_iff.1 resolved
    have gives : ∀ p ∈ node.pairs, ∃ v, l.Gives r i p v := fun p mem =>
      (takes.get?_of_mem mem).imp fun v value => value.1
    refine ⟨fun p mem => (gives p mem).elim fun v => Loader.Gives.declared, takes.distinct.1,
      gives, fun e mem apart => ?_⟩
    have absent : taken.get? e.name = none := takes.get?_of_not_mem apart
    refine ((fillMissing_ok (fills "" 0 r)).2.2.2.1 e mem).resolve_left fun has => ?_
    rw [contains, absent] at has
    cases has
  · rintro ⟨-, nodup, gives, provided⟩
    have new : ∀ p ∈ node.pairs, ¬ contains (.empty i.name) p.name = true := by
      intro p _ there
      cases there
    obtain ⟨taken, takes⟩ := exists_takes nodup new gives
    have complete : ∀ e ∈ i.elements, taken.contains e.name = true ∨
        d.contains e.name = true := by
      intro e mem
      by_cases paired : e.name ∈ node.pairs.map PairNode.name
      · obtain ⟨p, there, same⟩ := List.mem_map.1 paired
        obtain ⟨v, -, value⟩ := takes.get?_of_mem there
        left
        rw [← same, Annotation.contains, value]
        rfl
      · exact .inr (provided e mem paired)
    obtain ⟨a, fills⟩ := exists_fillMissing complete
    exact ⟨a, resolveAgainst_ok_iff.2 ⟨taken, takes, fills⟩⟩

/-- What is resolved has the values of pairs, else defaults, for exactly the declared elements. -/
lemma elements_of_resolveAgainst (resolved : resolveAgainst l i d node r = .ok a r') :
    a.typeName = i.name ∧ a.Ordered ∧
    (∀ name, a.contains name = true ↔ name ∈ i.elements.map Element.name) ∧
    (∀ p ∈ node.pairs, ∃ v, l.Gives r i p v ∧ a.get? p.name = some v) ∧
    ∀ e ∈ i.elements, e.name ∉ node.pairs.map PairNode.name →
      a.get? e.name = d.get? e.name := by
  obtain ⟨taken, takes, fills⟩ := resolveAgainst_ok_iff.1 ⟨r', resolved⟩
  obtain ⟨-, named, order, provided, values⟩ := fillMissing_ok (fills "" 0 r)
  refine ⟨named.trans takes.typeName, order (takes.ordered (ordered_empty _)),
    fun name => ⟨fun has => ?_, fun mem => ?_⟩, fun p mem => ?_, fun e mem apart => ?_⟩
  · by_contra undeclared
    have apart : name ∉ node.pairs.map PairNode.name := by
      intro paired
      obtain ⟨p, mem, rfl⟩ := List.mem_map.1 paired
      obtain ⟨v, gives, -⟩ := takes.get?_of_mem mem
      exact undeclared (Interface.mem_names_of_isSome_element? gives.declared)
    rw [contains, values, takes.get?_of_not_mem apart, if_neg undeclared] at has
    cases has
  · obtain ⟨e, there, rfl⟩ := List.mem_map.1 mem
    rw [contains, values, if_pos mem, Option.isSome_or, Bool.or_eq_true]
    exact provided e there
  · obtain ⟨v, gives, value⟩ := takes.get?_of_mem mem
    exact ⟨v, gives, by rw [values, value, Option.some_or]⟩
  · have absent : taken.get? e.name = none := takes.get?_of_not_mem apart
    rw [values, absent, if_pos (List.mem_map_of_mem mem), Option.none_or]

/-- Pairs in another order resolve to the same. -/
lemma resolveAgainst_of_perm (same : node.pairs.Perm other.pairs)
    (resolved : ∃ r', resolveAgainst l i d node r = .ok a r') :
    ∃ r', resolveAgainst l i d other r = .ok a r' := by
  obtain ⟨taken, takes, fills⟩ := resolveAgainst_ok_iff.1 resolved
  exact resolveAgainst_ok_iff.2 ⟨taken, takes.perm same, fills⟩

/-- **Merging explicit values and defaults.**  An annotation is resolved exactly if all pairs name
declared elements, no two the same, every value is resolved for its element, and each declared
element without a pair has a default.  The result has exactly the declared elements, each with the
value of its pair or else its default; and it is the same for the pairs in any other order. -/
theorem resolveAgainst_merges (l : Loader) (r : Registry) (i : Interface) (defaults : Annotation)
    (node : AnnotationNode) :
    ((∃ a r', resolveAgainst l i defaults node r = .ok a r') ↔
      (∀ p ∈ node.pairs, (i.element? p.name).isSome) ∧ (node.pairs.map PairNode.name).Nodup ∧
      (∀ p ∈ node.pairs, ∃ v, l.Gives r i p v) ∧
      ∀ e ∈ i.elements, e.name ∉ node.pairs.map PairNode.name →
        defaults.contains e.name = true) ∧
    (∀ a r', resolveAgainst l i defaults node r = .ok a r' →
      a.typeName = i.name ∧ a.Ordered ∧
      (∀ name, a.contains name = true ↔ name ∈ i.elements.map Element.name) ∧
      (∀ p ∈ node.pairs, ∃ v, l.Gives r i p v ∧ a.get? p.name = some v) ∧
      ∀ e ∈ i.elements, e.name ∉ node.pairs.map PairNode.name →
        a.get? e.name = defaults.get? e.name) ∧
    ∀ other : AnnotationNode, node.pairs.Perm other.pairs → ∀ a,
      (∃ r', resolveAgainst l i defaults node r = .ok a r') ↔
        ∃ r', resolveAgainst l i defaults other r = .ok a r' :=
  ⟨exists_resolveAgainst_iff, fun _ _ resolved => elements_of_resolveAgainst resolved,
    fun _ same _ => ⟨resolveAgainst_of_perm same, resolveAgainst_of_perm same.symm⟩⟩

/-- Two coordinates in either order are merged with the default of the third. -/
theorem resolveAgainst_merges_corner :
    let l := sampleIndex.loader ⟨0⟩
    let i : Interface := ⟨"p.Corner", [⟨"x", .int, "()I"⟩, ⟨"y", .int, "()I"⟩, ⟨"z", .int, "()I"⟩]⟩
    let d : Annotation := ⟨"p.Corner", [("y", .int 7), ("z", .int 3)]⟩
    let x : PairNode := ⟨"x", .literal .integer "1" {}, {}⟩
    let y : PairNode := ⟨"y", .literal .integer "2" {}, {}⟩
    ∃ a r r', resolveAgainst l i d ⟨"Corner", [x, y], {}⟩ .empty = .ok a r ∧
      resolveAgainst l i d ⟨"Corner", [y, x], {}⟩ .empty = .ok a r' ∧
      a.get? "z" = some (.int 3) := by
  intro l i d x y
  obtain ⟨succeeds, elements, permuted⟩ := resolveAgainst_merges l .empty i d ⟨"Corner", [x, y], {}⟩
  have gives : ∀ p ∈ [x, y], ∃ v, l.Gives .empty i p v := by
    intro p mem
    rcases List.mem_pair.1 mem with rfl | rfl
    · exact ⟨.int 1, _, _, rfl, rfl⟩
    · exact ⟨.int 2, _, _, rfl, rfl⟩
  obtain ⟨a, r, resolved⟩ := succeeds.2 ⟨by decide, by decide, gives, by decide⟩
  obtain ⟨r', swapped⟩ := (permuted ⟨"Corner", [y, x], {}⟩ (.swap y x []) a).1 ⟨r, resolved⟩
  have default := (elements a r resolved).2.2.2.2 ⟨"z", .int, "()I"⟩ (by decide) (by decide)
  exact ⟨a, r, r', resolved, swapped, default⟩

end DocAnnotations
