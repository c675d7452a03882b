import DocAnnotations.Proofs.Defaults.Declared
import DocAnnotations.Proofs.Rendered

/-!
# Elements that are left out

An element without a pair gets its default after the pairs have been resolved, and the default went
a long way: its literal was resolved when the schema was loaded, written, and read again.  A pair
with the same literal is resolved where it stands.

**Pairs and filling in.**  No pair looks at what the others came to (`returns_resolvePairs_insert`),
and defaults are filled in wherever they are missing (`returns_fillMissing_insert`).

**Defaults that were loaded.**  Both ways come to the same value (`get?_of_defaultsAt`).

**Loaded indexes.**  **`omitted_as_written`** concludes that leaving an element out is the same as
writing its default, at any place among the pairs, for annotations that stand by themselves and for
nested ones.
-/

namespace DocAnnotations

open Attribute
open Annotation (contains_insert insert_comm)

/-! ## Known results, taken apart -/

section

variable {ε ε' σ α β : Type} {I : σ → Prop} {p : EStateM ε σ α} {a b : α} {s : σ}

namespace Returns

/-- A computation returns one value only from a state with the invariant. -/
lemma unique (hs : I s) (h : Returns I p a) (h' : Returns I p b) : a = b := by
  obtain ⟨_, -, ran⟩ := h s hs
  obtain ⟨_, -, ran'⟩ := h' s hs
  cases ran.symm.trans ran'
  rfl

lemma eq_of_pure (hs : I s) (h : Returns I (Pure.pure b : EStateM ε σ α) a) : b = a :=
  (Returns.pure b).unique hs h

lemma map {g : α → β} (h : Returns I p a) :
    Returns I (do return g (← p) : EStateM ε σ β) (g a) :=
  h.bind (.pure _)

lemma not_throw {e : ε} (hs : I s) : ¬ Returns I (throw e : EStateM ε σ α) a := by
  intro h
  obtain ⟨_, -, ran⟩ := h s hs
  cases ran

/-- A change made to errors returns nothing that was not returned without it. -/
lemma of_adaptExcept {g : ε → ε'} (h : Returns I (p.adaptExcept g) a) : Returns I p a := by
  intro s hs
  obtain ⟨s', hs', ran⟩ := h s hs
  refine ⟨s', hs', ?_⟩
  rw [EStateM.adaptExcept] at ran
  cases first : p s with
  | ok b t =>
      rw [first] at ran
      cases ran
      rfl
  | error e t =>
      rw [first] at ran
      cases ran

end Returns

end

section

variable {ε α β : Type} {I : Registry → Prop} {p : WithRegistry ε α} {f : α → WithRegistry ε β}
  {a : α} {b : β} {r r' : Registry}

/-- Where registries with the invariant cannot be told apart, one run stands for all. -/
lemma SameFrom.returns (same : SameFrom (fun r t => I r ∧ I t) p) (hr : I r)
    (ran : p r = .ok a r') : Returns I p a := by
  intro s hs
  rcases same.results ⟨hr, hs⟩ with ⟨b, _, s', ran', back, -, hs'⟩ | ⟨e, _, _, ran', -⟩
  · cases ran.symm.trans ran'
    exact ⟨s', hs', back⟩
  · cases ran.symm.trans ran'

/-- A computation that returns has a first part that returns, and a rest that does. -/
lemma SameFrom.of_bind (first : SameFrom (fun r t => I r ∧ I t) p)
    (next : ∀ a, SameFrom (fun r t => I r ∧ I t) (f a)) (hr : I r) (h : Returns I (p >>= f) b) :
    ∃ a, Returns I p a ∧ Returns I (f a) b := by
  obtain ⟨r', hr', ran⟩ := h r hr
  simp only [Bind.bind, EStateM.bind] at ran
  cases started : p r with
  | error e s =>
      rw [started] at ran
      cases ran
  | ok a s =>
      rw [started] at ran
      have front := first.returns hr started
      obtain ⟨s', hs, again⟩ := front r hr
      cases started.symm.trans again
      exact ⟨a, front, (next a).returns hs ran⟩

/-- What is returned after a last step was made of something that was returned before it. -/
lemma SameFrom.of_map {g : α → β} (same : SameFrom (fun r t => I r ∧ I t) p) (hr : I r)
    (h : Returns I (do return g (← p)) b) : ∃ a, Returns I p a ∧ g a = b := by
  obtain ⟨a, returns, rest⟩ := same.of_bind (fun a => .pure (g a)) hr h
  exact ⟨a, returns, rest.eq_of_pure hr⟩

end

/-! ## Pairs -/

variable {l : Loader} {I : Registry → Prop} {i : Interface} {a b d : Annotation} {e : Element}
  {v : Value} {n : Node} {r : Registry}

/-- Pairs are resolved one after the other, so that they may be split anywhere. -/
lemma resolvePairs_append (front back : List PairNode) (a : Annotation) :
    resolvePairs l i (front ++ back) a = resolvePairs l i front a >>= resolvePairs l i back := by
  induction front generalizing a with
  | nil => simp [resolvePairs]
  | cons p front ih =>
      obtain ⟨name, node, span⟩ := p
      simp only [List.cons_append, resolvePairs]
      cases i.element? name with
      | none => rfl
      | some e =>
          dsimp only
          split_ifs
          · rfl
          · simp only [ih, bind_assoc]

/-- Pairs give the elements that they name, and no others. -/
lemma ensures_contains_resolvePairs (name : String) (pairs : List PairNode) (a : Annotation) :
    Ensures (fun _ => True) (resolvePairs l i pairs a) fun b =>
      b.contains name = true ↔ a.contains name = true ∨ ∃ p ∈ pairs, p.name = name := by
  induction pairs generalizing a with
  | nil =>
      rw [resolvePairs]
      exact Ensures.pure (by simp)
  | cons p pairs ih =>
      obtain ⟨own, node, span⟩ := p
      rw [resolvePairs]
      cases i.element? own with
      | none => exact Ensures.throw _
      | some e =>
          dsimp only
          split_ifs
          · exact Ensures.throw _
          · have value : Ensures (fun _ => True) (resolveValue l i.name e.name node e.type)
                fun _ => True := by
              intro s _
              cases resolveValue l i.name e.name node e.type s <;> simp
            refine value.bind fun v _ => (ih (a.insert own v)).weaken fun b has => ?_
            rw [has, Annotation.contains_insert, or_comm (a := own = name), or_assoc]
            simp

section

variable (answers : l.AnswersSame fun r t => I r ∧ I t) (hr : I r)

include answers hr

/-- What pairs come to does not depend on an element that none of them names. -/
lemma returns_resolvePairs_insert {name : String} : ∀ {pairs : List PairNode} {a : Annotation},
    (∀ p ∈ pairs, p.name ≠ name) → Returns I (resolvePairs l i pairs a) b →
    Returns I (resolvePairs l i pairs (a.insert name v)) (b.insert name v)
  | [], a, _, h => by
      rw [resolvePairs] at h ⊢
      rw [Returns.eq_of_pure hr h]
      exact .pure _
  | ⟨own, node, span⟩ :: pairs, a, others, h => by
      obtain ⟨apart, others⟩ := List.forall_mem_cons.1 others
      rw [resolvePairs] at h ⊢
      cases known : i.element? own with
      | none =>
          rw [known] at h
          exact (Returns.not_throw hr h).elim
      | some e =>
          simp only [known] at h ⊢
          by_cases there : a.contains own = true
          · rw [if_pos there] at h
            exact (Returns.not_throw hr h).elim
          · have new : ¬ (a.insert name v).contains own = true := by
              rw [contains_insert, not_or]
              exact ⟨Ne.symm apart, there⟩
            rw [if_neg there] at h
            rw [if_neg new]
            obtain ⟨w, value, rest⟩ := (sameFrom_resolveValue answers i.name e.name node
              e.type).of_bind (fun w => ⟨follows_resolvePairs answers.resolvesLike i
                (fun _ _ _ _ => trivial) pairs _⟩) hr h
            refine value.bind ?_
            rw [insert_comm apart]
            exact returns_resolvePairs_insert others rest

end

/-! ## Filling in -/

section

variable (hr : I r)

include hr

/-- Places matter to errors only. -/
lemma returns_fillMissing_at {interface : String} {offset : Nat} (offset' : Nat) :
    ∀ {elements : List Element} {a : Annotation},
      Returns I (fillMissing interface offset d elements a) b →
      Returns I (fillMissing interface offset' d elements a) b
  | [], _, h => h
  | e :: elements, a, h => by
      rw [fillMissing] at h ⊢
      split_ifs at h ⊢ with there
      · exact returns_fillMissing_at offset' h
      · cases found : d.get? e.name with
        | none =>
            rw [found] at h
            exact (Returns.not_throw hr h).elim
        | some v =>
            simp only [found] at h ⊢
            exact returns_fillMissing_at offset' h

/-- An element that would get its default may as well have it before. -/
lemma returns_fillMissing_insert {interface : String} {offset : Nat} (offset' : Nat)
    (default : d.get? e.name = some v) : ∀ {elements : List Element} {a : Annotation},
      e ∈ elements → ¬ a.contains e.name = true →
      Returns I (fillMissing interface offset d elements a) b →
      Returns I (fillMissing interface offset' d elements (a.insert e.name v)) b
  | e' :: elements, a, mem, missing, h => by
      rw [fillMissing] at h ⊢
      by_cases same : e'.name = e.name
      · have there : (a.insert e.name v).contains e'.name = true :=
          Annotation.contains_insert.2 (.inl same.symm)
        rw [same, if_neg missing, default] at h
        rw [if_pos there]
        exact returns_fillMissing_at hr offset' h
      · have later : e ∈ elements :=
          (List.mem_cons.1 mem).resolve_left fun here => same (congrArg Element.name here.symm)
        have as_before : (a.insert e.name v).contains e'.name = true ↔ a.contains e'.name = true :=
          Annotation.contains_insert.trans (or_iff_right (Ne.symm same))
        simp only [as_before]
        split_ifs at h ⊢ with there
        · exact returns_fillMissing_insert offset' default later missing h
        · cases found : d.get? e'.name with
          | none =>
              rw [found] at h
              exact (Returns.not_throw hr h).elim
          | some w =>
              simp only [found] at h ⊢
              rw [insert_comm same]
              refine returns_fillMissing_insert offset' default later ?_ h
              rwa [contains_insert, or_iff_right same]

end

/-! ## Annotations -/

section

variable (answers : l.AnswersSame fun r t => I r ∧ I t) (hr : I r)

include answers hr

/-- An annotation resolved against given defaults is the same with a pair for an element that has
none, if the pair comes to the default. -/
lemma returns_resolveAgainst_insert {name : String} {front back : List PairNode} {span : Span}
    (span' place : Span) (mem : e ∈ i.elements) (known : i.element? e.name = some e)
    (absent : ∀ p ∈ front ++ back, p.name ≠ e.name) (default : d.get? e.name = some v)
    (value : Returns I (resolveValue l i.name e.name n e.type) v)
    (h : Returns I (resolveAgainst l i d ⟨name, front ++ back, span⟩) b) :
    Returns I (resolveAgainst l i d ⟨name, front ++ ⟨e.name, n, place⟩ :: back, span'⟩) b := by
  have pairsSame : ∀ pairs a, SameFrom (fun r t => I r ∧ I t) (resolvePairs l i pairs a) :=
    fun pairs a =>
      ⟨follows_resolvePairs answers.resolvesLike i (fun _ _ _ _ => trivial) pairs a⟩
  have fillSame : ∀ offset a, SameFrom (fun r t => I r ∧ I t)
      (fillMissing i.name offset d i.elements a) :=
    fun offset a => ⟨follows_fillMissing _ _ _ _ _⟩
  unfold resolveAgainst at h ⊢
  obtain ⟨whole, pairs, filled⟩ := (pairsSame _ _).of_bind (fillSame _) hr h
  rw [resolvePairs_append] at pairs
  obtain ⟨first, fronted, backed⟩ := (pairsSame _ _).of_bind (pairsSame _) hr pairs
  -- No pair gives the element, neither those before the new one nor all of them.
  have missing : ∀ {pairs a}, (∀ p ∈ pairs, p.name ≠ e.name) →
      Returns I (resolvePairs l i pairs (.empty i.name)) a → ¬ a.contains e.name = true := by
    intro pairs a others returns
    obtain ⟨_, -, ran⟩ := returns r hr
    have has := ((ensures_contains_resolvePairs e.name pairs _).ok trivial ran).1
    rintro there
    rcases has.1 there with inside | ⟨p, hp, same⟩
    · cases inside
    · exact others p hp same
  have before : ∀ p ∈ front, p.name ≠ e.name := fun p hp => absent p (List.mem_append_left _ hp)
  have behind : ∀ p ∈ back, p.name ≠ e.name := fun p hp => absent p (List.mem_append_right _ hp)
  refine Returns.bind (a := whole.insert e.name v) ?_ ?_
  · rw [resolvePairs_append]
    refine fronted.bind ?_
    rw [resolvePairs, known]
    dsimp only
    rw [if_neg (missing before fronted)]
    exact value.bind (returns_resolvePairs_insert answers hr behind backed)
  · refine returns_fillMissing_insert hr _ default mem (missing absent ?_) filled
    rw [resolvePairs_append]
    exact fronted.bind backed

end

/-- An annotation resolved against the defaults of its interface, which are loaded for it. -/
def resolveLoaded (l : Loader) (i : Interface) (node : AnnotationNode) : Resolve Annotation := do
  resolveAgainst l i (← l.defaultsAt i node.span.start) node

/-- An annotation whose defaults are loaded resolves to the same from related registries. -/
lemma sameFrom_resolveLoaded {R : Registry → Registry → Prop} (answers : l.AnswersSame R)
    (known : l.types.Knows i) (node : AnnotationNode) : SameFrom R (resolveLoaded l i node) :=
  ((answers i known).adaptExcept _).bind fun d => sameFrom_resolveAgainst answers i d node

/-- So is a whole literal. -/
lemma resolveRoot_eq {node : AnnotationNode} (found : l.types.findAnnotation? node.name = some i) :
    resolveRoot l node = do return some (← resolveLoaded l i node) := by
  rw [resolveRoot, found]
  simp only [resolveLoaded, bind_assoc]

/-- So is an annotation inside another. -/
lemma resolveValue_nested {interface element declared : String} {node : AnnotationNode}
    (found : l.types.annotation? declared = some i) :
    resolveValue l interface element (.nested node) (.interface declared) =
      if i.isNamed node.name = true then do return .nested (← resolveLoaded l i node)
      else failAt interface node.span.start (.wrongInterface element i.name node.name) := by
  obtain ⟨name, pairs, span⟩ := node
  rw [resolveValue, found]
  simp only [resolveLoaded, resolveAgainst, bind_assoc]

/-! ## Defaults that were loaded -/

/-- Among the defaults that are filled in is the value that was stored. -/
lemma get?_of_defaultsAt {offset : Nat} (once : l.types.DeclaresOnce) (known : l.types.Knows i)
    (supplied : ∀ e ∈ i.elements, (l.defaults i.name e.name).isSome → ∃ v, l.Supplies i e v)
    (loads : Returns l.Computed (l.defaultsAt i offset) d) (mem : e ∈ i.elements)
    (supplies : l.Supplies i e v) : d.get? e.name = some v := by
  obtain ⟨r, -, ran⟩ := loads.of_adaptExcept .empty Loader.computed_empty
  rcases Loader.decodesTo_or_tooDeep once known supplied with
    ⟨d', decodes, values⟩ | ⟨_, -, _, -, -, decodes⟩
  · obtain ⟨r', -, ran'⟩ := Loader.comes_defaultsFor known decodes .empty Loader.computed_empty
    cases ran.symm.trans ran'
    exact (values e mem v supplies).2
  · obtain ⟨r', -, ran'⟩ := Loader.comes_defaultsFor known decodes .empty Loader.computed_empty
    cases ran.symm.trans ran'

/-- Wherever else an annotation is resolved with its defaults, it is the same with a pair for an
element that has none, if the pair comes to what was stored. -/
lemma returns_resolved_insert (decodes : ∀ i, l.types.Knows i → ∃ x, l.DecodesTo i x)
    (once : l.types.DeclaresOnce) (known : l.types.Knows i)
    (supplied : ∀ e ∈ i.elements, (l.defaults i.name e.name).isSome → ∃ v, l.Supplies i e v)
    {name : String} {front back : List PairNode} {span : Span} (span' place : Span)
    (mem : e ∈ i.elements) (absent : ∀ p ∈ front ++ back, p.name ≠ e.name)
    (supplies : l.Supplies i e v)
    (value : Returns l.Computed (resolveValue l i.name e.name n e.type) v)
    (h : Returns l.Computed (resolveLoaded l i ⟨name, front ++ back, span⟩) b) :
    Returns l.Computed (resolveLoaded l i ⟨name, front ++ ⟨e.name, n, place⟩ :: back, span'⟩)
      b := by
  have answers := Loader.answersSame_of_decodes decodes
  have loadsSame : SameFrom (fun r t => l.Computed r ∧ l.Computed t) (l.defaultsAt i span.start) :=
    (answers i known).adaptExcept _
  obtain ⟨d, loads, resolved⟩ := loadsSame.of_bind
    (fun d => sameFrom_resolveAgainst answers i d _) Loader.computed_empty h
  have default := get?_of_defaultsAt once known supplied loads mem supplies
  exact (loads.of_adaptExcept.adaptExcept _).bind (returns_resolveAgainst_insert answers
    Loader.computed_empty span' place mem (Interface.element?_of_mem (once i known) mem) absent
    default value resolved)

/-! ## Loaded indexes -/

section

variable {schema : Schema} {index : TypeIndex} (loaded : TypeIndex.ofSchema schema = .ok index)
  (plain : ∀ name ∈ schema.typeNames, PlainName name) (token : ModuleToken)

include loaded plain

/-- **Leaving an element out is the same as writing its default.**  Over a loaded index with plain
type names, the literal of a declared default has a tree.  If an annotation that has no pair for the
element resolves, as a whole literal or inside another one, it resolves to the same with a pair of
the element and this tree put anywhere among its pairs; whatever was done before either. -/
theorem omitted_as_written (operations others : List Operation) {d : InterfaceDeclaration}
    (declared : d ∈ schema.annotations) {e : ElementDeclaration} (mem : e ∈ d.elements)
    {literal : String} (default : e.default = some literal) :
    let l := index.loader token
    ∃ n, Node.parse literal = .ok n ∧
      ∀ (name : String) (front back : List PairNode) (span span' place : Span),
        (∀ p ∈ front ++ back, p.name ≠ e.name) →
        let without : AnnotationNode := ⟨name, front ++ back, span⟩
        let written : AnnotationNode := ⟨name, front ++ ⟨e.name, n, place⟩ :: back, span'⟩
        (∀ i a r, l.types.findAnnotation? name = some i → i.name = d.name →
          resolveRoot l without (l.registryAfter operations) = .ok (some a) r →
          ∃ r', resolveRoot l written (l.registryAfter others) = .ok (some a) r') ∧
        ∀ interface element v r,
          resolveValue l interface element (.nested without) (.interface d.name)
            (l.registryAfter operations) = .ok v r →
          ∃ r', resolveValue l interface element (.nested written) (.interface d.name)
            (l.registryAfter others) = .ok v r' := by
  intro l
  have once : l.types.DeclaresOnce := TypeIndex.declaresOnce loaded
  have names := plainNames_of_ofSchema loaded plain
  have decodes : ∀ i, l.types.Knows i → ∃ x, l.DecodesTo i x :=
    decodes_of_ofSchema loaded token
  have answers := Loader.answersSame_of_decodes decodes
  have before : l.Computed (l.registryAfter operations) :=
    Loader.computed_registryAfter decodes operations
  have before' : l.Computed (l.registryAfter others) := Loader.computed_registryAfter decodes others
  obtain ⟨i, found, -⟩ := TypeIndex.annotation?_of_declared loaded declared
  have knows : l.types.Knows i := TypeLookup.knows_of_annotation? found
  obtain ⟨element, mem', named⟩ := exists_element_of_declared loaded declared mem found
  obtain ⟨v, ⟨n, _, parsed, reads⟩, -, supplies⟩ := supplies_of_declared loaded names token knows
    mem' declared (index.name_of_annotation? found).symm mem named.symm default
  have value : Returns l.Computed (resolveValue l i.name element.name n element.type) v :=
    (sameFrom_resolveValue answers _ _ _ _).returns Loader.computed_empty reads
  have supplied : ∀ e ∈ i.elements, (l.defaults i.name e.name).isSome → ∃ v, l.Supplies i e v :=
    fun e mem stored => (default_of_stored loaded names token knows mem stored).imp
      fun _ => And.right
  refine ⟨n, parsed, fun name front back span span' place absent => ?_⟩
  rw [← named] at absent ⊢
  have put := fun b (h : Returns l.Computed (resolveLoaded l i ⟨name, front ++ back, span⟩) b) =>
    returns_resolved_insert decodes once knows supplied span' place mem' absent supplies value h
  refine ⟨fun j a r found' same ran => ?_, fun interface element' w r ran => ?_⟩
  · -- The interface of the literal is the one that was declared.
    have here : j = i := by
      have knows' := l.types.annotation?_of_find found'
      rw [same] at knows'
      exact Option.some.inj (knows'.symm.trans found)
    subst here
    have root := (sameFrom_resolveRoot answers _).returns before ran
    rw [resolveRoot_eq found'] at root
    obtain ⟨b, returns, ⟨⟩⟩ := (sameFrom_resolveLoaded answers knows _).of_map before root
    obtain ⟨r', -, ran'⟩ := (put _ returns).map (g := some) _ before'
    exact ⟨r', by rw [resolveRoot_eq found']; exact ran'⟩
  · have inner := (sameFrom_resolveValue answers _ _ _ _).returns before ran
    rw [resolveValue_nested found] at inner ⊢
    split_ifs at inner ⊢ with called
    · obtain ⟨b, returns, rfl⟩ := (sameFrom_resolveLoaded answers knows _).of_map before inner
      obtain ⟨r', -, ran'⟩ := (put _ returns).map (g := Value.nested) _ before'
      exact ⟨r', ran'⟩
    · exact (Returns.not_throw before inner).elim

end

/-- A point without `x` resolves to the same with the default of `x` written behind its unit, as a
whole literal and inside a shape. -/
theorem omitted_as_written_samplePoint :
    let l := sampleIndex.loader ⟨0⟩
    let unit : PairNode := ⟨"unit", .literal .identifier "Unit.CM" {}, {}⟩
    ∃ n, Node.parse "7" = .ok n ∧
      let without : AnnotationNode := ⟨"Point", [unit], {}⟩
      let written : AnnotationNode := ⟨"Point", [unit, ⟨"x", n, {}⟩], {}⟩
      (∃ a r r', resolveRoot l without .empty = .ok (some a) r
        ∧ resolveRoot l written .empty = .ok (some a) r') ∧
      ∃ v r r', resolveValue l "p.Shape" "at" (.nested without) (.interface "p.Point") .empty
          = .ok v r
        ∧ resolveValue l "p.Shape" "at" (.nested written) (.interface "p.Point") .empty
          = .ok v r' := by
  intro l unit
  have declared : (⟨"p.Point", [⟨"unit", "()Lp/Unit;", none⟩, ⟨"x", "()I", some "7"⟩]⟩ :
      InterfaceDeclaration) ∈ sampleSchema.annotations := List.mem_cons_self
  obtain ⟨n, parsed, same⟩ := omitted_as_written ofSchema_sampleSchema (by decide) ⟨0⟩ [] []
    declared (e := ⟨"x", "()I", some "7"⟩) (by simp) rfl
  obtain ⟨root, nested⟩ := same "Point" [unit] [] {} {} {} (by decide)
  refine ⟨n, parsed, ?_, ?_⟩
  · have resolves : (returned (resolveRoot l ⟨"Point", [unit], {}⟩ .empty)).any Option.isSome
        = true := by
      decide +kernel
    obtain ⟨found, resolved, some_⟩ := (Option.any_eq_true _ _).1 resolves
    obtain ⟨a, rfl⟩ := Option.isSome_iff_exists.1 some_
    obtain ⟨r, ran⟩ := exists_of_returned resolved
    have found : l.types.findAnnotation? "Point"
        = some ⟨"p.Point", [⟨"unit", .enum "p.Unit", "()Lp/Unit;"⟩, ⟨"x", .int, "()I"⟩]⟩ := by
      decide +kernel
    obtain ⟨r', ran'⟩ := root _ a r found rfl ran
    exact ⟨a, r, r', ran, ran'⟩
  · have resolves : (returned (resolveValue l "p.Shape" "at" (.nested ⟨"Point", [unit], {}⟩)
        (.interface "p.Point") .empty)).isSome = true := by
      decide +kernel
    obtain ⟨v, resolved⟩ := Option.isSome_iff_exists.1 resolves
    obtain ⟨r, ran⟩ := exists_of_returned resolved
    obtain ⟨r', ran'⟩ := nested "p.Shape" "at" v r ran
    exact ⟨v, r, r', ran, ran'⟩

end DocAnnotations
