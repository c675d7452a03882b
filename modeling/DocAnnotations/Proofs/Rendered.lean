import DocAnnotations.Proofs.Defaults.Grounded
import DocAnnotations.Proofs.Node.Nesting
import DocAnnotations.Proofs.Value.Text

/-!
# Rendered values are resolved to themselves

The value that a literal comes to has all elements of all its annotations, so resolving its own text
has nothing to fill in.

**Resolving the tree of a value.**  The elements stand in the text in the order of their names, and
each is put behind those before it.  What resolution does beyond that is to load the defaults of
every interface that occurs; they load because the value is grounded.  `Returns I p a` says that
from every state with the invariant the computation returns `a` and keeps the invariant.

**`compile_render`**: over a loaded index with Java-style names, the text of a value that a literal
came to compiles to this value, whatever was done before and in between, unless it is nested more
deeply than the parser goes.
-/

namespace DocAnnotations

open Grammar

/-! ## Computations that return -/

section

variable {ε ε' σ α β : Type} {I : σ → Prop} {p : EStateM ε σ α} {f : α → EStateM ε σ β} {a : α}
  {b : β}

/-- From every state with the invariant a computation returns the value, and keeps the
invariant. -/
def Returns (I : σ → Prop) (p : EStateM ε σ α) (a : α) : Prop :=
  ∀ s, I s → ∃ s', I s' ∧ p s = .ok a s'

namespace Returns

lemma pure (a : α) : Returns I (pure a : EStateM ε σ α) a := fun s h => ⟨s, h, rfl⟩

/-- Computations in a row return a value, if the first returns one from which the second returns
it. -/
lemma bind (hp : Returns I p a) (hf : Returns I (f a) b) : Returns I (p >>= f) b := by
  intro s h
  obtain ⟨s', h', hp⟩ := hp s h
  obtain ⟨s'', h'', hf⟩ := hf s' h'
  exact ⟨s'', h'', by simp only [Bind.bind, EStateM.bind, hp]; exact hf⟩

lemma adaptExcept (hp : Returns I p a) (g : ε → ε') : Returns I (p.adaptExcept g) a := by
  intro s h
  obtain ⟨s', h', hp⟩ := hp s h
  exact ⟨s', h', by rw [EStateM.adaptExcept, hp]⟩

end Returns

end

/-! ## Resolving the tree of a value -/

variable {l : Loader} {I : Registry → Prop} {i : Interface} {a d : Annotation} {v : Value}

/-- Defaults that load do so wherever they are asked for. -/
lemma returns_defaultsAt (known : l.types.Knows i) (loads : l.Loads i) (offset : Nat) :
    ∃ d, Returns l.Computed (l.defaultsAt i offset) d := by
  obtain ⟨d, decodes⟩ := loads
  have returns : Returns l.Computed (l.defaultsFor i) d := Loader.comes_defaultsFor known decodes
  exact ⟨d, returns.adaptExcept _⟩

/-- Where nothing is missing, nothing is filled in. -/
lemma returns_fillMissing {interface : String} {offset : Nat} :
    ∀ {elements : List Element}, (∀ e ∈ elements, a.contains e.name = true) →
      Returns I (fillMissing interface offset d elements a) a
  | [], _ => .pure a
  | e :: elements, has => by
      obtain ⟨here, others⟩ := List.forall_mem_cons.1 has
      rw [fillMissing, if_pos here]
      exact returns_fillMissing others

/-- If each value is resolved from its own node, so are all values of an array, in order. -/
lemma returns_resolveValues {interface element : String} {type : ElementType} :
    ∀ {vs : List Value} (found : List Value),
      (∀ v ∈ vs, Returns I (resolveValue l interface element v.node type) v) →
      Returns I (resolveValues l interface element type (valueNodes vs) found) (found.reverse ++ vs)
  | [], found, _ => by
      rw [valueNodes, resolveValues, List.append_nil]
      exact .pure _
  | v :: vs, found, values => by
      obtain ⟨first, others⟩ := List.forall_mem_cons.1 values
      rw [valueNodes, resolveValues]
      refine first.bind ?_
      have rest := returns_resolveValues (v :: found) others
      rwa [List.reverse_cons, List.append_assoc] at rest

/-- Elements in the order of their names are put behind those already there. -/
lemma returns_resolvePairs (typeName : String) :
    ∀ {es : List (String × Value)} (own : List (String × Value)),
      (∀ p ∈ es, ∃ e, i.element? p.1 = some e ∧
        Returns I (resolveValue l i.name e.name p.2.node e.type) p.2) →
      es.Pairwise (fun p q => p.1 < q.1) → (∀ p ∈ own, ∀ q ∈ es, p.1 < q.1) →
      Returns I (resolvePairs l i (pairNodes es) ⟨typeName, own⟩) ⟨typeName, own ++ es⟩
  | [], own, _, _, _ => by
      rw [pairNodes, resolvePairs, List.append_nil]
      exact .pure _
  | (name, v) :: es, own, values, ordered, behind => by
      obtain ⟨⟨e, known, first⟩, others⟩ := List.forall_mem_cons.1 values
      obtain ⟨new, appended, ahead⟩ :=
        Annotation.insert_behind typeName behind ordered v
      have rest := returns_resolvePairs typeName (own ++ [(name, v)]) others
        (List.pairwise_cons.1 ordered).2 ahead
      rw [List.append_assoc] at rest
      rw [pairNodes, resolvePairs, known]
      dsimp only
      rw [if_neg new]
      refine first.bind ?_
      rw [appended]
      exact rest

/-- The pairs of an annotation give the annotation, and there is nothing to add to it. -/
lemma returns_annotation (found : l.types.annotation? a.typeName = some i)
    (resolved : l.types.Resolved (.nested a))
    (inside : ∀ p ∈ a.elements, ∀ {type : ElementType}, p.2.conforms type = true →
      ∀ interface element, Returns I (resolveValue l interface element p.2.node type) p.2) :
    Returns I (resolvePairs l i a.node.pairs (.empty i.name)) a ∧
      ∀ offset d, Returns I (fillMissing i.name offset d i.elements a) a := by
  obtain ⟨j, found', ordered, has, declared⟩ := resolved
  cases Option.some.inj (found.symm.trans found')
  obtain ⟨typeName, elements⟩ := a
  have named : i.name = typeName := l.types.name_of_annotation? found
  subst named
  have values : ∀ p ∈ elements, ∃ e, i.element? p.1 = some e ∧
      Returns I (resolveValue l i.name e.name p.2.node e.type) p.2 := fun p hp => by
    obtain ⟨e, known, typed⟩ := declared p hp
    exact ⟨e, known, inside p hp typed _ _⟩
  exact ⟨returns_resolvePairs i.name [] values ordered (by simp),
    fun _ _ => returns_fillMissing fun e he => (has e.name).2 ⟨e, he, rfl⟩⟩

/-- **The tree of a value is resolved to the value.** -/
theorem returns_resolveValue (names : l.types.JavaNames) (finds : l.types.FindsLoadable)
    (qualified : l.types.FindsQualified) :
    ∀ {type : ElementType}, v.conforms type = true → v.Everywhere l.Grounded →
      ∀ interface element,
        Returns l.Computed (resolveValue l interface element v.node type) v := by
  induction v using Value.treeInduction with
  | nested a ih =>
      intro type typed grounded interface element
      obtain ⟨⟨⟨resolved, -⟩, loads⟩, inside⟩ := everywhere_nested.1 grounded
      cases type with
      | interface declared =>
          obtain ⟨i, found, -⟩ := id resolved
          obtain ⟨d, defaults⟩ := returns_defaultsAt (TypeLookup.knows_of_annotation? found)
            (loads a i rfl found) 0
          obtain ⟨pairs, filled⟩ := returns_annotation found resolved
            fun p hp _ typed => ih p hp typed (inside p hp)
          obtain ⟨typeName, elements⟩ := a
          cases beq_iff_eq.1 typed
          have called : i.isNamed typeName = true := by
            rw [Interface.isNamed, l.types.name_of_annotation? found, beq_self_eq_true,
              Bool.true_or]
          rw [Value.node, Annotation.node, resolveValue, found]
          dsimp only
          rw [if_pos called]
          exact defaults.bind (pairs.bind ((filled 0 d).bind (.pure _)))
      | _ => cases typed
  | array vs ih =>
      intro type typed grounded interface element
      obtain ⟨-, inside⟩ := everywhere_array.1 grounded
      cases type with
      | array inner =>
          rw [Value.conforms, allConform_iff] at typed
          have values := returns_resolveValues [] fun v hv =>
            ih v hv (typed v hv) (inside v hv) interface element
          rw [Value.node, resolveValue]
          exact values.bind (.pure _)
      | _ => cases typed
  | _ =>
      intro type typed grounded interface element
      have read := literalValue_chars names finds qualified
        (TypeLookup.Unchanged.literal grounded.1 typed (by simp) (by simp)) element
      change Returns _ (resolveValue l interface element (.literal _ _ {}) type) _
      rw [resolveValue, read]
      exact .pure _

/-- A whole annotation is found by its name and resolved to itself. -/
lemma returns_resolveRoot (names : l.types.JavaNames) (finds : l.types.FindsLoadable)
    (qualified : l.types.FindsQualified) (grounded : (Value.nested a).Everywhere l.Grounded) :
    Returns l.Computed (resolveRoot l a.node) (some a) := by
  obtain ⟨⟨⟨resolved, -⟩, loads⟩, inside⟩ := everywhere_nested.1 grounded
  obtain ⟨i, found, -⟩ := id resolved
  obtain ⟨d, defaults⟩ := returns_defaultsAt (TypeLookup.knows_of_annotation? found)
    (loads a i rfl found) 0
  obtain ⟨pairs, filled⟩ := returns_annotation found resolved
    fun p hp _ typed => returns_resolveValue names finds qualified typed (inside p hp)
  obtain ⟨typeName, elements⟩ := a
  have written : l.types.findAnnotation? typeName = some i := qualified.interfaces found
  rw [resolveRoot, Annotation.node, written]
  exact defaults.bind ((pairs.bind (filled 0 d)).bind (.pure _))

/-! ## Compiling the text of a value -/

/-- What resolves, resolves from every tree that differs in places only. -/
lemma Alike.returns {α : Type} {x y : Resolve α} {a : α} (h : Alike x y) (returns : Returns I y a) :
    Returns I x a := by
  intro r hr
  obtain ⟨r', hr', ran⟩ := returns r hr
  have same := congrFun h r
  simp only [EStateM.adaptExcept, ran] at same
  refine ⟨r', hr', ?_⟩
  cases ranX : x r with
  | ok b s =>
      rw [ranX] at same
      cases same
      rfl
  | error e s =>
      rw [ranX] at same
      cases same

/-- The text of a grounded annotation compiles to it. -/
lemma returns_compileLiteral (names : l.types.JavaNames) (finds : l.types.FindsLoadable)
    (qualified : l.types.FindsQualified) (grounded : (Value.nested a).Everywhere l.Grounded)
    (nests : NestsWithin a.render maxNesting) :
    Returns l.Computed (compileLiteral l a.render) (some a) := by
  have unchanged := grounded.mono fun _ here => here.1
  obtain ⟨⟨resolved, -⟩, inside⟩ := everywhere_nested.1 unchanged
  obtain ⟨i, -, -, -, declared⟩ := id resolved
  obtain ⟨cs, text, written⟩ := writtenAnnotation_chars names resolved fun p hp => by
    obtain ⟨e, -, typed⟩ := declared p hp
    exact writtenValue_chars names typed (inside p hp)
  obtain ⟨tokens, tree, depth, cut, derived, same⟩ := exists_root_of_marked written
  rw [← text] at cut
  have parsed : AnnotationNode.parse a.render = .ok tree :=
    annotation_parse_iff.2 ⟨tokens, depth, cut, derived, nests tokens tree depth cut derived⟩
  have root : Returns l.Computed (resolveRoot l tree) (some a) :=
    (resolveRoot_unspanned l tree).returns
      (same ▸ returns_resolveRoot names finds qualified grounded)
  rw [compileLiteral, parsed]
  exact root.adaptExcept _

/-- **Rendered values compile to themselves.** -/
theorem compile_render {schema : Schema} {index : TypeIndex}
    (loaded : TypeIndex.ofSchema schema = .ok index) (names : schema.JavaNames)
    (token : ModuleToken) (operations others : List Operation) {text : String} {r : Registry} :
    let l := index.loader token
    compileLiteral l text (l.registryAfter operations) = .ok (some a) r →
      NestsWithin a.render maxNesting →
      ∃ r', compileLiteral l a.render (l.registryAfter others) = .ok (some a) r' := by
  intro l compiled nests
  have java := javaNames_of_ofSchema loaded names
  have grounded :=
    compiled_everywhere_grounded loaded java.plainNames token operations compiled
  have computed : l.Computed (l.registryAfter others) := Loader.computed_registryAfter
    (fun i _ => (exists_decodesTo_of_ofSchema loaded token i).imp fun _ => And.right) others
  obtain ⟨r', -, ran⟩ := returns_compileLiteral java index.findsLoadable index.findsQualified
    grounded nests _ computed
  exact ⟨r', ran⟩

/-- A shape with a class, a character and a point inside, all written out. -/
theorem compile_render_sampleShape :
    let l := sampleIndex.loader ⟨0⟩
    ∃ a r r', compileLiteral l "Shape(at = @Point(unit = Unit.CM), mark = '\\t')" .empty
        = .ok (some a) r
      ∧ a.render = "@p.Shape(at=@p.Point(unit=p.Unit.CM, x=7), keys=\x7bint.class\x7d, mark='\\t')"
      ∧ NestsWithin a.render maxNesting
      ∧ compileLiteral l a.render .empty = .ok (some a) r' := by
  intro l
  have compiled : (returned (compileLiteral l "Shape(at = @Point(unit = Unit.CM), mark = '\\t')"
      .empty)).any (fun found => found.any fun a => decide (a.render
        = "@p.Shape(at=@p.Point(unit=p.Unit.CM, x=7), keys=\x7bint.class\x7d, mark='\\t')"))
      = true := by
    decide +kernel
  obtain ⟨found, resolved, some_⟩ := (Option.any_eq_true _ _).1 compiled
  obtain ⟨a, rfl, text⟩ := (Option.any_eq_true _ _).1 some_
  obtain ⟨r, ran⟩ := exists_of_returned resolved
  have text := of_decide_eq_true text
  have names : sampleSchema.JavaNames :=
    ⟨by decide +kernel, by decide +kernel, by decide +kernel, by decide +kernel⟩
  obtain ⟨ts, cut, count⟩ : ∃ ts, tokenize a.render = .ok ts ∧ ts.length = 28 := by
    rw [text]
    exact exists_of_map_toOption (by decide +kernel)
  have nests : NestsWithin a.render maxNesting :=
    nestsWithin_of_length_le cut (by rw [count]; decide)
  obtain ⟨r', again⟩ := compile_render ofSchema_sampleSchema names ⟨0⟩ [] [] ran nests
  exact ⟨a, r, r', ran, text, nests, again⟩

end DocAnnotations
