import DocAnnotations.Proofs.Literal

/-!
# What resolution puts together

Resolving a literal makes values of three kinds: single literals, arrays of values of one type, and
annotations in which every declared element has a value of its type, its own or a default.  A
property `P` that all of these have is `Assembled`.

**`ensures_resolveValue`** and **`ensures_compileLiteral`** say that such a property holds
everywhere in what resolution returns, provided it holds everywhere in the defaults that are loaded,
and that resolution in turn leaves only such defaults in the registry.  The statements follow the
three functions that call one another: values, lists of values, lists of pairs.

Since no annotation is put together before the defaults of its interface have been loaded, the
property may also say of each annotation what is known of an interface whose defaults load; and the
registry may have any further property that loading keeps (`Loader.KeepsWith`). -/

namespace DocAnnotations

open Attribute
open Annotation (contains_insert)

variable {l : Loader} {P : Value → Prop} {I : Registry → Prop} {Loads : Interface → Prop}

/-- A property of all single literals, of arrays, and of annotations that have exactly the declared
elements, each with a value of its declared type. -/
structure TypeLookup.Assembled (types : TypeLookup) (P : Value → Prop) : Prop where
  literal : ∀ {expected v}, types.Literal expected v → P v
  array : ∀ vs, P (.array vs)
  nested : ∀ {a i}, types.annotation? a.typeName = some i → a.Ordered →
    (∀ p ∈ a.elements, i.Declares p) → (∀ e ∈ i.elements, a.contains e.name = true) →
    P (.nested a)

/-- Defaults, names and everything that resolution puts together have the property. -/
structure Loader.Keeps (l : Loader) (P : Value → Prop) : Prop where
  answers : l.AnswersGood P l.defaultsFor
  finds : l.types.FindsLoadable
  assembled : l.types.Assembled P

/-- The same, where loading keeps the invariant `I` of the registry and establishes `Loads` of the
interface whose defaults were loaded. -/
structure Loader.KeepsWith (l : Loader) (I : Registry → Prop) (Loads : Interface → Prop)
    (P : Value → Prop) : Prop where
  answers : ∀ i, l.types.Knows i → Ensures I (l.defaultsFor i) fun d =>
    Loads i ∧ l.GoodDefaults P i d
  finds : l.types.FindsLoadable
  literal : ∀ {expected v}, l.types.Literal expected v → P v
  array : ∀ vs, P (.array vs)
  nested : ∀ {a i}, l.types.annotation? a.typeName = some i → Loads i → a.Ordered →
    (∀ p ∈ a.elements, i.Declares p) → (∀ e ∈ i.elements, a.contains e.name = true) →
    P (.nested a)

/-- The invariant alone is an instance of the one with a condition on what was loaded. -/
lemma Loader.Keeps.keepsWith (keeps : l.Keeps P) : l.KeepsWith (l.Holds P) (fun _ => True) P where
  answers i known := (keeps.answers i known).weaken fun _ good => ⟨trivial, good⟩
  finds := keeps.finds
  literal := keeps.assembled.literal
  array := keeps.assembled.array
  nested found _ := keeps.assembled.nested found

/-- What resolution returns for an element of a type. -/
def ResolvedTo (P : Value → Prop) (expected : ElementType) (v : Value) : Prop :=
  v.conforms expected = true ∧ v.Everywhere P

lemma allConform_iff {expected : ElementType} : ∀ {vs : List Value},
    allConform vs expected = true ↔ ∀ v ∈ vs, v.conforms expected = true
  | [] => by simp [allConform]
  | v :: vs => by rw [allConform, Bool.and_eq_true, List.forall_mem_cons, allConform_iff]

/-! ## Filling in defaults -/

section

variable {i : Interface} {a d : Annotation}

/-- Every element is there after defaults were filled in, and none that is not declared. -/
lemma ensures_fillMissing {interface : String} {offset : Nat} (defaults : l.GoodDefaults P i d) :
    ∀ (rest done : List Element) (a : Annotation), done ++ rest = i.elements →
      l.GoodFor P i [] a → (∀ e ∈ done, a.contains e.name = true) →
      Ensures I (fillMissing interface offset d rest a) fun b =>
        l.GoodFor P i [] b ∧ ∀ e ∈ i.elements, b.contains e.name = true
  | [], done, a, split, good, has => by
      rw [List.append_nil] at split
      subst split
      exact Ensures.pure ⟨good, has⟩
  | e :: rest, done, a, split, good, has => by
      have next : (done ++ [e]) ++ rest = i.elements := by simpa using split
      rw [fillMissing]
      split_ifs with there
      · refine ensures_fillMissing defaults rest _ a next good fun e' he' => ?_
        rcases List.mem_append.1 he' with he' | he'
        · exact has e' he'
        · rw [List.mem_singleton.1 he']
          exact there
      · cases h : d.get? e.name with
        | none => exact Ensures.throw _
        | some v =>
            have mem : (e.name, v) ∈ d.elements := mem_of_lookupElement h
            obtain ⟨e', known, typed⟩ := defaults.declared _ mem
            refine ensures_fillMissing defaults rest _ _ next
              (good.insertRead known typed (defaults.inside _ mem)) fun e' he' => ?_
            rw [contains_insert]
            rcases List.mem_append.1 he' with he' | he'
            · exact Or.inr (has e' he')
            · exact Or.inl (by rw [List.mem_singleton.1 he'])

/-- An annotation that has everything is one that resolution may return. -/
lemma Loader.KeepsWith.everywhere_of_filled (keeps : l.KeepsWith I Loads P)
    (known : l.types.Knows i) (loads : Loads i) (good : l.GoodFor P i [] a)
    (has : ∀ e ∈ i.elements, a.contains e.name = true) : (Value.nested a).Everywhere P := by
  have found : l.types.annotation? a.typeName = some i := by rw [good.typeName, known]
  exact everywhere_nested.2
    ⟨keeps.nested found loads good.ordered good.declared has, good.inside⟩

end

/-! ## Values, lists and pairs -/

mutual

/-- A value that a node is resolved to has the type it was resolved for, and `P` everywhere. -/
theorem ensures_resolveValue (keeps : l.KeepsWith I Loads P) (interface element : String) :
    ∀ (node : Node) (expected : ElementType),
    Ensures I (resolveValue l interface element node expected) (ResolvedTo P expected)
  | .literal kind text span, expected => by
      rw [resolveValue]
      cases h : literalValue l.types element kind text expected with
      | ok v =>
          have literal := literalValue_ok keeps.finds h
          exact Ensures.pure
            ⟨literal.conforms, literal.everywhere (keeps.literal literal)⟩
      | error fault => exact Ensures.throw _
  | .array nodes span, expected => by
      cases expected with
      | array inner =>
          rw [resolveValue]
          have items := ensures_resolveValues keeps interface element inner nodes [] (by simp)
          refine items.bind fun vs items => Ensures.pure ⟨?_, ?_⟩
          · rw [Value.conforms, allConform_iff]
            exact fun v hv => (items v hv).1
          · exact everywhere_array.2 ⟨keeps.array vs, fun v hv => (items v hv).2⟩
      | _ => exact Ensures.throw _
  | .nested ⟨name, pairs, span⟩, expected => by
      cases expected with
      | interface declared =>
          rw [resolveValue]
          cases found : l.types.annotation? declared with
          | none => exact Ensures.throw _
          | some i =>
              have known : l.types.Knows i := TypeLookup.knows_of_annotation? found
              have named : i.name = declared := l.types.name_of_annotation? found
              dsimp only
              split_ifs
              · refine ((keeps.answers i known).adaptExcept _).bind fun d ⟨loads, defaults⟩ => ?_
                refine (ensures_resolvePairs keeps i pairs _ (Loader.goodFor_empty i)).bind
                  fun a good => ?_
                refine (ensures_fillMissing defaults i.elements [] a rfl good (by simp)).bind
                  fun b filled => Ensures.pure ⟨?_, ?_⟩
                · rw [Value.conforms, filled.1.typeName, named, beq_self_eq_true]
                · exact keeps.everywhere_of_filled known loads filled.1 filled.2
              · exact Ensures.throw _
      | _ => exact Ensures.throw _

/-- All values of an array are resolved to good values, each of the type of the array. -/
lemma ensures_resolveValues (keeps : l.KeepsWith I Loads P) (interface element : String)
    (expected : ElementType) :
    ∀ (nodes : List Node) (found : List Value), (∀ v ∈ found, ResolvedTo P expected v) →
      Ensures I (resolveValues l interface element expected nodes found) fun vs =>
        ∀ v ∈ vs, ResolvedTo P expected v
  | [], found, good => by
      rw [resolveValues]
      exact Ensures.pure fun v hv => good v (List.mem_reverse.1 hv)
  | node :: nodes, found, good => by
      rw [resolveValues]
      refine (ensures_resolveValue keeps interface element node expected).bind fun v hv => ?_
      exact ensures_resolveValues keeps interface element expected nodes (v :: found)
        (List.forall_mem_cons.2 ⟨hv, good⟩)

/-- Pairs are resolved to an annotation that is good for its interface, if it was so before. -/
lemma ensures_resolvePairs (keeps : l.KeepsWith I Loads P) (i : Interface) :
    ∀ (pairs : List PairNode) (a : Annotation), l.GoodFor P i [] a →
      Ensures I (resolvePairs l i pairs a) (l.GoodFor P i [])
  | [], a, good => by
      rw [resolvePairs]
      exact Ensures.pure good
  | ⟨name, node, span⟩ :: pairs, a, good => by
      rw [resolvePairs]
      cases known : i.element? name with
      | none => exact Ensures.throw _
      | some e =>
          dsimp only
          split_ifs
          · exact Ensures.throw _
          · refine (ensures_resolveValue keeps i.name e.name node e.type).bind fun v hv => ?_
            exact ensures_resolvePairs keeps i pairs _ (good.insertRead known hv.1 hv.2)

end

/-! ## Whole literals -/

/-- An annotation is resolved to one that is good at every depth, with its defaults filled in. -/
lemma ensures_resolveAgainst (keeps : l.KeepsWith I Loads P) {i : Interface} {d : Annotation}
    (known : l.types.Knows i) (loads : Loads i) (defaults : l.GoodDefaults P i d)
    (node : AnnotationNode) :
    Ensures I (resolveAgainst l i d node) fun a => (Value.nested a).Everywhere P := by
  refine (ensures_resolvePairs keeps i node.pairs _ (Loader.goodFor_empty i)).bind fun a good => ?_
  refine (ensures_fillMissing defaults i.elements [] a rfl good (by simp)).weaken fun b filled => ?_
  exact keeps.everywhere_of_filled known loads filled.1 filled.2

/-- What a whole annotation resolves to, if its interface is found, is good at every depth. -/
lemma ensures_resolveRoot (keeps : l.KeepsWith I Loads P) (node : AnnotationNode) :
    Ensures I (resolveRoot l node) fun found =>
      ∀ a, found = some a → (Value.nested a).Everywhere P := by
  unfold resolveRoot
  cases h : l.types.findAnnotation? node.name with
  | none => exact Ensures.pure fun _ none => by cases none
  | some i =>
      have known : l.types.Knows i := l.types.annotation?_of_find h
      refine ((keeps.answers i known).adaptExcept _).bind fun d ⟨loads, defaults⟩ => ?_
      refine (ensures_resolveAgainst keeps known loads defaults node).bind fun a inside => ?_
      exact Ensures.pure fun b same => by cases same; exact inside

/-- What a literal comes to has `P` everywhere. -/
theorem ensures_compileLiteral (keeps : l.KeepsWith I Loads P) (text : String) :
    Ensures I (compileLiteral l text) fun found =>
      ∀ a, found = some a → (Value.nested a).Everywhere P := by
  unfold compileLiteral
  cases AnnotationNode.parse text with
  | error e => exact Ensures.throw _
  | ok node => exact (ensures_resolveRoot keeps node).adaptExcept _

end DocAnnotations
