import DocAnnotations.Proofs.Defaults.Decoding
import DocAnnotations.Proofs.DependencyOrder
import DocAnnotations.Proofs.Unchanged

/-!
# Defaults that stand on their own

An interface whose defaults do not load occurs in no value that resolution returns, because
resolving an annotation loads the defaults of its interface first, and the defaults that a value was
completed with were once resolved themselves.  **`compiled_everywhere_grounded`** is this
conclusion: the defaults of all interfaces that occur anywhere in the value of a literal load.

A default was resolved when only some interfaces had their defaults.  It can only name interfaces
that its own refers to, step by step, and the dependency order has all of them before it
(`named_of_conforms`); what is added later is for other interfaces.
-/

namespace DocAnnotations

open Attribute

/-- Two invariants that a computation keeps are kept together, and so is what it ensures with
each. -/
lemma Ensures.and {ε σ α : Type} {I J : σ → Prop} {P Q : α → Prop} {p : EStateM ε σ α}
    (h : Ensures I p P) (h' : Ensures J p Q) :
    Ensures (fun s => I s ∧ J s) p fun a => P a ∧ Q a := by
  intro s hs
  cases hp : p s with
  | ok a s' =>
      obtain ⟨ha, hI⟩ := h.ok hs.1 hp
      obtain ⟨hb, hJ⟩ := h'.ok hs.2 hp
      exact ⟨⟨ha, hb⟩, hI, hJ⟩
  | error e s' => exact ⟨h.error hs.1 hp, h'.error hs.2 hp⟩

/-! ## Grounded values -/

/-- The defaults of an interface load. -/
def Loader.Loads (l : Loader) (i : Interface) : Prop := ∃ d, l.DecodesTo i (.ok d)

/-- A part of a value that resolution may return, and that can be resolved again: the defaults of
the interface of an annotation load. -/
def Loader.Grounded (l : Loader) (v : Value) : Prop :=
  l.types.Unchanged v ∧
    ∀ a i, v = .nested a → l.types.annotation? a.typeName = some i → l.Loads i

variable {l l' : Loader}

/-- Where all stored defaults are grounded, resolution returns only grounded values. -/
lemma Loader.Stores.keepsWith (stores : l.Stores l.Grounded) (once : l.types.DeclaresOnce)
    (finds : l.types.FindsLoadable) (plain : l.types.PlainNames) :
    l.KeepsWith (fun r => l.Holds l.Grounded r ∧ l.Computed r) l.Loads l.Grounded where
  answers i known := by
    have good : l.AnswersGood l.Grounded l.defaultsFor := by
      refine Loader.ensures_defaultsFor once fun f _ interface element bytes stored => ?_
      obtain ⟨v, written, inside⟩ := stores interface element bytes stored
      rw [readAll_of_readsAs (readsAs_readValue v nestingLimit written)]
      exact survives_of_unchanged once (fun _ => And.left) _ f v inside
    have resolved : l.Stores l.types.Resolved := by
      intro interface element bytes stored
      obtain ⟨v, written, inside⟩ := stores interface element bytes stored
      exact ⟨v, written, inside.mono fun _ h => h.1.1⟩
    obtain ⟨x, -, decodes⟩ := Loader.exists_decodesTo once resolved i
    refine ((good i known).and (Loader.comes_defaultsFor known decodes).ensures).weaken ?_
    rintro d ⟨good, rfl⟩
    exact ⟨⟨d, decodes⟩, good⟩
  finds := finds
  literal h := ⟨(assembled_unchanged plain).literal h, fun a i same => by subst same; cases h⟩
  array vs := ⟨(assembled_unchanged plain).array vs, fun a i same => by cases same⟩
  nested found loads ordered declared has :=
    ⟨(assembled_unchanged plain).nested found ordered declared has, fun b j same found' => by
      cases same
      cases Option.some.inj (found.symm.trans found')
      exact loads⟩

/-! ## Interfaces that occur in a value -/

/-- An annotation of one of the given interfaces. -/
def Within (names : List String) (v : Value) : Prop := ∀ a, v = .nested a → a.typeName ∈ names

/-- All interfaces in a value of a type are ones that the type refers to, step by step. -/
lemma named_of_conforms (types : TypeLookup) {Q : String → Prop}
    (closed : ∀ name, Q name → ∀ i, types.annotation? name = some i → ∀ e ∈ i.elements,
      ∀ r, e.type.referenced? = some r → Q r) {v : Value} :
    ∀ {type : ElementType}, v.conforms type = true →
      (∀ r, type.referenced? = some r → Q r) → v.Everywhere types.Resolved →
      v.Everywhere fun w => ∀ a, w = .nested a → Q a.typeName := by
  induction v using Value.treeInduction with
  | nested a ih =>
      intro type typed refers resolved
      obtain ⟨⟨i, found, -, -, declared⟩, inside⟩ := everywhere_nested.1 resolved
      have named : Q a.typeName := by
        cases type with
        | interface name =>
            rw [Value.conforms, beq_iff_eq] at typed
            exact refers _ (by rw [typed]; rfl)
        | _ => cases typed
      refine everywhere_nested.2 ⟨fun b same => by cases same; exact named, fun p hp => ?_⟩
      obtain ⟨e, known, typed'⟩ := declared p hp
      exact ih p hp typed' (closed a.typeName named i found e (Interface.mem_of_element? known).1)
        (inside p hp)
  | array vs ih =>
      intro type typed refers resolved
      obtain ⟨-, inside⟩ := everywhere_array.1 resolved
      cases type with
      | array element =>
          rw [Value.conforms, allConform_iff] at typed
          exact everywhere_array.2 ⟨fun b same => (by cases same), fun v hv =>
            ih v hv (typed v hv) refers (inside v hv)⟩
      | _ => cases typed
  | _ => exact fun _ _ _ => fun a same => by cases same

/-- What is grounded stays so when defaults are added for other interfaces. -/
lemma everywhere_grounded_congr {names : List String} {v : Value}
    (within : v.Everywhere (Within names)) (grounded : v.Everywhere l.Grounded)
    (types : l'.types = l.types)
    (defaults : ∀ name ∈ names, ∀ e, l'.defaults name e = l.defaults name e) :
    v.Everywhere l'.Grounded := by
  have here : ∀ v, Within names v → l.Grounded v → l'.Grounded v := by
    rintro v within ⟨unchanged, loads⟩
    refine ⟨types ▸ unchanged, fun a i same found => ?_⟩
    rw [types] at found
    obtain ⟨d, decodes⟩ := loads a i same found
    have named : i.name = a.typeName := l.types.name_of_annotation? found
    exact ⟨d, decodes.congr types (defaults i.name (named ▸ within a same))⟩
  induction v using Value.treeInduction with
  | nested a ih =>
      obtain ⟨within, inside⟩ := everywhere_nested.1 within
      obtain ⟨grounded, inside'⟩ := everywhere_nested.1 grounded
      exact everywhere_nested.2 ⟨here _ within grounded, fun p hp =>
        ih p hp (inside p hp) (inside' p hp)⟩
  | array vs ih =>
      obtain ⟨within, inside⟩ := everywhere_array.1 within
      obtain ⟨grounded, inside'⟩ := everywhere_array.1 grounded
      exact everywhere_array.2 ⟨here _ within grounded, fun v hv =>
        ih v hv (inside v hv) (inside' v hv)⟩
  | _ => exact here _ within grounded

/-! ## The table of an index -/

/-- All stored defaults are grounded, and name only interfaces whose defaults were added. -/
def TypeIndex.Staged (index : TypeIndex) (done : List String) (table : DefaultsTable) : Prop :=
  ∀ interface element bytes, table.get? interface element = some bytes →
    ∃ v, valueBytes v = .ok bytes ∧ v.Everywhere (index.loaderWith table).Grounded ∧
      v.Everywhere (Within done)

variable {schema : Schema} {index : TypeIndex}

/-- The defaults of one more interface, all of whose references have theirs. -/
lemma TypeIndex.Staged.snoc (once : index.lookup.DeclaresOnce) (plain : index.lookup.PlainNames)
    {declarations : List InterfaceDeclaration} {done : List String} {name : String}
    (closed : ∀ n ∈ done, ∀ r ∈ index.references n, r ∈ done) (new : name ∉ done)
    (behind : ∀ r ∈ index.references name, r ∈ done) {table table' : DefaultsTable}
    (staged : index.Staged done table)
    (h : addDefaults index.lookup declarations table name = .ok table') :
    index.Staged (done ++ [name]) table' := by
  have wider : ∀ v, Within done v → Within (done ++ [name]) v :=
    fun v within a same => List.mem_append_left _ (within a same)
  unfold addDefaults at h
  split at h
  · next i declaration known _ =>
    dsimp only at h
    have named : i.name = name := index.lookup.name_of_annotation? known
    have stores : (index.loaderWith table).Stores (index.loaderWith table).Grounded := by
      intro interface element bytes stored
      obtain ⟨v, written, grounded, -⟩ := staged interface element bytes stored
      exact ⟨v, written, grounded⟩
    have keeps := stores.keepsWith once index.findsLoadable plain
    have compiled := ensures_compileDefaults keeps i declaration.elements [] (by simp)
    split at h
    · next found r ran =>
      have added := Except.ok.inj h
      have all := (compiled.ok ⟨Loader.holds_empty, Loader.computed_empty⟩ ran).1
      have before : ∀ n ∈ done, ∀ e, table'.get? n e = table.get? n e := by
        intro n hn e
        have apart : n ≠ name := fun same => new (same ▸ hn)
        rw [← added, DefaultsTable.get?_foldl_insert_of_ne apart]
      have moved : ∀ v : Value, v.Everywhere (index.loaderWith table).Grounded →
          v.Everywhere (Within done) → v.Everywhere (index.loaderWith table').Grounded ∧
            v.Everywhere (Within (done ++ [name])) :=
        fun v grounded within => ⟨everywhere_grounded_congr within grounded rfl before,
          within.mono wider⟩
      intro interface element bytes stored
      rw [← added] at stored
      rcases DefaultsTable.get?_foldl_insert stored with ⟨p, hp, rfl⟩ | stored
      · obtain ⟨e, he, v, written, typed, grounded⟩ := all p hp
        refine ⟨v, written, moved v grounded ?_⟩
        refine named_of_conforms index.lookup ?_ typed ?_
          (grounded.mono fun _ h => h.1.1)
        · exact fun n hn j found e he r refers =>
            closed n hn r (TypeIndex.mem_references.2 ⟨j, found, e, he, refers⟩)
        · exact fun r refers => behind r (TypeIndex.mem_references.2 ⟨i, known, e, he, refers⟩)
      · obtain ⟨v, written, grounded, within⟩ := staged interface element bytes stored
        exact ⟨v, written, moved v grounded within⟩
    · cases h
  · cases Except.ok.inj h
    intro interface element bytes stored
    obtain ⟨v, written, grounded, within⟩ := staged interface element bytes stored
    exact ⟨v, written, grounded, within.mono wider⟩

/-- A table that is filled in an order in which references come first is filled in stages. -/
lemma TypeIndex.staged_of_foldlM (once : index.lookup.DeclaresOnce)
    (plain : index.lookup.PlainNames) {declarations : List InterfaceDeclaration}
    {order : List String} (ordered : IsDependencyOrder index.references order) :
    ∀ {table : DefaultsTable},
      order.foldlM (addDefaults index.lookup declarations) .empty = .ok table →
      index.Staged order table := by
  induction ordered with
  | nil =>
      intro table h
      cases Except.ok.inj h
      exact fun _ _ _ stored => by cases stored
  | @snoc done name ordered new behind staged =>
      intro table h
      rw [List.foldlM_append] at h
      obtain ⟨before, ran, h⟩ := bind_eq_ok_iff.1 h
      rw [List.foldlM_cons] at h
      obtain ⟨after, added, h⟩ := bind_eq_ok_iff.1 h
      cases Except.ok.inj h
      exact (staged ran).snoc once plain ordered.closed new behind added

/-- The defaults of a loaded index are grounded in it. -/
lemma stores_grounded_of_ofSchema (loaded : TypeIndex.ofSchema schema = .ok index)
    (plain : index.lookup.PlainNames) (token : ModuleToken) :
    (index.loader token).Stores (index.loader token).Grounded := by
  obtain ⟨order, ordered, added, -⟩ := isDependencyOrder_of_ofSchema loaded
  have staged := TypeIndex.staged_of_foldlM (TypeIndex.declaresOnce loaded) plain ordered added
  intro interface element bytes stored
  obtain ⟨v, written, grounded, within⟩ := staged interface element bytes stored
  exact ⟨v, written, everywhere_grounded_congr within grounded rfl fun _ _ _ => rfl⟩

/-! ## Compiling after any operations -/

section

variable (loaded : TypeIndex.ofSchema schema = .ok index) (plain : index.lookup.PlainNames)
  (token : ModuleToken)

include loaded plain

/-- **Values that can be resolved again.**  After any operations, the defaults of all interfaces
that occur anywhere in the value of a literal load. -/
theorem compiled_everywhere_grounded (operations : List Operation) {text : String} {a : Annotation}
    {r' : Registry} :
    let l := index.loader token
    compileLiteral l text (l.registryAfter operations) = .ok (some a) r' →
      (Value.nested a).Everywhere l.Grounded := by
  intro l compiled
  have decodes : ∀ i, l.types.Knows i → ∃ x, l.DecodesTo i x := fun i _ =>
    (exists_decodesTo_of_ofSchema loaded token i).imp fun _ => And.right
  have same := sameFrom_compileLiteral (Loader.answersSame_of_decodes decodes) text
  have keeps := (stores_grounded_of_ofSchema loaded plain token).keepsWith
    (TypeIndex.declaresOnce loaded) index.findsLoadable plain
  rcases same.results ⟨Loader.computed_registryAfter decodes operations, Loader.computed_empty⟩ with
    ⟨found, _, _, ran, ran', -⟩ | ⟨e, _, _, ran, -⟩
  · rw [compiled] at ran
    cases ran
    exact ((ensures_compileLiteral keeps text).ok
      ⟨Loader.holds_empty, Loader.computed_empty⟩ ran').1 a rfl
  · rw [compiled] at ran
    cases ran

end

end DocAnnotations
