import DocAnnotations.Proofs.Defaults.Decoding
import DocAnnotations.Proofs.Defaults.Resolving
import DocAnnotations.Proofs.DependencyOrder

/-!
# Defaults of the finished index

The defaults of a schema are resolved interface by interface, each time with the table as far as it
is filled.

**Half-filled tables.**  Nothing is missing from the table: the literal of a default can ask for the
defaults of interfaces that its own refers to, step by step, and the dependency order has all of
these before it.  So resolving with the half-filled table goes the same way as with the finished one
(`resolvesLike_loaderWith`).

**One interface after the other.**  Nothing is changed later either, because every interface is
processed once and adds defaults of its own only.  `TypeIndex.AddsFinally` says this of one step,
and `exists_addsFinally` of each step of the whole filling.

**Loaded indexes.**  **`defaults_of_ofSchema`** says what this comes to: every stored default is
what its literal comes to in the finished index, when nothing is loaded.
-/

namespace DocAnnotations

open Attribute

/-- What the literal of a default comes to when nothing is loaded: it is parsed, resolved for its
element, and written. -/
def Loader.DefaultIs (l : Loader) (i : Interface) (e : Element) (literal : String)
    (bytes : List UInt8) : Prop :=
  ∃ node v r, Node.parse literal = .ok node
    ∧ resolveValue l i.name e.name node e.type .empty = .ok v r ∧ valueBytes v = .ok bytes

/-! ## Half-filled tables -/

/-- Literals are resolved with a half-filled table as with the finished one, as long as they ask for
interfaces whose defaults are final. -/
lemma resolvesLike_loaderWith {index : TypeIndex} {table : DefaultsTable} {done : List String}
    (token : ModuleToken) (once : index.lookup.DeclaresOnce)
    (stores : table.Stores index.lookup.Resolved)
    (closed : ∀ n ∈ done, ∀ r ∈ index.references n, r ∈ done)
    (final : ∀ n ∈ done, table.get? n = index.defaults.get? n) :
    ResolvesLike (fun _ => False)
      (fun r t => (index.loaderWith table).Computed r ∧ (index.loader token).Computed t)
      (· ∈ done) (index.loaderWith table) (index.loader token) where
  types := rfl
  closed i known named e mem name refers :=
    closed i.name named name (TypeIndex.mem_references.2 ⟨i, known, e, mem, refers⟩)
  answers i known named offset := by
    obtain ⟨x, -, decodes⟩ := Loader.exists_decodesTo (l := index.loaderWith table) once stores i
    have decodes' : (index.loader token).DecodesTo i x :=
      decodes.congr rfl fun e => congrFun (final i.name named).symm e
    refine FollowsUpTo.adaptExcept (E := fun _ => False) ?_ fun _ => id
    rintro r t ⟨computed, computed'⟩
    obtain ⟨r', next, ran⟩ := Loader.comes_defaultsFor known decodes r computed
    obtain ⟨t', next', ran'⟩ := Loader.comes_defaultsFor (l := index.loader token) known
      decodes' t computed'
    cases x with
    | ok a =>
        rw [ran]
        exact ⟨t', ran', next, next'⟩
    | error e =>
        rw [ran]
        exact False.elim

section

variable {l : Loader} {i : Interface} {d : ElementDeclaration} {found : List (String × List UInt8)}
  {declarations : List ElementDeclaration}

/-- A default of a declared element is compiled, and the bytes go in front of those compiled
before. -/
lemma compileDefaults_of_some {literal : String} {e : Element} (declared : d.default = some literal)
    (known : i.element? d.name = some e) :
    compileDefaults l i found (d :: declarations) = (do
      let bytes ← EStateM.adaptExcept (.invalidDefault i.name d.name)
        (compileDefault l i e literal)
      compileDefaults l i ((d.name, bytes) :: found) declarations) := by
  rw [compileDefaults, declared, known]

/-- A declaration without a default, or of an element that the interface does not have, is passed
over. -/
lemma compileDefaults_of_none
    (absent : ∀ literal e, d.default = some literal → i.element? d.name = some e → False) :
    compileDefaults l i found (d :: declarations) = compileDefaults l i found declarations := by
  rw [compileDefaults]
  split
  · next literal e declared known => exact (absent literal e declared known).elim
  · rfl

end

section

variable {l l' : Loader} {names : String → Prop} {i : Interface} {r r' : Registry}
  (like : ResolvesLike (fun _ => False) (fun r t => l.Computed r ∧ l'.Computed t) names l l')

include like

/-- A default that compiles with a half-filled table is what its literal comes to with the other
loader. -/
lemma defaultIs_of_compileDefault {e : Element} {literal : String} {bytes : List UInt8}
    (refers : ∀ name, e.type.referenced? = some name → names name) (computed : l.Computed r)
    (ran : compileDefault l i e literal r = .ok bytes r') :
    l'.DefaultIs i e literal bytes ∧ l.Computed r' := by
  rw [compileDefault] at ran
  cases parsed : Node.parse literal with
  | error cause =>
      rw [parsed] at ran
      cases ran
  | ok node =>
      rw [parsed] at ran
      have follows := follows_resolveValue like i.name e.name node e.type refers r .empty
        ⟨computed, Loader.computed_empty⟩
      simp only [Bind.bind, EStateM.bind, EStateM.adaptExcept] at ran
      cases resolved : resolveValue l i.name e.name node e.type r with
      | error cause s =>
          rw [resolved] at ran
          cases ran
      | ok v s =>
          rw [resolved] at ran
          simp only [resolved] at follows
          obtain ⟨t, final, next, -⟩ := follows
          dsimp only at ran
          cases written : valueBytes v with
          | error cause =>
              rw [written] at ran
              cases ran
          | ok bytes' =>
              rw [written] at ran
              cases ran
              exact ⟨⟨node, v, t, parsed, final, written⟩, next⟩

/-- Every literal of an interface makes one default, and there are no others. -/
lemma of_compileDefaults
    (refers : ∀ e ∈ i.elements, ∀ name, e.type.referenced? = some name → names name) :
    ∀ (declarations : List ElementDeclaration) (found compiled : List (String × List UInt8))
      {r r' : Registry}, l.Computed r →
    compileDefaults l i found declarations r = .ok compiled r' →
    ∃ added, compiled = found.reverse ++ added
      ∧ (added.map Prod.fst).Sublist (declarations.map ElementDeclaration.name)
      ∧ (∀ d ∈ declarations, ∀ literal e, d.default = some literal → i.element? d.name = some e →
        ∃ bytes, (d.name, bytes) ∈ added ∧ l'.DefaultIs i e literal bytes)
      ∧ ∀ p ∈ added, ∃ d ∈ declarations, d.name = p.1 ∧ d.default.isSome
  | [], found, compiled, r, r', _, ran => by
      rw [compileDefaults] at ran
      cases ran
      exact ⟨[], (List.append_nil _).symm, .slnil, by simp, by simp⟩
  | d :: declarations, found, compiled, r, r', computed, ran => by
      by_cases present : ∃ literal e, d.default = some literal ∧ i.element? d.name = some e
      · obtain ⟨literal, e, declared, known⟩ := present
        rw [compileDefaults_of_some declared known] at ran
        simp only [Bind.bind, EStateM.bind, EStateM.adaptExcept] at ran
        cases first : compileDefault l i e literal r with
        | error cause s =>
            rw [first] at ran
            cases ran
        | ok bytes s =>
            rw [first] at ran
            obtain ⟨final, next⟩ := defaultIs_of_compileDefault like
              (refers e (Interface.mem_of_element? known).1) computed first
            obtain ⟨added, rfl, names, each, only⟩ :=
              of_compileDefaults refers declarations _ compiled next ran
            refine ⟨(d.name, bytes) :: added, by simp, names.cons_cons _, ?_, ?_⟩
            · refine List.forall_mem_cons.2 ⟨fun literal' e' declared' known' => ?_, ?_⟩
              · rw [declared] at declared'
                rw [known] at known'
                cases declared'
                cases known'
                exact ⟨bytes, List.mem_cons_self, final⟩
              · intro d' mem literal' e' declared' known'
                obtain ⟨bytes', there, final'⟩ := each d' mem literal' e' declared' known'
                exact ⟨bytes', List.mem_cons_of_mem _ there, final'⟩
            · refine List.forall_mem_cons.2 ⟨⟨d, List.mem_cons_self, rfl, by simp [declared]⟩, ?_⟩
              intro p mem
              obtain ⟨d', mem', same⟩ := only p mem
              exact ⟨d', List.mem_cons_of_mem _ mem', same⟩
      · have absent : ∀ literal e, d.default = some literal → i.element? d.name = some e → False :=
          fun literal e declared known => present ⟨literal, e, declared, known⟩
        rw [compileDefaults_of_none absent] at ran
        obtain ⟨added, rfl, names, each, only⟩ :=
          of_compileDefaults refers declarations found compiled computed ran
        refine ⟨added, rfl, names.cons _, ?_, fun p mem => ?_⟩
        · refine List.forall_mem_cons.2 ⟨fun literal e declared known => ?_, each⟩
          exact (absent literal e declared known).elim
        · obtain ⟨d', mem', same⟩ := only p mem
          exact ⟨d', List.mem_cons_of_mem _ mem', same⟩

end

/-! ## One interface after the other -/

section

variable {types : TypeLookup} {declarations : List InterfaceDeclaration}
  {table extended : DefaultsTable} {name other : String}

/-- One step of the filling compiles the defaults of its interface from an empty registry, and
writes them to the table. -/
lemma of_addDefaults {i : Interface} {d : InterfaceDeclaration}
    (found : types.annotation? name = some i)
    (declared : (declarations.find? fun d => d.name == name) = some d)
    (added : addDefaults types declarations table name = .ok extended) :
    ∃ compiled r, compileDefaults ⟨types, table.get?, ⟨0⟩⟩ i [] d.elements .empty = .ok compiled r
      ∧ extended = compiled.foldl (fun table e => table.insert name e.1 e.2) table := by
  rw [addDefaults, found, declared] at added
  dsimp only [EStateM.run] at added
  cases ran : compileDefaults ⟨types, table.get?, ⟨0⟩⟩ i [] d.elements .empty with
  | ok compiled r =>
      rw [ran] at added
      exact ⟨compiled, r, rfl, (Except.ok.inj added).symm⟩
  | error e r =>
      rw [ran] at added
      cases added

/-- The defaults of one interface leave those of others alone. -/
lemma get?_addDefaults_of_ne (apart : other ≠ name)
    (added : addDefaults types declarations table name = .ok extended) :
    extended.get? other = table.get? other := by
  cases found : types.annotation? name with
  | none =>
      rw [addDefaults, found] at added
      rw [Except.ok.inj added]
  | some i =>
      cases declared : declarations.find? fun d => d.name == name with
      | none =>
          rw [addDefaults, found, declared] at added
          rw [Except.ok.inj added]
      | some d =>
          obtain ⟨compiled, r, -, rfl⟩ := of_addDefaults found declared added
          rw [DefaultsTable.get?_foldl_insert_of_ne apart]

/-- The defaults of an interface that is not among the names stay as they were in the table. -/
lemma get?_foldlM_of_not_mem : ∀ {names : List String} {table final : DefaultsTable},
    names.foldlM (addDefaults types declarations) table = .ok final → other ∉ names →
    final.get? other = table.get? other
  | [], table, final, added, _ => by
      cases Except.ok.inj added
      rfl
  | name :: names, table, final, added, absent => by
      rw [List.foldlM_cons] at added
      obtain ⟨extended, first, rest⟩ := bind_eq_ok_iff.1 added
      rw [List.mem_cons, not_or] at absent
      rw [get?_foldlM_of_not_mem rest absent.2, get?_addDefaults_of_ne absent.1 first]

/-- Only declared interfaces get defaults. -/
lemma exists_of_get?_foldlM {names : List String} {final : DefaultsTable} {element : String}
    {bytes : List UInt8} (added : names.foldlM (addDefaults types declarations) .empty = .ok final)
    (stored : final.get? other element = some bytes) : ∃ d ∈ declarations, d.name = other := by
  by_contra absent
  have none_ : declarations.find? (fun d => d.name == other) = none := by
    simpa [List.find?_eq_none] using absent
  have unchanged : final.get? other element = none := by
    refine foldlM_keeps (motive := fun table => DefaultsTable.get? table other element = none) ?_
      rfl added
    intro table name _ extended before h
    by_cases same : name = other
    · subst same
      rw [addDefaults, none_] at h
      split at h
      · next _ missing => cases missing
      · rw [← Except.ok.inj h, before]
    · rw [get?_addDefaults_of_ne (Ne.symm same) h, before]
  rw [unchanged] at stored
  cases stored

end

/-- How the defaults of one interface came into the table of an index: those of all interfaces that
it refers to were there before it, nothing was there of its own, and nothing was changed later. -/
structure TypeIndex.AddsFinally (index : TypeIndex) (declarations : List InterfaceDeclaration)
    (before : List String) (name : String) (table extended : DefaultsTable) : Prop where
  reached : before.foldlM (addDefaults index.lookup declarations) .empty = .ok table
  added : addDefaults index.lookup declarations table name = .ok extended
  behind : ∀ r ∈ index.references name, r ∈ before
  fresh : ∀ element, table.get? name element = none
  kept : ∀ n ∈ before, table.get? n = index.defaults.get? n
  final : extended.get? name = index.defaults.get? name

/-- In a dependency order each interface has its turn. -/
lemma exists_addsFinally {index : TypeIndex} {declarations : List InterfaceDeclaration}
    {before after : List String} {name : String}
    (ordered : IsDependencyOrder index.references (before ++ name :: after))
    (added : (before ++ name :: after).foldlM (addDefaults index.lookup declarations) .empty
      = .ok index.defaults) :
    ∃ table extended, index.AddsFinally declarations before name table extended := by
  rw [List.foldlM_append] at added
  obtain ⟨table, reached, added⟩ := bind_eq_ok_iff.1 added
  rw [List.foldlM_cons] at added
  obtain ⟨extended, added, rest⟩ := bind_eq_ok_iff.1 added
  obtain ⟨new, behind⟩ := (ordered.front (List.append_cons before name after)).last
  obtain ⟨-, nodup, apart⟩ := List.nodup_append.1 ordered.nodup
  refine ⟨table, extended, reached, added, behind, fun element => ?_, fun n mem => ?_, ?_⟩
  · rw [get?_foldlM_of_not_mem reached new]
    rfl
  · have later : n ∉ name :: after := fun mem' => apart n mem n mem' rfl
    rw [List.mem_cons, not_or] at later
    rw [get?_foldlM_of_not_mem rest later.2, get?_addDefaults_of_ne later.1 added]
  · rw [get?_foldlM_of_not_mem rest (List.nodup_cons.1 nodup).1]

/-! ## Loaded indexes -/

variable {schema : Schema} {index : TypeIndex}

/-- The defaults of a declared interface in an index: one for each literal, namely what the literal
comes to with a loader that has loaded nothing. -/
structure Schema.CompilesTo (schema : Schema) (index : TypeIndex) (l : Loader)
    (d : InterfaceDeclaration) (i : Interface) (compiled : List (String × List UInt8)) : Prop where
  found : index.annotation? d.name = some i
  elements : List.Forall₂
    (ElementDeclaration.Declares schema.declaresEnum schema.declaresInterface) d.elements i.elements
  stored : ∀ element bytes,
    index.defaults.get? d.name element = some bytes ↔ (element, bytes) ∈ compiled
  each : ∀ e ∈ d.elements, ∀ literal element, e.default = some literal →
    i.element? e.name = some element →
    ∃ bytes, (e.name, bytes) ∈ compiled ∧ l.DefaultIs i element literal bytes
  only : ∀ p ∈ compiled, ∃ e ∈ d.elements, e.name = p.1 ∧ e.default.isSome

/-- The turn of an interface leaves in the index what its literals come to there. -/
lemma exists_compilesTo_of_addsFinally (loaded : TypeIndex.ofSchema schema = .ok index)
    (token : ModuleToken) {before : List String} {table extended : DefaultsTable}
    {d : InterfaceDeclaration} (closed : ∀ n ∈ before, ∀ r ∈ index.references n, r ∈ before)
    (declared : d ∈ schema.annotations)
    (turn : index.AddsFinally schema.annotations before d.name table extended) :
    ∃ i compiled, schema.CompilesTo index (index.loader token) d i compiled := by
  have once := TypeIndex.declaresOnce loaded
  obtain ⟨i, found, elements⟩ := TypeIndex.annotation?_of_declared loaded declared
  have unique : (schema.annotations.map InterfaceDeclaration.name).Nodup :=
    ((TypeIndex.nodup_typeNames loaded).of_append_left).of_append_left
  obtain ⟨compiled, r, ran, filled⟩ :=
    of_addDefaults found (find?_of_nodup unique declared) turn.added
  have stores : table.Stores index.lookup.Resolved :=
    stores_of_foldlM (suits_resolved loaded) turn.reached
  have like := resolvesLike_loaderWith token once stores closed turn.kept
  obtain ⟨_, rfl, names, each, only⟩ := of_compileDefaults like
    (fun e mem name refers => turn.behind name
      (TypeIndex.mem_references.2 ⟨i, found, e, mem, refers⟩))
    d.elements [] compiled Loader.computed_empty ran
  refine ⟨i, compiled, found, elements, fun element bytes => ?_, each, only⟩
  have nodup : (compiled.map Prod.fst).Nodup := by
    refine names.nodup ?_
    rw [← names_of_forall₂ elements]
    exact once i (TypeLookup.knows_of_annotation? found)
  rw [← turn.final, filled]
  exact DefaultsTable.get?_foldl_insert_iff turn.fresh nodup

/-- In the order in which defaults were added to a loaded index, each interface had its turn. -/
lemma exists_turns (loaded : TypeIndex.ofSchema schema = .ok index) :
    ∃ order, IsDependencyOrder index.references order
      ∧ order.foldlM (addDefaults index.lookup schema.annotations) .empty = .ok index.defaults
      ∧ (∀ d ∈ schema.annotations, d.name ∈ order)
      ∧ ∀ before name after, order = before ++ name :: after →
        ∃ table extended, index.AddsFinally schema.annotations before name table extended := by
  obtain ⟨order, ordered, added, all⟩ := isDependencyOrder_of_ofSchema loaded
  refine ⟨order, ordered, added, fun d declared => ?_, ?_⟩
  · obtain ⟨i, found, -⟩ := TypeIndex.annotation?_of_declared loaded declared
    rw [← index.name_of_annotation? found]
    exact all i (index.mem_of_annotation? found)
  · rintro before name after rfl
    exact exists_addsFinally ordered added

/-- Each declared interface had its turn, and only what was before it could be asked for. -/
lemma exists_compilesTo (loaded : TypeIndex.ofSchema schema = .ok index) (token : ModuleToken)
    {d : InterfaceDeclaration} (declared : d ∈ schema.annotations) :
    ∃ i compiled, schema.CompilesTo index (index.loader token) d i compiled := by
  obtain ⟨order, ordered, -, listed, turns⟩ := exists_turns loaded
  obtain ⟨before, after, split⟩ := List.append_of_mem (listed d declared)
  obtain ⟨table, extended, turn⟩ := turns before d.name after split
  exact exists_compilesTo_of_addsFinally loaded token (ordered.front split).closed declared turn

/-- Only what is declared with a default has bytes. -/
lemma exists_declared_of_stored (loaded : TypeIndex.ofSchema schema = .ok index)
    {interface element : String} {bytes : List UInt8}
    (stored : index.defaults.get? interface element = some bytes) :
    ∃ d ∈ schema.annotations, d.name = interface
      ∧ ∃ e ∈ d.elements, e.name = element ∧ ∃ literal, e.default = some literal := by
  obtain ⟨order, -, added, -, -⟩ := exists_turns loaded
  obtain ⟨d, declared, rfl⟩ := exists_of_get?_foldlM added stored
  obtain ⟨i, compiled, finals⟩ := exists_compilesTo loaded ⟨0⟩ declared
  obtain ⟨e, mem, same, has⟩ := finals.only _ ((finals.stored _ _).1 stored)
  exact ⟨d, declared, rfl, e, mem, same, Option.isSome_iff_exists.1 has⟩

/-- Elements that were declared are found under their names. -/
lemma Schema.CompilesTo.element? {l : Loader} {d : InterfaceDeclaration} {i : Interface}
    {compiled : List (String × List UInt8)} (finals : schema.CompilesTo index l d i compiled)
    (once : index.lookup.DeclaresOnce) {e : ElementDeclaration} (mem : e ∈ d.elements) :
    ∃ element, i.element? e.name = some element
      ∧ e.Declares schema.declaresEnum schema.declaresInterface element := by
  obtain ⟨element, mem', declares⟩ := exists_of_forall₂ finals.elements e mem
  refine ⟨element, ?_, declares⟩
  rw [← declares.1]
  exact Interface.element?_of_mem (once i (TypeLookup.knows_of_annotation? finals.found)) mem'

/-- **Defaults are final.**  In the index of a schema, the bytes of an element that is declared with
a default are what its literal comes to in this index when nothing is loaded; an element without one
has no bytes, and there are no other bytes.  The interfaces had their turns in an order in which
each follows those that it refers to, and the defaults of all that had theirs are final. -/
theorem defaults_of_ofSchema (loaded : TypeIndex.ofSchema schema = .ok index)
    (token : ModuleToken) :
    (∀ d ∈ schema.annotations, ∃ i, index.annotation? d.name = some i ∧
      ∀ e ∈ d.elements, ∃ element, i.element? e.name = some element
        ∧ e.Declares schema.declaresEnum schema.declaresInterface element
        ∧ (e.default = none → index.defaults.get? d.name e.name = none)
        ∧ ∀ literal, e.default = some literal → ∃ bytes,
          index.defaults.get? d.name e.name = some bytes
          ∧ (index.loader token).DefaultIs i element literal bytes)
    ∧ (∀ interface element bytes, index.defaults.get? interface element = some bytes →
      ∃ d ∈ schema.annotations, d.name = interface
        ∧ ∃ e ∈ d.elements, e.name = element ∧ e.default.isSome)
    ∧ ∃ order : List String,
      order.foldlM (addDefaults index.lookup schema.annotations) .empty = .ok index.defaults
      ∧ (∀ d ∈ schema.annotations, d.name ∈ order)
      ∧ ∀ before name after, order = before ++ name :: after →
        ∃ table extended, index.AddsFinally schema.annotations before name table extended := by
  have once := TypeIndex.declaresOnce loaded
  obtain ⟨order, -, added, listed, turns⟩ := exists_turns loaded
  refine ⟨fun d declared => ?_, fun interface element bytes stored => ?_, order, added, listed,
    turns⟩
  · obtain ⟨i, compiled, finals⟩ := exists_compilesTo loaded token declared
    have nodup : (d.elements.map ElementDeclaration.name).Nodup := by
      rw [← names_of_forall₂ finals.elements]
      exact once i (TypeLookup.knows_of_annotation? finals.found)
    refine ⟨i, finals.found, fun e mem => ?_⟩
    obtain ⟨element, known, declares⟩ := finals.element? once mem
    refine ⟨element, known, declares, fun none => ?_, fun literal some_ => ?_⟩
    · rw [Option.eq_none_iff_forall_ne_some]
      intro bytes stored
      obtain ⟨e', mem'', same, has⟩ := finals.only _ ((finals.stored _ _).1 stored)
      rw [List.inj_on_of_nodup_map nodup mem'' mem same, none] at has
      cases has
    · obtain ⟨bytes, there, final⟩ := finals.each e mem literal element some_ known
      exact ⟨bytes, (finals.stored _ _).2 there, final⟩
  · obtain ⟨d, declared, rfl⟩ := exists_of_get?_foldlM added stored
    obtain ⟨i, compiled, finals⟩ := exists_compilesTo loaded token declared
    exact ⟨d, declared, rfl, finals.only _ ((finals.stored _ _).1 stored)⟩

/-- The default of the first interface is an annotation of the second, which has a default. -/
def nestedSchema : Schema where
  annotations := [⟨"p.A", [⟨"at", "()Lp/B;", some "@B"⟩]⟩, ⟨"p.B", [⟨"x", "()I", some "7"⟩]⟩]
  enums := []
  classes := []

/-- The index of the schema; the inner default is part of the outer one. -/
def nestedIndex : TypeIndex where
  annotations :=
    [⟨"p.A", [⟨"at", .interface "p.B", "()Lp/B;"⟩]⟩, ⟨"p.B", [⟨"x", .int, "()I"⟩]⟩]
  enums := []
  classes := []
  defaults :=
    ⟨[(("p.A", "at"), [64, 0, 3, 112, 46, 66, 0, 1, 0, 1, 120, 73, 0, 0, 0, 7]),
      (("p.B", "x"), [73, 0, 0, 0, 7])]⟩

/-- The outer default is what its literal comes to in the index. -/
theorem defaults_of_nestedSchema :
    TypeIndex.ofSchema nestedSchema = .ok nestedIndex ∧ ∃ i element bytes,
      nestedIndex.annotation? "p.A" = some i ∧ i.element? "at" = some element
      ∧ nestedIndex.defaults.get? "p.A" "at" = some bytes
      ∧ (nestedIndex.loader ⟨0⟩).DefaultIs i element "@B" bytes := by
  have loaded : TypeIndex.ofSchema nestedSchema = .ok nestedIndex := by decide +kernel
  obtain ⟨declared, -, -⟩ := defaults_of_ofSchema loaded ⟨0⟩
  obtain ⟨i, found, each⟩ :=
    declared ⟨"p.A", [⟨"at", "()Lp/B;", some "@B"⟩]⟩ List.mem_cons_self
  obtain ⟨element, known, -, -, final⟩ := each _ List.mem_cons_self
  obtain ⟨bytes, stored, is⟩ := final "@B" rfl
  exact ⟨loaded, i, element, bytes, found, known, stored, is⟩

end DocAnnotations
