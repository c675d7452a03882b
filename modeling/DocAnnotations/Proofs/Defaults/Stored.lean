import DocAnnotations.Proofs.Attribute.Reread
import DocAnnotations.Proofs.Resolve
import DocAnnotations.Proofs.TypeIndex
import Mathlib.Data.List.Induction

/-!
# Stored defaults

The defaults of a loaded index went a long way: each was resolved with the defaults that were stored
before it, written, stored, and is read again whenever it is needed.  `Loader.Stores P` says that
all bytes in the source of defaults were written from values with `P` everywhere.

**Compiling defaults.**  If a loader keeps `P`, the literal of a default is compiled to such bytes,
and those of a whole interface are.

**The table.**  Each interface in turn extends a table that had only such defaults, whatever the
order of the interfaces.

**Loaded indexes.**  **`keeps_of_ofSchema`** closes the circle.  It asks two things of `P`: that
resolution puts together only such values (`TypeLookup.Assembled`), and that writing and reading
them again gives such values (`TypeLookup.Survives`).  Then the loader of the index keeps `P`.
-/

namespace DocAnnotations

open Attribute

variable {P : Value → Prop} {types : TypeLookup}

/-- Reading a written value with `P` gives values with `P`, whatever defaults there are. -/
def TypeLookup.Survives (types : TypeLookup) (P : Value → Prop) : Prop :=
  ∀ (J : Registry → Prop) (f : Interface → Load Annotation) (v : Value), v.Everywhere P →
    Ensures J (reread types f nestingLimit v) (Value.Everywhere P)

/-- Bytes that were written from a value with `P` everywhere. -/
def Stored (P : Value → Prop) (bytes : List UInt8) : Prop :=
  ∃ v, valueBytes v = .ok bytes ∧ v.Everywhere P

/-- All stored defaults were written from values with `P` everywhere. -/
def Loader.Stores (l : Loader) (P : Value → Prop) : Prop :=
  ∀ interface element bytes, l.defaults interface element = some bytes → Stored P bytes

/-- What resolution needs of the types alone. -/
structure TypeLookup.Suits (types : TypeLookup) (P : Value → Prop) : Prop where
  once : types.DeclaresOnce
  finds : types.FindsLoadable
  assembled : types.Assembled P
  survives : types.Survives P

/-- Where all stored defaults have the property, loading and resolving keep it. -/
lemma Loader.Stores.keeps {l : Loader} (stores : l.Stores P) (suits : l.types.Suits P) :
    l.Keeps P := by
  refine ⟨Loader.ensures_defaultsFor suits.once ?_, suits.finds, suits.assembled⟩
  intro f _ interface element bytes h
  obtain ⟨v, written, inside⟩ := stores interface element bytes h
  rw [readAll_of_readsAs (readsAs_readValue v nestingLimit written)]
  exact suits.survives _ f v inside

/-! ## Compiling defaults -/

/-- Bytes that were written from what resolution returns for an element of a type. -/
def StoredFor (P : Value → Prop) (type : ElementType) (bytes : List UInt8) : Prop :=
  ∃ v, valueBytes v = .ok bytes ∧ ResolvedTo P type v

/-- Bytes for an element of some type are bytes of a value, at every depth of which `P` holds. -/
lemma StoredFor.stored {type : ElementType} {bytes : List UInt8} (h : StoredFor P type bytes) :
    Stored P bytes := by
  obtain ⟨v, written, resolved⟩ := h
  exact ⟨v, written, resolved.2⟩

section

variable {l : Loader} {I : Registry → Prop} {Loads : Interface → Prop}

/-- If loading keeps good registries, a default is compiled to bytes that were written from a good
value of its type. -/
lemma ensures_compileDefault (keeps : l.KeepsWith I Loads P) (interface : Interface)
    (element : Element) (literal : String) :
    Ensures I (compileDefault l interface element literal) (StoredFor P element.type) := by
  unfold compileDefault
  cases Node.parse literal with
  | error e => exact Ensures.throw _
  | ok node =>
      have resolved := ensures_resolveValue keeps interface.name element.name node element.type
      refine (resolved.adaptExcept _).bind fun v inside => ?_
      cases written : valueBytes v with
      | ok bytes => exact Ensures.pure ⟨v, written, inside⟩
      | error e => exact Ensures.throw _

/-- The same for the defaults of an interface, one after the other, each for an element that is
declared. -/
lemma ensures_compileDefaults (keeps : l.KeepsWith I Loads P) (interface : Interface) :
    ∀ (declarations : List ElementDeclaration) (found : List (String × List UInt8)),
      (∀ p ∈ found, ∃ e ∈ interface.elements, StoredFor P e.type p.2) →
      Ensures I (compileDefaults l interface found declarations) fun compiled =>
        ∀ p ∈ compiled, ∃ e ∈ interface.elements, StoredFor P e.type p.2
  | [], found, stored => by
      rw [compileDefaults]
      exact Ensures.pure fun p hp => stored p (List.mem_reverse.1 hp)
  | d :: declarations, found, stored => by
      rw [compileDefaults]
      split
      · next literal element _ known =>
        have compiled := ensures_compileDefault keeps interface element literal
        refine (compiled.adaptExcept _).bind fun bytes hbytes => ?_
        exact ensures_compileDefaults keeps interface declarations _ (List.forall_mem_cons.2
          ⟨⟨element, (Interface.mem_of_element? known).1, hbytes⟩, stored⟩)
      · exact ensures_compileDefaults keeps interface declarations found stored

end

/-! ## The table -/

section

variable {table : DefaultsTable} {name interface element : String} {bytes : List UInt8}

/-- In a table after one more default, this default stands at its own place, and elsewhere what
stood there. -/
lemma DefaultsTable.get?_insert (table : DefaultsTable) (name added : String)
    (bytes : List UInt8) : (table.insert name added bytes).get? interface element
      = if interface = name ∧ element = added then some bytes
        else table.get? interface element := by
  rw [DefaultsTable.get?, DefaultsTable.insert, List.lookup_cons,
    lookup_filter fun k : String × String => k != (name, added)]
  by_cases same : interface = name ∧ element = added
  · obtain ⟨rfl, rfl⟩ := same
    simp
  · have apart : ((interface, element) == (name, added)) = false := by simpa using same
    rw [apart, bne, apart, if_neg same]
    rfl

/-- Adding defaults of one interface does not change those of another. -/
lemma DefaultsTable.get?_foldl_insert_of_ne (other : interface ≠ name) :
    ∀ (found : List (String × List UInt8)) (table : DefaultsTable),
      (found.foldl (fun table e => table.insert name e.1 e.2) table).get? interface
        = table.get? interface
  | [], _ => rfl
  | e :: found, table => by
      rw [List.foldl_cons, get?_foldl_insert_of_ne other found]
      funext element
      rw [get?_insert, if_neg fun same => other same.1]

/-- A default that is found was added or was there before. -/
lemma DefaultsTable.get?_foldl_insert : ∀ {found : List (String × List UInt8)}
    {table : DefaultsTable},
    (found.foldl (fun table e => table.insert name e.1 e.2) table).get? interface element
      = some bytes → (∃ e ∈ found, e.2 = bytes) ∨ table.get? interface element = some bytes
  | [], _, h => Or.inr h
  | e :: found, table, h => by
      rcases get?_foldl_insert (List.foldl_cons .. ▸ h) with ⟨e', he', same⟩ | h
      · exact Or.inl ⟨e', List.mem_cons_of_mem _ he', same⟩
      · rw [get?_insert] at h
        split_ifs at h
        · exact Or.inl ⟨e, List.mem_cons_self, Option.some.inj h⟩
        · exact Or.inr h

/-- Of an interface that had no defaults exactly those that were added are found. -/
lemma DefaultsTable.get?_foldl_insert_iff (fresh : ∀ element, table.get? name element = none)
    {found : List (String × List UInt8)} (nodup : (found.map Prod.fst).Nodup) :
    (found.foldl (fun table e => table.insert name e.1 e.2) table).get? name element = some bytes
      ↔ (element, bytes) ∈ found := by
  induction found using List.reverseRecOn with
  | nil => simp [fresh]
  | append_singleton found e ih =>
      rw [List.map_append, List.nodup_append] at nodup
      obtain ⟨before, -, apart⟩ := nodup
      have new : ∀ bytes, (e.1, bytes) ∉ found := fun bytes mem =>
        apart e.1 (List.mem_map.2 ⟨_, mem, rfl⟩) e.1 (by simp) rfl
      rw [List.foldl_append, List.foldl_cons, List.foldl_nil, get?_insert, List.mem_append,
        List.mem_singleton]
      by_cases same : element = e.1
      · subst same
        rw [if_pos ⟨rfl, rfl⟩, or_iff_right (new bytes), Option.some.injEq, Prod.ext_iff, eq_comm]
        exact (and_iff_right rfl).symm
      · rw [if_neg fun h => same h.2, ih before, or_iff_left fun h => same (congrArg Prod.fst h)]

end

/-- A table of defaults that were all written from values with `P` everywhere. -/
def DefaultsTable.Stores (table : DefaultsTable) (P : Value → Prop) : Prop :=
  ∀ interface element bytes, table.get? interface element = some bytes → Stored P bytes

lemma DefaultsTable.stores_empty : DefaultsTable.empty.Stores P := fun _ _ _ h => by cases h

/-- Adding the bytes of a good value leaves a table with bytes of good values only. -/
lemma DefaultsTable.Stores.insert {table : DefaultsTable} (stores : table.Stores P)
    {interface element : String} {bytes : List UInt8} (stored : Stored P bytes) :
    (table.insert interface element bytes).Stores P := by
  intro i e found h
  rw [DefaultsTable.get?_insert] at h
  split_ifs at h
  · cases h
    exact stored
  · exact stores i e found h

lemma DefaultsTable.Stores.foldl {name : String} :
    ∀ {compiled : List (String × List UInt8)} {table : DefaultsTable}, table.Stores P →
      (∀ p ∈ compiled, Stored P p.2) →
      (compiled.foldl (fun table e => table.insert name e.1 e.2) table).Stores P
  | [], _, stores, _ => stores
  | p :: compiled, table, stores, all => by
      obtain ⟨first, rest⟩ := List.forall_mem_cons.1 all
      rw [List.foldl_cons]
      exact (stores.insert first).foldl rest

/-- The loader that compiles defaults where those of a table are there. -/
def TypeIndex.loaderWith (index : TypeIndex) (table : DefaultsTable) : Loader :=
  ⟨index.lookup, table.get?, ⟨0⟩⟩

/-- The defaults of one more interface. -/
lemma stores_addDefaults (suits : types.Suits P) {declarations : List InterfaceDeclaration}
    {table extended : DefaultsTable} {name : String} (stores : table.Stores P)
    (h : addDefaults types declarations table name = .ok extended) : extended.Stores P := by
  unfold addDefaults at h
  split at h
  · next interface declaration _ _ =>
    dsimp only at h
    have keeps : Loader.Keeps ⟨types, table.get?, ⟨0⟩⟩ P :=
      Loader.Stores.keeps (l := ⟨types, table.get?, ⟨0⟩⟩) stores suits
    have compiled :=
      ensures_compileDefaults keeps.keepsWith interface declaration.elements [] (by simp)
    split at h
    · next found r ran =>
      cases Except.ok.inj h
      refine stores.foldl fun p hp => ?_
      obtain ⟨_, -, stored⟩ := (compiled.ok Loader.holds_empty ran).1 p hp
      exact stored.stored
    · cases h
  · cases Except.ok.inj h
    exact stores

/-- The defaults of several interfaces, one after the other. -/
lemma stores_of_foldlM (suits : types.Suits P) {declarations : List InterfaceDeclaration}
    {names : List String} {table : DefaultsTable}
    (added : names.foldlM (addDefaults types declarations) .empty = .ok table) :
    table.Stores P := by
  refine foldlM_keeps (motive := fun table => DefaultsTable.Stores table P) ?_
    DefaultsTable.stores_empty added
  exact fun table name _ extended stores h => stores_addDefaults suits stores h

/-! ## Loaded indexes -/

variable {schema : Schema} {index : TypeIndex}

/-- The defaults of a loaded index were all written from values that have the property. -/
lemma stores_of_ofSchema (loaded : TypeIndex.ofSchema schema = .ok index)
    (suits : index.lookup.Suits P) : index.defaults.Stores P := by
  obtain ⟨_, order, -, -, added, -, -, -⟩ := TypeIndex.ofSchema_ok loaded
  exact stores_of_foldlM suits added

/-- The loader of a loaded index with its own defaults keeps every property that suits its types. -/
theorem keeps_of_ofSchema (loaded : TypeIndex.ofSchema schema = .ok index)
    (suits : index.lookup.Suits P) (token : ModuleToken) : (index.loader token).Keeps P :=
  Loader.Stores.keeps (l := index.loader token) (stores_of_ofSchema loaded suits) suits

end DocAnnotations
