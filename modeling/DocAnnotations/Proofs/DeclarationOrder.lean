import DocAnnotations.Proofs.TypeIndex
import Mathlib.Data.List.Forall2
import Mathlib.Data.List.Perm.Basic

/-!
# The order of declarations

A schema lists its types in some order, and a declaration may use names that are declared further
down.  An index should not depend on that order.

**What makes an index.**  Three things in an index are made from such a list.  The names that are
declared and the declaration of a name are the same for every order, because no name is declared
twice.  Interfaces are made one by one, so those of another order are the same in another order.
And everything is sorted by name, so the index has forgotten which order it was
(`sortedBy_of_perm`).

**Declarations in another order.**  From there on the schema is asked for nothing but declarations
by name.  **`loads_alike`**: schemas with the same declarations in different orders have the same
index or none.
-/

namespace DocAnnotations

open Attribute

/-! ## Lists in another order -/

section

variable {ε α β : Type}

/-- A computation succeeds on all items if and only if it succeeds on each, and the results stand in
the same order. -/
lemma mapM_eq_ok_iff {f : α → Except ε β} : ∀ {xs : List α} {ys : List β},
    xs.mapM f = .ok ys ↔ List.Forall₂ (fun x y => f x = .ok y) xs ys
  | [], ys => by
      rw [List.mapM_nil, List.forall₂_nil_left_iff]
      exact ⟨fun h => (Except.ok.inj h).symm, fun h => h ▸ rfl⟩
  | x :: xs, ys => by
      rw [List.mapM_cons, bind_eq_ok_iff, List.forall₂_cons_left_iff]
      refine exists_congr fun y => ?_
      rw [bind_eq_ok_iff]
      constructor
      · rintro ⟨first, ys', rest, last⟩
        exact ⟨ys', first, mapM_eq_ok_iff.1 rest, (Except.ok.inj last).symm⟩
      · rintro ⟨ys', first, rest, rfl⟩
        exact ⟨first, ys', mapM_eq_ok_iff.2 rest, rfl⟩

/-- Results of items in another order are the same results in another order. -/
lemma mapM_of_perm {f : α → Except ε β} {xs xs' : List α} {ys : List β} (same : xs.Perm xs')
    (h : xs.mapM f = .ok ys) : ∃ ys', xs'.mapM f = .ok ys' ∧ ys.Perm ys' := by
  obtain ⟨ys', each, perm⟩ := List.perm_comp_forall₂ same.symm (mapM_eq_ok_iff.1 h)
  exact ⟨ys', mapM_eq_ok_iff.2 each, perm.symm⟩

variable {key : α → String} {xs xs' : List α}

/-- Where keys are different, what is found is the item of the key. -/
lemma find?_eq_some_iff_mem (nodup : (xs.map key).Nodup) {k : String} {x : α} :
    (xs.find? fun x => key x == k) = some x ↔ x ∈ xs ∧ key x = k := by
  constructor
  · exact fun found => ⟨List.mem_of_find?_eq_some found, by simpa using List.find?_some found⟩
  · rintro ⟨mem, rfl⟩
    have some_ : (xs.find? fun y => key y == key x).isSome := by simpa using ⟨x, mem, rfl⟩
    obtain ⟨y, found⟩ := Option.isSome_iff_exists.1 some_
    have named : key y = key x := by simpa using List.find?_some found
    rw [found, List.inj_on_of_nodup_map nodup (List.mem_of_find?_eq_some found) mem named]

/-- So it is found wherever it stands. -/
lemma find?_of_perm (nodup : (xs.map key).Nodup) (same : xs.Perm xs') (k : String) :
    (xs.find? fun x => key x == k) = xs'.find? fun x => key x == k := by
  refine Option.ext fun x => ?_
  rw [find?_eq_some_iff_mem nodup, find?_eq_some_iff_mem ((same.map key).nodup_iff.1 nodup),
    same.mem_iff]

/-- Of two items with different keys either may be put in first. -/
lemma insertBy_comm_of_lt {x y : α} (less : key x < key y) : ∀ items : List α,
    insertBy key y (insertBy key x items) = insertBy key x (insertBy key y items)
  | [] => by simp [insertBy, less, String.lt_asymm less]
  | other :: items => by
      have ih := insertBy_comm_of_lt less items
      by_cases first : key other < key x
      · simp [insertBy, first, String.lt_trans first less, ih]
      · by_cases second : key other < key y <;>
          simp [insertBy, first, second, less, String.lt_asymm less]

/-- Two items with different keys can be inserted in either order. -/
lemma insertBy_comm {x y : α} (apart : key x ≠ key y) (items : List α) :
    insertBy key y (insertBy key x items) = insertBy key x (insertBy key y items) := by
  by_cases less : key x < key y
  · exact insertBy_comm_of_lt less items
  · have greater : key y < key x :=
      String.not_le.1 fun le => apart (String.le_antisymm le (String.not_lt.1 less))
    exact (insertBy_comm_of_lt greater items).symm

/-- Where keys are different, sorting forgets the order. -/
lemma sortedBy_of_perm (nodup : (xs.map key).Nodup) (same : xs.Perm xs') :
    sortedBy key xs = sortedBy key xs' := by
  refine same.foldr_eq' (fun x hx y hy items => ?_) []
  by_cases equal : key x = key y
  · rw [List.inj_on_of_nodup_map nodup hx hy equal]
  · exact insertBy_comm equal items

end

/-! ## What makes an index -/

/-- No name is found among those before it if there is none twice. -/
lemma firstDuplicate?_of_nodup : ∀ {names seen : List String}, names.Nodup →
    (∀ name ∈ names, name ∉ seen) → firstDuplicate? seen names = none
  | [], _, _, _ => rfl
  | name :: names, seen, nodup, fresh => by
      obtain ⟨new, nodup⟩ := List.nodup_cons.1 nodup
      obtain ⟨here, rest⟩ := List.forall_mem_cons.1 fresh
      rw [firstDuplicate?, if_neg (by simpa using here)]
      refine firstDuplicate?_of_nodup nodup fun n mem => ?_
      rw [List.mem_cons, not_or]
      exact ⟨fun same => new (same ▸ mem), rest n mem⟩

/-- An interface as it is declared, if its elements can be. -/
def Schema.interface? (schema : Schema) (d : InterfaceDeclaration) :
    Except SchemaError Interface := do
  return ⟨d.name, ← declareElements schema.declaresEnum schema.declaresInterface d.name []
    d.elements⟩

variable {schema other : Schema} {index : TypeIndex}

/-- Interfaces have the names of their declarations. -/
lemma names_of_forall₂_interface? {declarations : List InterfaceDeclaration}
    {interfaces : List Interface}
    (made : List.Forall₂ (fun d i => schema.interface? d = .ok i) declarations interfaces) :
    interfaces.map Interface.name = declarations.map InterfaceDeclaration.name := by
  induction made with
  | nil => rfl
  | cons first _ ih =>
      obtain ⟨elements, -, first⟩ := bind_eq_ok_iff.1 first
      cases Except.ok.inj first
      rw [List.map_cons, List.map_cons, ih]

/-- A schema has an index if it goes through all that an index is made from. -/
lemma TypeIndex.ofSchema_eq_ok {interfaces : List Interface} {order : List String}
    (unique : schema.typeNames.Nodup)
    (made : schema.annotations.mapM schema.interface? = .ok interfaces)
    (sorted : dependencyOrder index.references (index.annotations.map Interface.name) = .ok order)
    (added : order.foldlM (addDefaults index.lookup schema.annotations) .empty
      = .ok index.defaults)
    (annotations : index.annotations = sortedBy Interface.name interfaces)
    (enums : index.enums = sortedBy EnumType.name schema.enums)
    (classes : index.classes = sortedBy id schema.classes) :
    TypeIndex.ofSchema schema = .ok index := by
  obtain ⟨_, _, _, defaults⟩ := index
  dsimp only at annotations enums classes added
  subst annotations enums classes
  have none : firstDuplicate? [] schema.typeNames = none :=
    firstDuplicate?_of_nodup unique (by simp)
  unfold TypeIndex.ofSchema
  dsimp only
  rw [show schema.annotations.map InterfaceDeclaration.name ++ schema.enums.map EnumType.name
    ++ schema.classes = schema.typeNames from rfl, none]
  refine bind_eq_ok_iff.2 ⟨interfaces, made, ?_⟩
  refine bind_eq_ok_iff.2 ⟨order, sorted, ?_⟩
  exact bind_eq_ok_iff.2 ⟨defaults, added, rfl⟩

/-! ## Declarations in another order -/

/-- Two schemas declare the same types, in whatever order. -/
structure Schema.Reorders (schema other : Schema) : Prop where
  annotations : schema.annotations.Perm other.annotations
  enums : schema.enums.Perm other.enums
  classes : schema.classes.Perm other.classes

namespace Schema.Reorders

lemma symm (same : schema.Reorders other) : other.Reorders schema :=
  ⟨same.annotations.symm, same.enums.symm, same.classes.symm⟩

variable (same : schema.Reorders other)

include same

lemma typeNames : schema.typeNames.Perm other.typeNames :=
  ((same.annotations.map _).append (same.enums.map _)).append same.classes

/-- Declarations mean the same, since they may use all names that there are. -/
lemma interface?_eq : schema.interface? = other.interface? := by
  have enums : schema.declaresEnum = other.declaresEnum := funext fun _ => same.enums.any_eq
  have interfaces : schema.declaresInterface = other.declaresInterface :=
    funext fun _ => same.annotations.any_eq
  funext d
  rw [Schema.interface?, Schema.interface?, enums, interfaces]

/-- The defaults of an interface are declared by the one declaration of its name. -/
lemma addDefaults_eq (unique : schema.typeNames.Nodup) (types : TypeLookup) :
    addDefaults types schema.annotations = addDefaults types other.annotations := by
  have names : (schema.annotations.map InterfaceDeclaration.name).Nodup :=
    unique.of_append_left.of_append_left
  funext table name
  rw [addDefaults, addDefaults, find?_of_perm names same.annotations name]

/-- An index of a schema is one of the schema in another order. -/
lemma ofSchema (loaded : TypeIndex.ofSchema schema = .ok index) :
    TypeIndex.ofSchema other = .ok index := by
  have unique := TypeIndex.nodup_typeNames loaded
  obtain ⟨interfaces, order, made, sorted, added, annotations, enums, classes⟩ :=
    TypeIndex.ofSchema_ok loaded
  change schema.annotations.mapM schema.interface? = .ok interfaces at made
  obtain ⟨interfaces', made', perm⟩ := mapM_of_perm same.annotations made
  have names := names_of_forall₂_interface? (mapM_eq_ok_iff.1 made)
  refine TypeIndex.ofSchema_eq_ok (same.typeNames.nodup_iff.1 unique)
    (same.interface?_eq ▸ made') sorted (same.addDefaults_eq unique index.lookup ▸ added) ?_ ?_ ?_
  · rw [annotations]
    exact sortedBy_of_perm (names ▸ unique.of_append_left.of_append_left) perm
  · rw [enums]
    exact sortedBy_of_perm unique.of_append_left.of_append_right same.enums
  · rw [classes]
    exact sortedBy_of_perm (by simpa using unique.of_append_right) same.classes

end Schema.Reorders

/-- **The order of declarations makes no difference.**  Of two schemas that declare the same types
in different orders both have an index or neither has.  The indexes are equal: in their interfaces,
enums and classes, and in every byte of their defaults. -/
theorem loads_alike (same : schema.Reorders other) :
    (∀ index, TypeIndex.ofSchema schema = .ok index ↔ TypeIndex.ofSchema other = .ok index)
    ∧ ((∃ e, TypeIndex.ofSchema schema = .error e) ↔ ∃ e, TypeIndex.ofSchema other = .error e) := by
  have loads : ∀ index, TypeIndex.ofSchema schema = .ok index ↔
      TypeIndex.ofSchema other = .ok index := fun index => ⟨same.ofSchema, same.symm.ofSchema⟩
  refine ⟨loads, ?_⟩
  cases first : TypeIndex.ofSchema schema with
  | ok index => simp [(loads index).1 first]
  | error e =>
      cases second : TypeIndex.ofSchema other with
      | ok index =>
          rw [(loads index).2 second] at first
          cases first
      | error e' => simp

/-- A frame refers to a corner that is declared behind it, and has it for a default; the other names
that the defaults use are declared behind both. -/
def frameSchema : Schema where
  annotations :=
    [⟨"p.Frame", [⟨"corner", "()Lp/Corner;", some "@Corner"⟩,
        ⟨"owner", "()Ljava/lang/Class;", some "Thing.class"⟩]⟩,
      ⟨"p.Corner", [⟨"unit", "()Lp/Unit;", some "Unit.CM"⟩]⟩]
  enums := [⟨"p.Unit", ["CM", "INCH"]⟩, ⟨"p.Style", ["FLAT"]⟩]
  classes := ["p.Thing", "p.Other"]

/-- The schema with all of its lists the other way round. -/
def reversedFrameSchema : Schema where
  annotations := frameSchema.annotations.reverse
  enums := frameSchema.enums.reverse
  classes := frameSchema.classes.reverse

/-- The other way round the schema has the same index, in which a frame has a corner with the
default unit. -/
theorem loads_alike_reversedFrameSchema :
    frameSchema.Reorders reversedFrameSchema
    ∧ ∃ index, TypeIndex.ofSchema frameSchema = .ok index
      ∧ TypeIndex.ofSchema reversedFrameSchema = .ok index
      ∧ index.defaults.get? "p.Frame" "corner"
        = some [64, 0, 8, 112, 46, 67, 111, 114, 110, 101, 114, 0, 1, 0, 4, 117, 110, 105, 116, 101,
          0, 8, 76, 112, 47, 85, 110, 105, 116, 59, 0, 2, 67, 77] := by
  have same : frameSchema.Reorders reversedFrameSchema :=
    ⟨(List.reverse_perm _).symm, (List.reverse_perm _).symm, (List.reverse_perm _).symm⟩
  have checked : (TypeIndex.ofSchema frameSchema).toOption.map
      (fun index => index.defaults.get? "p.Frame" "corner")
      = some (some [64, 0, 8, 112, 46, 67, 111, 114, 110, 101, 114, 0, 1, 0, 4, 117, 110, 105, 116,
        101, 0, 8, 76, 112, 47, 85, 110, 105, 116, 59, 0, 2, 67, 77]) := by
    decide +kernel
  cases loaded : TypeIndex.ofSchema frameSchema with
  | error e =>
      rw [loaded] at checked
      cases checked
  | ok index =>
      rw [loaded] at checked
      exact ⟨same, index, rfl, ((loads_alike same).1 index).1 loaded, Option.some.inj checked⟩

end DocAnnotations
