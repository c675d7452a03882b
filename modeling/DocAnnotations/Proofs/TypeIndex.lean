import DocAnnotations.Proofs.Literal
import DocAnnotations.TypeIndex
import Mathlib.Data.List.Nodup

/-!
# What a loaded index holds

An index is made from a schema by a row of checks, each of which may refuse the schema.

**Declared elements.**  Every element of an interface is declared once (`declaresOnce`), and its
type is the one that was written, with names that the schema or the platform has.

**Loading.**  `TypeIndex.ofSchema_ok` is what all later proofs about loaded indexes start from: the
index is sorted, its interfaces are those of the schema, and its defaults were added interface by
interface, each time with the types of the finished index.

**Names that are found.**  The names that an index finds, qualified or simple, are those of types
that it has (`TypeIndex.findsLoadable`).

A small schema and its index serve as the example in other modules.
-/

namespace DocAnnotations

open Attribute

/-! ## Runs of checks -/

section

variable {ε α β : Type}

lemma mem_of_mapM_ok {f : α → Except ε β} : ∀ {xs : List α} {ys : List β},
    xs.mapM f = .ok ys → ∀ y ∈ ys, ∃ x ∈ xs, f x = .ok y
  | [], ys, h, y, hy => by
      cases Except.ok.inj h
      cases hy
  | x :: xs, ys, h, y, hy => by
      rw [List.mapM_cons] at h
      obtain ⟨z, hz, h⟩ := bind_eq_ok_iff.1 h
      obtain ⟨zs, hzs, h⟩ := bind_eq_ok_iff.1 h
      cases Except.ok.inj h
      rcases List.mem_cons.1 hy with rfl | hy
      · exact ⟨x, List.mem_cons_self, hz⟩
      · obtain ⟨w, hw, step⟩ := mem_of_mapM_ok hzs y hy
        exact ⟨w, List.mem_cons_of_mem _ hw, step⟩

lemma exists_of_mapM_ok {f : α → Except ε β} : ∀ {xs : List α} {ys : List β},
    xs.mapM f = .ok ys → ∀ x ∈ xs, ∃ y ∈ ys, f x = .ok y
  | [], _, _, _, hx => by cases hx
  | x :: xs, ys, h, w, hw => by
      rw [List.mapM_cons] at h
      obtain ⟨z, hz, h⟩ := bind_eq_ok_iff.1 h
      obtain ⟨zs, hzs, h⟩ := bind_eq_ok_iff.1 h
      cases Except.ok.inj h
      rcases List.mem_cons.1 hw with rfl | hw
      · exact ⟨z, List.mem_cons_self, hz⟩
      · obtain ⟨y, hy, step⟩ := exists_of_mapM_ok hzs w hw
        exact ⟨y, List.mem_cons_of_mem _ hy, step⟩

/-- What every step keeps holds at the end. -/
lemma foldlM_keeps {motive : β → Prop} {step : β → α → Except ε β} :
    ∀ {xs : List α} {b c : β},
    (∀ b, ∀ x ∈ xs, ∀ c, motive b → step b x = .ok c → motive c) →
    motive b → xs.foldlM step b = .ok c → motive c
  | [], b, c, _, start, h => by
      cases Except.ok.inj h
      exact start
  | x :: xs, b, c, keeps, start, h => by
      rw [List.foldlM_cons] at h
      obtain ⟨d, hd, h⟩ := bind_eq_ok_iff.1 h
      exact foldlM_keeps (fun b y hy => keeps b y (List.mem_cons_of_mem _ hy))
        (keeps b x List.mem_cons_self d start hd) h

end

/-! ## Declared elements -/

/-- Elements that were declared one after the other have different names. -/
lemma nodup_declareElements {isEnum isAnnotation : String → Bool} {interface : String} :
    ∀ {declarations : List ElementDeclaration} {declared elements : List Element},
    declareElements isEnum isAnnotation interface declared declarations = .ok elements →
    (declared.map Element.name).Nodup → (elements.map Element.name).Nodup
  | [], declared, elements, h, nodup => by
      cases Except.ok.inj h
      exact nodup
  | d :: declarations, declared, elements, h, nodup => by
      rw [declareElements] at h
      split_ifs at h with seen
      split at h
      · cases h
      · split at h
        · cases h
        · refine nodup_declareElements h ?_
          rw [List.map_append, List.nodup_append]
          refine ⟨nodup, List.nodup_singleton _, ?_⟩
          intro n hn m hm same
          obtain ⟨e, he, rfl⟩ := List.mem_map.1 hn
          rw [List.map_singleton, List.mem_singleton] at hm
          exact seen (List.any_eq_true.2 ⟨e, he, by simp [same, hm]⟩)

/-- An element that refers to an interface refers to a declared one. -/
lemma isAnnotation_of_elementType? {isEnum isAnnotation : String → Bool} {d : TypeDescriptor}
    {type : ElementType} {name : String} (h : elementType? isEnum isAnnotation d = some type)
    (referenced : type.referenced? = some name) : isAnnotation name = true := by
  have scalar : ∀ {base type}, scalarType? isEnum isAnnotation base = some type →
      type.referenced? = some name → isAnnotation name = true := by
    intro base type h referenced
    cases base with
    | keyword keyword =>
        rw [scalarType?, ElementType.ofKeyword?] at h
        have primitive := List.mem_of_find?_eq_some h
        simp only [List.mem_cons, List.not_mem_nil, or_false] at primitive
        rcases primitive with rfl | rfl | rfl | rfl | rfl | rfl | rfl | rfl <;> cases referenced
    | object other =>
        rw [scalarType?] at h
        split_ifs at h with _ _ _ known <;> cases h <;> cases referenced
        exact known
  unfold elementType? at h
  split at h
  · exact scalar h referenced
  · obtain ⟨inner, found, rfl⟩ := Option.map_eq_some_iff.1 h
    exact scalar found referenced
  · cases h

/-- Every element is one that was declared, and refers to declared interfaces only. -/
lemma mem_declareElements {isEnum isAnnotation : String → Bool} {interface : String} {e : Element} :
    ∀ {declarations : List ElementDeclaration} {declared elements : List Element},
    declareElements isEnum isAnnotation interface declared declarations = .ok elements →
    e ∈ elements → e ∈ declared ∨ (∃ d ∈ declarations, d.name = e.name) ∧
      ∀ name, e.type.referenced? = some name → isAnnotation name = true
  | [], declared, elements, h, he => by
      cases Except.ok.inj h
      exact Or.inl he
  | d :: declarations, declared, elements, h, he => by
      rw [declareElements] at h
      split_ifs at h
      split at h
      · cases h
      · split at h
        · cases h
        · next type typed =>
          rcases mem_declareElements h he with there | ⟨⟨d', hd', named⟩, refers⟩
          · rcases List.mem_append.1 there with there | there
            · exact Or.inl there
            · rw [List.mem_singleton.1 there]
              exact Or.inr ⟨⟨d, List.mem_cons_self, rfl⟩,
                fun name => isAnnotation_of_elementType? typed⟩
          · exact Or.inr ⟨⟨d', List.mem_cons_of_mem _ hd', named⟩, refers⟩

/-- An element as it is declared, with the name and the type that the descriptor stands for. -/
def ElementDeclaration.Declares (isEnum isAnnotation : String → Bool) (d : ElementDeclaration)
    (e : Element) : Prop :=
  e.name = d.name ∧ ∃ descriptor, elementReturnType d.descriptor = .ok descriptor
    ∧ elementType? isEnum isAnnotation descriptor = some e.type

/-- Every declaration makes one element, behind those that were there. -/
lemma forall₂_declareElements {isEnum isAnnotation : String → Bool} {interface : String} :
    ∀ {declarations : List ElementDeclaration} {declared elements : List Element},
    declareElements isEnum isAnnotation interface declared declarations = .ok elements →
    ∃ new, elements = declared ++ new ∧
      List.Forall₂ (ElementDeclaration.Declares isEnum isAnnotation) declarations new
  | [], declared, elements, h => by
      cases Except.ok.inj h
      exact ⟨[], (List.append_nil _).symm, .nil⟩
  | d :: declarations, declared, elements, h => by
      rw [declareElements] at h
      split_ifs at h
      split at h
      · cases h
      · next descriptor read =>
        split at h
        · cases h
        · next type typed =>
          obtain ⟨new, rfl, all⟩ := forall₂_declareElements h
          exact ⟨_ :: new, List.append_assoc .., .cons ⟨rfl, descriptor, read, typed⟩ all⟩

section

variable {isEnum isAnnotation : String → Bool} {declarations : List ElementDeclaration}
  {elements : List Element}

/-- Declared elements have the names of their declarations, in order. -/
lemma names_of_forall₂ (all : List.Forall₂ (ElementDeclaration.Declares isEnum isAnnotation)
    declarations elements) :
    elements.map Element.name = declarations.map ElementDeclaration.name := by
  induction all with
  | nil => rfl
  | cons declares _ ih => rw [List.map_cons, List.map_cons, declares.1, ih]

lemma exists_of_forall₂ (all : List.Forall₂ (ElementDeclaration.Declares isEnum isAnnotation)
    declarations elements) : ∀ d ∈ declarations, ∃ e ∈ elements,
      d.Declares isEnum isAnnotation e := by
  induction all with
  | nil => simp
  | @cons d e _ _ declares _ ih =>
      refine List.forall_mem_cons.2 ⟨⟨e, List.mem_cons_self, declares⟩, fun d' mem => ?_⟩
      obtain ⟨e', mem', declares'⟩ := ih d' mem
      exact ⟨e', List.mem_cons_of_mem _ mem', declares'⟩

end

/-! ## Names that occur once -/

/-- Names among which no duplicate is found are different, also from those seen before. -/
lemma nodup_of_firstDuplicate? : ∀ {names seen : List String},
    firstDuplicate? seen names = none → names.Nodup ∧ ∀ name ∈ names, name ∉ seen
  | [], _, _ => ⟨List.nodup_nil, by simp⟩
  | name :: names, seen, h => by
      rw [firstDuplicate?] at h
      split_ifs at h with there
      obtain ⟨nodup, fresh⟩ := nodup_of_firstDuplicate? h
      rw [List.contains_iff_mem] at there
      refine ⟨List.nodup_cons.2 ⟨fun again => fresh name again List.mem_cons_self, nodup⟩, ?_⟩
      exact List.forall_mem_cons.2
        ⟨there, fun n mem old => fresh n mem (List.mem_cons_of_mem _ old)⟩

/-! ## Sorting -/

section

variable {α : Type} {key : α → String} {item x : α}

/-- Inserting an item adds this item and nothing else. -/
lemma mem_insertBy : ∀ {items : List α}, x ∈ insertBy key item items ↔ x = item ∨ x ∈ items
  | [] => by simp [insertBy]
  | other :: items => by
      rw [insertBy]
      split_ifs
      · rw [List.mem_cons, mem_insertBy, List.mem_cons]
        exact or_left_comm
      · rw [List.mem_cons]

lemma mem_sortedBy : ∀ {items : List α}, x ∈ sortedBy key items ↔ x ∈ items
  | [] => Iff.rfl
  | item :: items => by
      have ih : x ∈ sortedBy key items ↔ x ∈ items := mem_sortedBy
      rw [sortedBy, List.foldr_cons, mem_insertBy, List.mem_cons]
      exact or_congr_right ih

end

/-! ## Loading -/

variable {schema : Schema} {index : TypeIndex}

/-- The interfaces that an interface of a given name refers to. -/
def TypeIndex.references (index : TypeIndex) (name : String) : List String :=
  match index.annotation? name with
  | some i => i.references
  | none => []

/-- Whether a schema declares an annotation interface of a name. -/
def Schema.declaresInterface (schema : Schema) (name : String) : Bool :=
  schema.annotations.any fun a => a.name == name

/-- Whether a schema declares an enum of a name. -/
def Schema.declaresEnum (schema : Schema) (name : String) : Bool :=
  schema.enums.any fun e => e.name == name

/-- The names of all types that a schema declares. -/
def Schema.typeNames (schema : Schema) : List String :=
  schema.annotations.map InterfaceDeclaration.name ++ schema.enums.map EnumType.name
    ++ schema.classes

/-- No type is declared twice. -/
lemma TypeIndex.nodup_typeNames (h : TypeIndex.ofSchema schema = .ok index) :
    schema.typeNames.Nodup := by
  unfold TypeIndex.ofSchema at h
  dsimp only at h
  split at h
  · cases h
  · next unique =>
    exact (nodup_of_firstDuplicate? (Option.eq_none_iff_forall_ne_some.2 unique)).1

/-- What a schema went through to become an index. -/
lemma TypeIndex.ofSchema_ok (h : TypeIndex.ofSchema schema = .ok index) :
    ∃ (interfaces : List Interface) (order : List String),
      schema.annotations.mapM (fun d => do
        return (⟨d.name, ← declareElements schema.declaresEnum schema.declaresInterface d.name []
          d.elements⟩ : Interface)) = .ok interfaces
      ∧ dependencyOrder index.references (index.annotations.map Interface.name) = .ok order
      ∧ order.foldlM (addDefaults index.lookup schema.annotations) .empty = .ok index.defaults
      ∧ index.annotations = sortedBy Interface.name interfaces
      ∧ index.enums = sortedBy EnumType.name schema.enums
      ∧ index.classes = sortedBy id schema.classes := by
  unfold TypeIndex.ofSchema at h
  dsimp only at h
  split at h
  · cases h
  · obtain ⟨-, -, h⟩ := bind_eq_ok_iff.1 h
    obtain ⟨interfaces, declared, h⟩ := bind_eq_ok_iff.1 h
    obtain ⟨order, sorted, h⟩ := bind_eq_ok_iff.1 h
    obtain ⟨defaults, added, h⟩ := bind_eq_ok_iff.1 h
    cases Except.ok.inj h
    exact ⟨interfaces, order, declared, sorted, added, rfl, rfl, rfl⟩

/-- Every interface of an index is one that the schema declares, with its elements declared once. -/
lemma TypeIndex.declared_of_mem (h : TypeIndex.ofSchema schema = .ok index) {i : Interface}
    (hi : i ∈ index.annotations) :
    (i.elements.map Element.name).Nodup ∧ ∃ d ∈ schema.annotations, i.name = d.name := by
  obtain ⟨interfaces, -, declared, -, -, annotations, -, -⟩ := ofSchema_ok h
  rw [annotations, mem_sortedBy] at hi
  obtain ⟨d, hd, step⟩ := mem_of_mapM_ok declared i hi
  obtain ⟨elements, helements, step⟩ := bind_eq_ok_iff.1 step
  cases Except.ok.inj step
  exact ⟨nodup_declareElements helements List.nodup_nil, d, hd, rfl⟩

/-- Every element of an interface is one that the schema declares for it, and refers to declared
interfaces only. -/
lemma TypeIndex.element_of_mem (h : TypeIndex.ofSchema schema = .ok index) {i : Interface}
    (hi : i ∈ index.annotations) {e : Element} (he : e ∈ i.elements) :
    (∃ d ∈ schema.annotations, d.name = i.name ∧ ∃ declared ∈ d.elements, declared.name = e.name) ∧
      ∀ name, e.type.referenced? = some name → schema.declaresInterface name = true := by
  obtain ⟨interfaces, -, declared, -, -, annotations, -, -⟩ := ofSchema_ok h
  rw [annotations, mem_sortedBy] at hi
  obtain ⟨d, hd, step⟩ := mem_of_mapM_ok declared i hi
  obtain ⟨elements, helements, step⟩ := bind_eq_ok_iff.1 step
  cases Except.ok.inj step
  rcases mem_declareElements helements he with none | ⟨there, refers⟩
  · cases none
  · exact ⟨⟨d, hd, rfl, there⟩, refers⟩

/-- Every interface that the schema declares is in the index. -/
lemma TypeIndex.mem_of_declaresInterface (h : TypeIndex.ofSchema schema = .ok index)
    {name : String} (declares : schema.declaresInterface name = true) :
    name ∈ index.annotations.map Interface.name := by
  obtain ⟨interfaces, -, declared, -, -, annotations, -, -⟩ := ofSchema_ok h
  obtain ⟨d, hd, named⟩ := List.any_eq_true.1 declares
  obtain ⟨i, hi, step⟩ := exists_of_mapM_ok declared d hd
  obtain ⟨elements, -, step⟩ := bind_eq_ok_iff.1 step
  cases Except.ok.inj step
  exact List.mem_map.2 ⟨_, annotations ▸ mem_sortedBy.2 hi, beq_iff_eq.1 named⟩

/-- Every declared interface is found under its name, with the elements declared for it. -/
lemma TypeIndex.annotation?_of_declared (h : TypeIndex.ofSchema schema = .ok index)
    {d : InterfaceDeclaration} (declared : d ∈ schema.annotations) :
    ∃ i, index.annotation? d.name = some i ∧ List.Forall₂
      (ElementDeclaration.Declares schema.declaresEnum schema.declaresInterface)
      d.elements i.elements := by
  have listed : d.name ∈ index.annotations.map Interface.name :=
    mem_of_declaresInterface h (List.any_eq_true.2 ⟨d, declared, beq_self_eq_true _⟩)
  obtain ⟨j, mem, named⟩ := List.mem_map.1 listed
  have found : (index.annotation? d.name).isSome := by
    simpa [TypeIndex.annotation?] using ⟨j, mem, named⟩
  obtain ⟨i, found⟩ := Option.isSome_iff_exists.1 found
  refine ⟨i, found, ?_⟩
  obtain ⟨interfaces, -, made, -, -, annotations, -, -⟩ := ofSchema_ok h
  have mem : i ∈ interfaces := mem_sortedBy.1 (annotations ▸ index.mem_of_annotation? found)
  obtain ⟨d', declared', step⟩ := mem_of_mapM_ok made i mem
  obtain ⟨elements, helements, step⟩ := bind_eq_ok_iff.1 step
  have name := index.name_of_annotation? found
  cases Except.ok.inj step
  have unique : (schema.annotations.map InterfaceDeclaration.name).Nodup :=
    ((nodup_typeNames h).of_append_left).of_append_left
  cases List.inj_on_of_nodup_map unique declared' declared name
  obtain ⟨new, rfl, all⟩ := forall₂_declareElements helements
  exact all

/-- The interfaces that are found declare every element once. -/
lemma TypeIndex.declaresOnce (h : TypeIndex.ofSchema schema = .ok index) :
    index.lookup.DeclaresOnce :=
  fun _ known => (declared_of_mem h (index.mem_of_annotation? known)).1

/-! ## Names that are found -/

lemma TypeIndex.name_of_enumeration? {name : String} {e : EnumType}
    (h : index.enumeration? name = some e) : e.name = name := by
  simpa using List.find?_some h

lemma TypeIndex.isClass_of_mem_names {name : String} (h : name ∈ index.names) :
    index.isClass name = true := by
  simp only [TypeIndex.names, List.mem_append, List.mem_map] at h
  simp only [TypeIndex.isClass, Bool.or_eq_true, List.contains_iff_mem, TypeIndex.annotation?,
    TypeIndex.enumeration?, List.find?_isSome, beq_iff_eq]
  rcases h with (h | h) | h
  · exact Or.inl (Or.inl (Or.inl h))
  · exact Or.inl (Or.inl (Or.inr h))
  · exact Or.inl (Or.inr h)

/-- An enum that is found is one that the schema declares. -/
lemma TypeIndex.mem_of_enumeration? (h : TypeIndex.ofSchema schema = .ok index) {name : String}
    {e : EnumType} (found : index.enumeration? name = some e) : name ∈ schema.typeNames := by
  obtain ⟨_, _, -, -, -, -, enums, -⟩ := ofSchema_ok h
  have mem : e ∈ index.enums := List.mem_of_find?_eq_some found
  rw [enums, mem_sortedBy] at mem
  have named : e.name = name := name_of_enumeration? found
  refine List.mem_append_left _ (List.mem_append_right _ ?_)
  exact List.mem_map.2 ⟨e, mem, named⟩

/-- A class that can be loaded is one that the schema declares, or one of the platform. -/
lemma TypeIndex.mem_of_isClass (h : TypeIndex.ofSchema schema = .ok index) {name : String}
    (known : index.isClass name = true) : name ∈ schema.typeNames ∨ name ∈ platformClasses := by
  obtain ⟨_, _, -, -, -, -, -, classes⟩ := ofSchema_ok h
  simp only [TypeIndex.isClass, Bool.or_eq_true, List.contains_iff_mem,
    Option.isSome_iff_exists] at known
  rcases known with ((known | ⟨i, known⟩) | ⟨e, known⟩) | known
  · rw [classes, mem_sortedBy] at known
    exact Or.inl (List.mem_append_right _ known)
  · obtain ⟨-, d, hd, named⟩ := declared_of_mem h (index.mem_of_annotation? known)
    rw [index.name_of_annotation? known] at named
    refine Or.inl (List.mem_append_left _ (List.mem_append_left _ ?_))
    exact List.mem_map.2 ⟨d, hd, named.symm⟩
  · exact Or.inl (mem_of_enumeration? h known)
  · exact Or.inr known

/-- A class name as written in source refers to a class that can be loaded. -/
lemma TypeIndex.isClass_of_findClass? {name found : String}
    (h : index.findClass? name = some found) : index.isClass found = true := by
  unfold TypeIndex.findClass? at h
  split_ifs at h with isClass
  · cases h
    exact isClass
  · split at h
    · dsimp only at h
      split_ifs at h with platform
      cases h
      rw [TypeIndex.isClass, platform, Bool.or_true]
    · next only alone =>
      cases h
      have mem : found ∈ index.names.filter fun n => Text.simpleName n == name := by simp [alone]
      exact isClass_of_mem_names (List.mem_of_mem_filter mem)
    · cases h

/-- No declared or platform class but `void` itself has the simple name `void`. -/
lemma TypeIndex.eq_void_of_findClass? {name : String} (h : index.findClass? name = some "void") :
    name = "void" := by
  unfold TypeIndex.findClass? at h
  split_ifs at h with isClass
  · exact Option.some.inj h
  · split at h
    · dsimp only at h
      split_ifs at h with platform
      have there := List.contains_iff_mem.1 platform
      rw [Option.some.inj h] at there
      exact absurd there (by decide)
    · next only alone =>
      have mem : only ∈ index.names.filter fun n => Text.simpleName n == name := by simp [alone]
      have named := (List.mem_filter.1 mem).2
      rw [Option.some.inj h, beq_iff_eq] at named
      rw [← named]
      decide
    · cases h

/-- Names found in an index are names of types that it has. -/
lemma TypeIndex.findsLoadable (index : TypeIndex) : index.lookup.FindsLoadable where
  classes := isClass_of_findClass?
  void := eq_void_of_findClass?
  enums := name_of_enumeration?

/-! ## A small index -/

/-- A schema of shapes at points; a point has a default, and so has a shape. -/
def sampleSchema : Schema where
  annotations :=
    [⟨"p.Point", [⟨"unit", "()Lp/Unit;", none⟩, ⟨"x", "()I", some "7"⟩]⟩,
      ⟨"p.Shape", [⟨"at", "()Lp/Point;", none⟩,
        ⟨"keys", "()[Ljava/lang/Class;", some "\x7bint.class\x7d"⟩, ⟨"mark", "()C", none⟩]⟩]
  enums := [⟨"p.Unit", ["CM", "INCH"]⟩]
  classes := ["p.Thing"]

/-- The index of the schema of shapes. -/
def sampleIndex : TypeIndex where
  annotations :=
    [⟨"p.Point", [⟨"unit", .enum "p.Unit", "()Lp/Unit;"⟩, ⟨"x", .int, "()I"⟩]⟩,
      ⟨"p.Shape", [⟨"at", .interface "p.Point", "()Lp/Point;"⟩,
        ⟨"keys", .array .classRef, "()[Ljava/lang/Class;"⟩, ⟨"mark", .char, "()C"⟩]⟩]
  enums := [⟨"p.Unit", ["CM", "INCH"]⟩]
  classes := ["p.Thing"]
  defaults :=
    ⟨[(("p.Shape", "keys"), [91, 0, 1, 99, 0, 1, 73]), (("p.Point", "x"), [73, 0, 0, 0, 7])]⟩

lemma ofSchema_sampleSchema : TypeIndex.ofSchema sampleSchema = .ok sampleIndex := by
  decide +kernel

end DocAnnotations
