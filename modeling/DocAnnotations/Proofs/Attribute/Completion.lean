import DocAnnotations.Attribute.Decode
import DocAnnotations.Proofs.Value.Elements
import DocAnnotations.Proofs.Value.Everywhere

/-!
# Completion from defaults

The readers decide by a count whether an annotation needs its defaults, and add these one after the
other.  This module follows them through a whole value.

**Adding defaults.**  `get?_completed` is the meaning of one merge: an element keeps the value that
it has, and otherwise takes that of the defaults.  `completed_completed` says that a second merge
adds nothing.

**Lacking elements.**  An annotation lacks elements when it has fewer than its interface declares.
`perm_of_not_lacks` and `not_lacks_of_contains` relate the count to the elements themselves, for
annotations of declared elements and, in the second, for interfaces that declare no element twice.

**Completion at every depth.**  Given the defaults of every interface, `Value.completedWith` adds
them to each annotation in a value that lacks elements, innermost annotations first.
`completedWith_of_filled` says when nothing is added anywhere. -/

namespace DocAnnotations

open Attribute
open Annotation (contains)

/-! ## Adding defaults -/

/-- Elements of one annotation added to another, where it has none of the name. -/
lemma get?_foldl_insertNew (name : String) : ∀ (es : List (String × Value)) (a : Annotation),
    (es.foldl (fun a e => a.insertNew e.1 e.2) a).get? name
      = (a.get? name).or (lookupElement name es)
  | [], a => by simp [lookupElement]
  | (n, v) :: es, a => by
      rw [List.foldl_cons, get?_foldl_insertNew name es, Annotation.get?_insertNew, lookupElement]
      cases a.get? name with
      | some w => simp
      | none => by_cases h : n = name <;> simp [h]

/-- Own elements count, and defaults stand in for the others. -/
lemma get?_completed (a d : Annotation) (name : String) :
    (completed a d).get? name = (a.get? name).or (d.get? name) :=
  get?_foldl_insertNew name d.elements a

/-- What each added element keeps is kept by completion. -/
lemma completed_induction {motive : Annotation → Prop} {a d : Annotation} (base : motive a)
    (step : ∀ b, ∀ p ∈ d.elements, motive b → motive (b.insertNew p.1 p.2)) :
    motive (completed a d) := by
  unfold completed
  generalize d.elements = es at step
  induction es generalizing a with
  | nil => exact base
  | cons p es ih =>
      rw [List.foldl_cons]
      exact ih (step a p List.mem_cons_self base)
        fun b q hq => step b q (List.mem_cons_of_mem _ hq)

@[simp] lemma typeName_completed (a d : Annotation) : (completed a d).typeName = a.typeName :=
  completed_induction (motive := fun b => b.typeName = a.typeName) rfl fun b p _ h => by simp [h]

/-- Completion inserts in place, so that elements in order stay in order whatever order the defaults
have. -/
lemma ordered_completed {a d : Annotation} (h : a.Ordered) : (completed a d).Ordered :=
  completed_induction h fun _ _ _ hb => hb.insertNew

/-- Each element of a completed annotation comes from one of the two annotations that were
merged. -/
lemma mem_completed {a d : Annotation} {p : String × Value} :
    p ∈ (completed a d).elements → p ∈ a.elements ∨ p ∈ d.elements := by
  refine completed_induction (motive := fun b => p ∈ b.elements → _) Or.inl fun b q hq ih h => ?_
  rcases Annotation.mem_insertNew h with rfl | h
  · exact Or.inr hq
  · exact ih h

/-- There is nothing to add of what is there. -/
lemma completed_of_contains {a d : Annotation}
    (has : ∀ p ∈ d.elements, a.contains p.1 = true) : completed a d = a :=
  completed_induction (motive := fun b => b = a) rfl fun b p hp same => by
    rw [same, Annotation.insertNew, if_pos (has p hp)]

/-- Defaults are added once. -/
lemma completed_completed (a d : Annotation) : completed (completed a d) d = completed a d := by
  refine completed_of_contains fun p hp => ?_
  have there : (d.get? p.1).isSome := (isSome_lookupElement p.1 d.elements).2
    (List.mem_map_of_mem hp)
  rw [contains, get?_completed, Option.isSome_or, there, Bool.or_true]

/-! ## Lacking elements -/

/-- An annotation has fewer elements than an interface declares. -/
def Annotation.Lacks (a : Annotation) (i : Interface) : Prop := a.size < i.elements.length

instance (a : Annotation) (i : Interface) : Decidable (a.Lacks i) := Nat.decLt _ _

section

variable {a : Annotation} {i : Interface}

/-- An annotation of declared elements that lacks none of them has each of them once. -/
lemma perm_of_not_lacks (ordered : a.Ordered)
    (declared : ∀ p ∈ a.elements, ∃ e ∈ i.elements, e.name = p.1) (enough : ¬ a.Lacks i) :
    (a.elements.map Prod.fst).Perm (i.elements.map Element.name) := by
  have known : ∀ p ∈ a.elements, p.1 ∈ i.elements.map Element.name := fun p hp =>
    List.mem_map.2 (declared p hp)
  have many : (i.elements.map Element.name).length ≤ a.size := by
    rw [List.length_map]
    exact Nat.not_lt.1 enough
  exact Annotation.perm_of_length_le ordered known many

/-- An annotation of declared elements that lacks none in number has a value for each declared
name. -/
lemma contains_of_not_lacks (ordered : a.Ordered)
    (declared : ∀ p ∈ a.elements, ∃ e ∈ i.elements, e.name = p.1) (enough : ¬ a.Lacks i) :
    ∀ e ∈ i.elements, a.contains e.name = true := fun _ he =>
  Annotation.contains_iff.2
    ((perm_of_not_lacks ordered declared enough).mem_iff.2 (List.mem_map_of_mem he))

/-- Where elements are declared once, an annotation that has them all lacks none of them. -/
lemma not_lacks_of_contains (nodup : (i.elements.map Element.name).Nodup)
    (has : ∀ e ∈ i.elements, a.contains e.name = true) : ¬ a.Lacks i := by
  have many : (i.elements.map Element.name).length ≤ a.size := by
    refine Annotation.length_le_size nodup fun n hn => ?_
    obtain ⟨e, he, rfl⟩ := List.mem_map.1 hn
    exact has e he
  rw [List.length_map] at many
  exact Nat.not_lt.2 many

end

/-! ## Completion at every depth -/

/-- An annotation completed from the defaults of its interface, if it lacks elements. -/
def Annotation.filledFrom (types : TypeLookup) (D : Interface → Annotation) (a : Annotation) :
    Annotation :=
  match types.annotation? a.typeName with
  | none => a
  | some i => if a.Lacks i then completed a (D i) else a

mutual

/-- A value with all annotations in it completed from the defaults of their interfaces. -/
def Value.completedWith (types : TypeLookup) (D : Interface → Annotation) : Value → Value
  | .nested ⟨name, elements⟩ =>
    .nested (.filledFrom types D ⟨name, completedElements types D elements⟩)
  | .array vs => .array (completedValues types D vs)
  | v => v

/-- Several values with all annotations in them completed. -/
def completedValues (types : TypeLookup) (D : Interface → Annotation) : List Value → List Value
  | [] => []
  | v :: vs => v.completedWith types D :: completedValues types D vs

/-- The values of several elements with all annotations in them completed. -/
def completedElements (types : TypeLookup) (D : Interface → Annotation) :
    List (String × Value) → List (String × Value)
  | [] => []
  | (name, v) :: es => (name, v.completedWith types D) :: completedElements types D es

end

/-- An annotation and all annotations in it completed from the defaults of their interfaces. -/
def Annotation.completedWith (types : TypeLookup) (D : Interface → Annotation) (a : Annotation) :
    Annotation :=
  Annotation.filledFrom types D ⟨a.typeName, completedElements types D a.elements⟩

variable {types : TypeLookup} {D : Interface → Annotation}

@[simp] lemma completedWith_nested (a : Annotation) :
    (Value.nested a).completedWith types D = .nested (a.completedWith types D) := by
  cases a
  rw [Value.completedWith, Annotation.completedWith]

/-- The elements keep their names and places, and each value is completed by itself. -/
lemma completedElements_eq_map : ∀ es : List (String × Value),
    completedElements types D es = es.map fun p => (p.1, p.2.completedWith types D)
  | [] => rfl
  | (name, v) :: es => by
      rw [completedElements, List.map_cons, completedElements_eq_map es]

/-- The values of an array keep their places, and each is completed by itself. -/
lemma completedValues_eq_map : ∀ vs : List Value,
    completedValues types D vs = vs.map fun v => v.completedWith types D
  | [] => rfl
  | v :: vs => by rw [completedValues, List.map_cons, completedValues_eq_map vs]

/-- Completing the values inside does not change how many elements there are, so the count may come
first. -/
lemma length_completedElements (es : List (String × Value)) :
    (completedElements types D es).length = es.length := by
  rw [completedElements_eq_map, List.length_map]

/-- Under each name stands the completion of the value that stood there. -/
lemma lookupElement_completedElements (n : String) : ∀ es : List (String × Value),
    lookupElement n (completedElements types D es)
      = (lookupElement n es).map fun v => v.completedWith types D
  | [] => rfl
  | (name, v) :: es => by
      rw [completedElements, lookupElement, lookupElement, lookupElement_completedElements n es]
      split_ifs <;> rfl

@[simp] lemma typeName_filledFrom (a : Annotation) :
    (a.filledFrom types D).typeName = a.typeName := by
  unfold Annotation.filledFrom
  split
  · rfl
  · split_ifs <;> simp

@[simp] lemma typeName_completedWith (a : Annotation) :
    (a.completedWith types D).typeName = a.typeName := by
  unfold Annotation.completedWith
  rw [typeName_filledFrom]

/-- What stands under a name after completion: the completed value that stood there, or else, if the
annotation lacked elements, what the defaults give for the name. -/
lemma get?_completedWith {a : Annotation} {i : Interface}
    (found : types.annotation? a.typeName = some i) (n : String) :
    (a.completedWith types D).get? n = ((a.get? n).map fun v => v.completedWith types D).or
      (if a.Lacks i then (D i).get? n else none) := by
  have inner : Annotation.get? ⟨a.typeName, completedElements types D a.elements⟩ n
      = (a.get? n).map fun v => v.completedWith types D :=
    lookupElement_completedElements n a.elements
  have size : Annotation.Lacks ⟨a.typeName, completedElements types D a.elements⟩ i ↔ a.Lacks i :=
    iff_of_eq (congrArg (· < i.elements.length) (length_completedElements a.elements))
  unfold Annotation.completedWith Annotation.filledFrom
  rw [found]
  dsimp only
  by_cases lacks : a.Lacks i
  · rw [if_pos (size.2 lacks), if_pos lacks, get?_completed, inner]
  · rw [if_neg fun h => lacks (size.1 h), if_neg lacks, inner, Option.or_none]

/-- Completion keeps the order of elements. -/
lemma ordered_completedWith {a : Annotation} (h : a.Ordered) :
    (a.completedWith types D).Ordered := by
  have inner : Annotation.Ordered ⟨a.typeName, completedElements types D a.elements⟩ := by
    unfold Annotation.Ordered
    rw [completedElements_eq_map]
    exact List.pairwise_map.2 h
  unfold Annotation.completedWith Annotation.filledFrom
  split
  · exact inner
  · split_ifs
    · exact ordered_completed inner
    · exact inner

mutual

/-- Completion does not change of which type a value is. -/
lemma conforms_completedWith : ∀ (v : Value) (ty : ElementType),
    (v.completedWith types D).conforms ty = v.conforms ty
  | .nested a, ty => by cases ty <;> simp [Value.conforms]
  | .array vs, ty => by
      cases ty with
      | array element =>
          rw [Value.completedWith, Value.conforms, Value.conforms, allConform_completedValues vs]
      | _ => simp [Value.completedWith, Value.conforms]
  | .byte _, _ | .short _, _ | .int _, _ | .long _, _ | .float _, _ | .double _, _ | .boolean _, _
  | .char _, _ | .string _, _ | .classRef _, _ | .enum _, _ => by rw [Value.completedWith] <;> simp

lemma allConform_completedValues : ∀ (vs : List Value) (ty : ElementType),
    allConform (completedValues types D vs) ty = allConform vs ty
  | [], ty => rfl
  | v :: vs, ty => by
      rw [completedValues, allConform, allConform, conforms_completedWith v,
        allConform_completedValues vs]

end

/-! ## Where nothing is added -/

/-- An annotation to which completion adds nothing; nothing is asked of other values. -/
def TypeLookup.Filled (types : TypeLookup) (D : Interface → Annotation) : Value → Prop
  | .nested a => a.filledFrom types D = a
  | _ => True

lemma completedValues_eq_self {vs : List Value} (h : ∀ v ∈ vs, v.completedWith types D = v) :
    completedValues types D vs = vs := by
  rw [completedValues_eq_map, List.map_congr_left h, List.map_id']

lemma completedElements_eq_self {es : List (String × Value)}
    (h : ∀ p ∈ es, p.2.completedWith types D = p.2) : completedElements types D es = es := by
  have same : ∀ p ∈ es, (p.1, p.2.completedWith types D) = p := fun p hp =>
    congrArg (Prod.mk p.1) (h p hp)
  rw [completedElements_eq_map, List.map_congr_left same, List.map_id']

/-- Where nothing is added to any annotation in a value, the value stays as it is. -/
lemma completedWith_of_filled {v : Value} (filled : v.Everywhere (types.Filled D)) :
    v.completedWith types D = v := by
  induction v using Value.treeInduction with
  | nested a ih =>
      obtain ⟨name, elements⟩ := a
      obtain ⟨here, inside⟩ := everywhere_nested.1 filled
      rw [completedWith_nested, Annotation.completedWith,
        completedElements_eq_self fun p hp => ih p hp (inside p hp)]
      exact congrArg Value.nested here
  | array vs ih =>
      obtain ⟨-, inside⟩ := everywhere_array.1 filled
      rw [Value.completedWith, completedValues_eq_self fun v hv => ih v hv (inside v hv)]
  | _ => rfl

/-- An annotation to which nothing is added at any depth is its own completion. -/
lemma completedWith_eq_self {a : Annotation}
    (filled : (Value.nested a).Everywhere (types.Filled D)) : a.completedWith types D = a := by
  have same := completedWith_of_filled filled
  rw [completedWith_nested] at same
  exact Value.nested.inj same

end DocAnnotations
