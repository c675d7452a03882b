import DocAnnotations.Proofs.Attribute.Completion
import DocAnnotations.Proofs.Descriptor

/-!
# What completion comes to

The readers complete an annotation by a merge, and a comparison of two counts decides whether they
merge at all.  This module says what the outcome is in terms of neither.

**Well-typed values.**  `Value.WellTyped` is what a value needs so that the readers find everything
in it: interfaces, declared elements with values of their types, enum constants, classes.

**Missing elements.**  `Annotation.Misses` says that some declared element has no value.  It is what
the count of the readers finds out about a well-typed annotation (`lacks_iff`).

**The relation.**  `Value.CompletesTo types D v w` relates a value to what it is with everything
filled in that the defaults `D` have for it.  At every depth an explicit element keeps its value,
completed in turn; a missing one has the value of the defaults, or stays missing if they have none;
and nothing else changes.

**`completesTo_iff`**: a well-typed value completes to one value only, and it is the one that the
readers put together.
-/

namespace DocAnnotations

open Annotation (contains)

variable {types : TypeLookup} {D : Interface → Annotation}

/-! ## Well-typed values -/

/-- What a lookup must know of one part of a value: the class or the enum constant, or the interface
with the declared types of the elements. -/
def TypeLookup.Admits (types : TypeLookup) : Value → Prop
  | .classRef c => c.dimensions ≤ maxDimensions ∧ (c.name = "void" → c.dimensions = 0)
    ∧ (c.isPrimitive = false → PlainName c.name ∧ types.isClass c.name = true)
  | .enum e => PlainName e.typeName
    ∧ ∃ found, types.enumeration? e.typeName = some found ∧ found.hasConstant e.constant = true
  | .nested a => a.Ordered ∧ ∃ i, types.annotation? a.typeName = some i
    ∧ ∀ p ∈ a.elements, ∃ e, i.element? p.1 = some e ∧ p.2.conforms e.type = true
  | _ => True

/-- All that a value refers to exists, and all elements have values of their declared types. -/
def Value.WellTyped (types : TypeLookup) (v : Value) : Prop := v.Everywhere types.Admits

/-! ## Missing elements -/

/-- Some element that an interface declares has no value in an annotation.  Of an interface that
declares one name twice something is missing in every annotation, since no annotation has two values
for the name. -/
def Annotation.Misses (a : Annotation) (i : Interface) : Prop :=
  (∃ e ∈ i.elements, a.get? e.name = none) ∨ ¬ (i.elements.map Element.name).Nodup

instance (a : Annotation) (i : Interface) : Decidable (a.Misses i) :=
  inferInstanceAs (Decidable (_ ∨ _))

/-- A well-typed annotation has fewer elements than its interface declares if and only if one that
is declared has no value. -/
lemma lacks_iff {a : Annotation} {i : Interface} (admitted : types.Admits (.nested a))
    (found : types.annotation? a.typeName = some i) : a.Lacks i ↔ a.Misses i := by
  obtain ⟨ordered, j, found', declared⟩ := admitted
  cases found.symm.trans found'
  constructor
  · intro lacks
    by_contra complete
    obtain ⟨present, nodup⟩ := not_or.1 complete
    refine not_lacks_of_contains (not_not.1 nodup) (fun e he => ?_) lacks
    exact Option.isSome_iff_ne_none.2 fun absent => present ⟨e, he, absent⟩
  · intro misses
    by_contra enough
    have known : ∀ p ∈ a.elements, ∃ e ∈ i.elements, e.name = p.1 := fun p hp => by
      obtain ⟨e, named, -⟩ := declared p hp
      exact ⟨e, Interface.mem_of_element? named⟩
    rcases misses with ⟨e, he, absent⟩ | repeated
    · have has := contains_of_not_lacks ordered known enough e he
      simp [contains, absent] at has
    · exact repeated ((perm_of_not_lacks ordered known enough).nodup_iff.1 ordered.nodup)

/-! ## The relation -/

/-- A value without values inside. -/
def Value.IsLeaf : Value → Prop
  | .nested _ | .array _ => False
  | _ => True

/-- `v.CompletesTo types D w`: the value `w` is `v` with everything filled in, at every depth, that
is missing in `v` and that the defaults `D` of the interfaces have.  Lookups say what an annotation
becomes: each explicit element stays with its own completion (`kept`, `inside`), each other name has
what the defaults give for it, provided that anything is missing at all (`filled`), and the elements
stand in order under the same interface. -/
inductive Value.CompletesTo (types : TypeLookup) (D : Interface → Annotation) :
    Value → Value → Prop
  | leaf {v : Value} (single : v.IsLeaf) : CompletesTo types D v v
  | array {vs ws : List Value} (length : ws.length = vs.length)
      (inside : ∀ (n : Nat) v w, vs[n]? = some v → ws[n]? = some w → CompletesTo types D v w) :
      CompletesTo types D (.array vs) (.array ws)
  | nested {a b : Annotation} {i : Interface} (found : types.annotation? a.typeName = some i)
      (typeName : b.typeName = a.typeName) (ordered : b.Ordered)
      (kept : ∀ n, (a.get? n).isSome → (b.get? n).isSome)
      (inside : ∀ n v w, a.get? n = some v → b.get? n = some w → CompletesTo types D v w)
      (filled : ∀ n, a.get? n = none → b.get? n = if a.Misses i then (D i).get? n else none) :
      CompletesTo types D (.nested a) (.nested b)

/-- A value completes to one value only: the relation settles every lookup at every depth. -/
lemma Value.CompletesTo.unique {v w : Value} (h : v.CompletesTo types D w) :
    ∀ {w' : Value}, v.CompletesTo types D w' → w = w' := by
  induction h with
  | leaf single =>
      rintro _ (_ | _ | _)
      · rfl
      · cases single
      · cases single
  | @array vs ws length inside ih =>
      rintro _ (single | ⟨length', inside'⟩ | _)
      · cases single
      refine congrArg Value.array (List.ext_getElem (length.trans length'.symm) fun n h h' => ?_)
      have within : n < vs.length := length ▸ h
      have here : vs[n]? = some vs[n] := List.getElem?_eq_getElem within
      exact ih n _ _ here (List.getElem?_eq_getElem h)
        (inside' n _ _ here (List.getElem?_eq_getElem h'))
  | @nested a b i found typeName ordered kept inside filled ih =>
      rintro _ (single | _ | ⟨found', typeName', ordered', kept', inside', filled'⟩)
      · cases single
      cases found.symm.trans found'
      have named := typeName.trans typeName'.symm
      refine congrArg Value.nested (ordered.ext ordered' named fun n => ?_)
      cases explicit : a.get? n with
      | none => rw [filled n explicit, filled' n explicit]
      | some v =>
          obtain ⟨w, here⟩ := Option.isSome_iff_exists.1 (kept n (explicit ▸ rfl))
          obtain ⟨w', here'⟩ := Option.isSome_iff_exists.1 (kept' n (explicit ▸ rfl))
          rw [here, here', ih n v w explicit here (inside' n v w' explicit here')]

/-- What the merges of the readers come to is a completion in the sense of the relation. -/
lemma completesTo_completedWith {v : Value} (typed : v.WellTyped types) :
    v.CompletesTo types D (v.completedWith types D) := by
  induction v using Value.treeInduction with
  | nested a ih =>
      obtain ⟨admitted, inside⟩ := everywhere_nested.1 typed
      obtain ⟨ordered, i, found, -⟩ := id admitted
      have lookup := get?_completedWith (D := D) found
      rw [completedWith_nested]
      refine .nested found (typeName_completedWith a) (ordered_completedWith ordered) ?_ ?_ ?_
      · intro n explicit
        rw [lookup, Option.isSome_or, Option.isSome_map, explicit, Bool.true_or]
      · intro n v w explicit here
        rw [lookup, explicit, Option.map_some, Option.some_or] at here
        have mem := mem_of_lookupElement explicit
        exact Option.some.inj here ▸ ih (n, v) mem (inside (n, v) mem)
      · intro n absent
        simp only [lookup, absent, Option.map_none, Option.none_or, lacks_iff admitted found]
  | array vs ih =>
      obtain ⟨-, inside⟩ := everywhere_array.1 typed
      rw [Value.completedWith, completedValues_eq_map]
      refine .array (List.length_map _) fun n v w here there => ?_
      rw [List.getElem?_map, here, Option.map_some] at there
      have mem := List.mem_of_getElem? here
      exact Option.some.inj there ▸ ih v mem (inside v mem)
  | _ => exact .leaf trivial

/-- **A well-typed value has one completion**, and the readers' merges make it. -/
theorem completesTo_iff {v w : Value} (typed : v.WellTyped types) :
    v.CompletesTo types D w ↔ w = v.completedWith types D :=
  ⟨fun h => h.unique (completesTo_completedWith typed),
    fun h => h ▸ completesTo_completedWith typed⟩

/-- An annotation completes to the annotation `b` and to nothing else. -/
def Annotation.CompletesOnlyTo (types : TypeLookup) (D : Interface → Annotation)
    (a b : Annotation) : Prop :=
  ∀ w, (Value.nested a).CompletesTo types D w ↔ w = .nested b

/-- The merges of the readers make the one completion of a well-typed annotation. -/
lemma completesOnlyTo_completedWith {a : Annotation} (typed : (Value.nested a).WellTyped types) :
    a.CompletesOnlyTo types D (a.completedWith types D) := fun w => by
  rw [completesTo_iff typed, completedWith_nested]

/-- Whatever a well-typed annotation completes to, the merges of the readers make the same. -/
lemma Annotation.CompletesOnlyTo.eq_completedWith {a b : Annotation}
    (typed : (Value.nested a).WellTyped types) (only : a.CompletesOnlyTo types D b) :
    b = a.completedWith types D :=
  (Value.nested.inj ((completesOnlyTo_completedWith typed _).1 ((only _).2 rfl)))

/-! ## Complete values -/

/-- An annotation in which nothing is missing that its interface declares; nothing is asked of other
values. -/
def TypeLookup.Complete (types : TypeLookup) : Value → Prop
  | .nested a => ∀ i, types.annotation? a.typeName = some i → ¬ a.Misses i
  | _ => True

/-- Where nothing is missing, the readers' count finds nothing to add. -/
lemma TypeLookup.Complete.filled {v : Value} (admitted : types.Admits v)
    (complete : types.Complete v) : types.Filled D v := by
  cases v with
  | nested a =>
      change a.filledFrom types D = a
      unfold Annotation.filledFrom
      cases found : types.annotation? a.typeName with
      | none => rfl
      | some i => exact if_neg fun lacks => complete i found ((lacks_iff admitted found).1 lacks)
  | _ => trivial

/-- There is nothing to add to a well-typed value in which nothing is missing at any depth. -/
lemma filled_of_complete {v : Value} (typed : v.WellTyped types)
    (complete : v.Everywhere types.Complete) : v.Everywhere (types.Filled D) :=
  (typed.and complete).mono fun _ h => h.2.filled h.1

end DocAnnotations
