import DocAnnotations.Proofs.Defaults.Stored
import DocAnnotations.Proofs.Loader

/-!
# Resolved values

A value is `Resolved` when it refers only to what exists, its floating numbers are finite, its
characters are single units, and each annotation in it has exactly the elements that its interface
declares, with values of their declared types.

Resolution puts nothing else together (`TypeLookup.Resolved.assembled`), but a value may also come
from defaults, and these were written and read again.  `TypeLookup.survives_resolved` says that this
does no harm: the reader checks every name and every type once more, and an annotation that was
complete comes back with as many elements as it had, so that it asks for no further defaults.

**`compiled_everywhere_resolved`** is the conclusion: over a loaded index with its own defaults, and
after any operations, whatever a literal comes to is resolved at every depth.
-/

namespace DocAnnotations

open Attribute Decimal
open Annotation (Lacks contains_iff)

/-- A value that resolution may return. -/
def TypeLookup.Resolved (types : TypeLookup) : Value → Prop
  | .float bits => single.IsFinite bits.toNat
  | .double bits => Decimal.double.IsFinite bits.toNat
  | .char c => isSingleUnit c
  | .classRef c => c.isPrimitive = true ∨ types.isClass c.name = true
  | .enum e => ∃ found, types.enumeration? e.typeName = some found
    ∧ found.hasConstant e.constant = true
  | .nested a => ∃ i, types.annotation? a.typeName = some i ∧ a.Ordered
    ∧ (∀ name, a.contains name = true ↔ ∃ e ∈ i.elements, e.name = name)
    ∧ ∀ p ∈ a.elements, i.Declares p
  | _ => True

variable {types : TypeLookup} {l : Loader} {P : Value → Prop} {i : Interface} {a : Annotation}

/-- Declared elements, all of them, are exactly the declared elements. -/
lemma contains_iff_declared (declared : ∀ p ∈ a.elements, i.Declares p)
    (has : ∀ e ∈ i.elements, a.contains e.name = true) (name : String) :
    a.contains name = true ↔ ∃ e ∈ i.elements, e.name = name := by
  constructor
  · intro h
    obtain ⟨p, hp, rfl⟩ := List.mem_map.1 (contains_iff.1 h)
    obtain ⟨e, known, -⟩ := declared p hp
    exact ⟨e, Interface.mem_of_element? known⟩
  · rintro ⟨e, he, rfl⟩
    exact has e he

/-- Resolution puts only resolved values together. -/
lemma assembled_resolved : types.Assembled types.Resolved where
  literal h := by
    cases h with
    | float finite => exact finite
    | double finite => exact finite
    | char unit => exact unit
    | classRef exists_ _ _ => exact exists_
    | enum exists_ constant => exact ⟨_, exists_, constant⟩
    | _ => trivial
  array _ := trivial
  nested found ordered declared has :=
    ⟨_, found, ordered, contains_iff_declared declared has, declared⟩

/-- Resolved values are approved, having all elements that there are. -/
lemma approves_of_resolved {v : Value} (h : l.types.Resolved v) : l.Approves v := by
  cases v with
  | nested a =>
      obtain ⟨i, found, ordered, has, declared⟩ := h
      exact ⟨i, found, ordered, declared, fun e he _ => (has e.name).2 ⟨e, he, rfl⟩⟩
  | char | classRef | enum => exact h
  | _ => trivial

/-! ## Reading resolved values again -/

section

variable {J : Registry → Prop} {f : Interface → Load Annotation}

lemma ensures_rereadClass (c : ClassRef) :
    Ensures J (rereadClass types c) fun d => types.Resolved (.classRef d) := by
  unfold rereadClass
  cases ClassRef.ofDescriptor? c.descriptor with
  | none => exact Ensures.throw _
  | some d =>
      dsimp only
      split_ifs with known
      · exact Ensures.pure (Bool.or_eq_true_iff.1 known)
      · exact Ensures.throw _

lemma ensures_rereadEnum (e : EnumRef) :
    Ensures J (rereadEnum types e) fun d => types.Resolved (.enum d) := by
  unfold rereadEnum
  cases objectName? (objectDescriptor e.typeName) with
  | none => exact Ensures.throw _
  | some typeName =>
      dsimp only
      cases found : types.enumeration? typeName with
      | none => exact Ensures.throw _
      | some found' =>
          dsimp only
          split_ifs with known
          · exact Ensures.pure ⟨found', found, known⟩
          · exact Ensures.throw _

/-- If each value survives being reread, so do all values of an array. -/
lemma ensures_rereadValues (left : Nat) : ∀ {vs : List Value},
    (∀ v ∈ vs, Ensures J (reread types f left v) (Value.Everywhere P)) →
    Ensures J (rereadValues types f left vs) fun ws => ∀ w ∈ ws, w.Everywhere P
  | [], _ => Ensures.pure (by simp)
  | v :: vs, h => by
      obtain ⟨first, rest⟩ := List.forall_mem_cons.1 h
      rw [rereadValues]
      exact first.bind fun w inside => (ensures_rereadValues left rest).bind fun ws all =>
        Ensures.pure (List.forall_mem_cons.2 ⟨inside, all⟩)

/-- Elements that are read again are declared, and none of them takes the place of another. -/
lemma ensures_rereadElements (left : Nat) :
    ∀ {es : List (String × Value)} {a : Annotation},
    (∀ p ∈ es, Ensures J (reread l.types f left p.2) (Value.Everywhere P)) →
    l.GoodFor P i [] a →
    Ensures J (rereadElements l.types f left i es a) fun b =>
      l.GoodFor P i [] b ∧ b.size = a.size + es.length
  | [], a, _, good => Ensures.pure ⟨good, rfl⟩
  | (name, v) :: es, a, h, good => by
      obtain ⟨first, rest⟩ := List.forall_mem_cons.1 h
      rw [rereadElements]
      refine first.bind fun w inside => ?_
      cases known : i.element? name with
      | none => exact Ensures.throw _
      | some e =>
          dsimp only
          split_ifs with wrong there
          · exact Ensures.throw _
          · exact Ensures.throw _
          · have typed : w.conforms e.type = true := by simpa using wrong
            have added := good.insertRead known typed inside
            refine (ensures_rereadElements left rest added).weaken fun b filled => ?_
            rw [List.length_cons, filled.2, Annotation.size_insert there]
            exact ⟨filled.1, by omega⟩

/-- A resolved annotation has all its elements when it is read again, so no defaults are loaded. -/
lemma ensures_rereadBody (once : l.types.DeclaresOnce) (resolved : l.types.Resolved (.nested a))
    (inside : ∀ left, ∀ p ∈ a.elements,
      Ensures J (reread l.types f left p.2) (Value.Everywhere l.types.Resolved)) :
    ∀ left, Ensures J (rereadBody l.types f left a) fun b =>
      (Value.nested b).Everywhere l.types.Resolved
  | 0 => by
      cases a
      exact Ensures.throw _
  | left + 1 => by
      obtain ⟨i, found, -, has, -⟩ := resolved
      have known : l.types.Knows i := TypeLookup.knows_of_annotation? found
      have named : i.name = a.typeName := l.types.name_of_annotation? found
      have start : l.GoodFor l.types.Resolved i [] (.empty a.typeName) :=
        named ▸ Loader.goodFor_empty i
      have many : ¬ a.Lacks i :=
        not_lacks_of_contains (once i known) fun e he => (has e.name).2 ⟨e, he, rfl⟩
      rw [rereadBody_succ left found]
      refine (ensures_rereadElements left (inside left) start).bind fun b filled => ?_
      obtain ⟨good, size⟩ := filled
      have enough : ¬ b.Lacks i := by
        rw [Lacks, size, Nat.not_lt]
        exact Nat.le_trans (Nat.not_lt.1 many) (Nat.le_add_left _ _)
      rw [if_neg (show ¬ b.size < i.elements.length from enough)]
      have same : l.types.annotation? b.typeName = some i := by rw [good.typeName, known]
      exact Ensures.pure (everywhere_nested.2 ⟨assembled_resolved.nested same good.ordered
        good.declared (good.contains_all enough), good.inside⟩)

/-- A resolved value that is reread is a resolved value again, whatever levels are left. -/
lemma ensures_reread (once : l.types.DeclaresOnce) {v : Value} (h : v.Everywhere l.types.Resolved) :
    ∀ left, Ensures J (reread l.types f left v) (Value.Everywhere l.types.Resolved) := by
  induction v using Value.treeInduction with
  | classRef c =>
      intro left
      rw [reread]
      exact (ensures_rereadClass c).bind fun d known => Ensures.pure known
  | enum e =>
      intro left
      rw [reread]
      exact (ensures_rereadEnum e).bind fun d known => Ensures.pure known
  | nested a ih =>
      intro left
      obtain ⟨here, inside⟩ := everywhere_nested.1 h
      rw [reread]
      refine (ensures_rereadBody once here (fun left p hp => ih p hp (inside p hp) left) left).bind
        fun b all => Ensures.pure all
  | array vs ih =>
      intro left
      obtain ⟨-, inside⟩ := everywhere_array.1 h
      cases left with
      | zero => exact Ensures.throw _
      | succ left =>
          rw [reread]
          refine (ensures_rereadValues left fun v hv => ih v hv (inside v hv) left).bind
            fun ws all => Ensures.pure (everywhere_array.2 ⟨trivial, all⟩)
  | _ => exact fun left => Ensures.pure h

end

/-- Writing and reading does no harm to resolved values. -/
lemma survives_resolved (once : types.DeclaresOnce) :
    types.Survives types.Resolved := by
  intro J f v h
  exact ensures_reread (l := ⟨types, fun _ _ => none, ⟨0⟩⟩) once h nestingLimit

/-! ## Compiling after any operations -/

variable {schema : Schema} {index : TypeIndex}

/-- In a loaded index resolved values are what resolution returns if the defaults are resolved. -/
lemma suits_resolved (loaded : TypeIndex.ofSchema schema = .ok index) :
    index.lookup.Suits index.lookup.Resolved where
  once := TypeIndex.declaresOnce loaded
  finds := index.findsLoadable
  assembled := assembled_resolved
  survives := survives_resolved (TypeIndex.declaresOnce loaded)

/-- **Soundness of resolution.**  Over a loaded index with its own defaults, and after any
operations, what a literal comes to is resolved at every depth, whether it was written there or
taken from defaults. -/
theorem compiled_everywhere_resolved (loaded : TypeIndex.ofSchema schema = .ok index)
    (token : ModuleToken) (operations : List Operation) (text : String) :
    let l := index.loader token
    ∀ a r', compileLiteral l text (l.registryAfter operations) = .ok (some a) r' →
      (Value.nested a).Everywhere index.lookup.Resolved := by
  intro l a r' compiled
  have keeps : l.Keeps index.lookup.Resolved :=
    keeps_of_ofSchema loaded (suits_resolved loaded) token
  have holds : l.Holds index.lookup.Resolved (l.registryAfter operations) :=
    holds_registryAfter keeps (fun _ => approves_of_resolved (l := l)) operations
  exact ((ensures_compileLiteral keeps.keepsWith text).ok holds compiled).1 a rfl

/-- A shape whose keys, and the place of whose point, are taken from defaults. -/
theorem compiled_everywhere_resolved_shape :
    let l := sampleIndex.loader ⟨0⟩
    ∃ a r', compileLiteral l "Shape(at = @Point(unit = Unit.CM), mark = 'x')" .empty
        = .ok (some a) r'
      ∧ annotationBytes a = .ok
        [64, 0, 7, 112, 46, 83, 104, 97, 112, 101, 0, 3, 0, 2, 97, 116, 64, 0, 7, 112, 46, 80, 111,
          105, 110, 116, 0, 2, 0, 4, 117, 110, 105, 116, 101, 0, 8, 76, 112, 47, 85, 110, 105, 116,
          59, 0, 2, 67, 77, 0, 1, 120, 73, 0, 0, 0, 7, 0, 4, 107, 101, 121, 115, 91, 0, 1, 99, 0, 1,
          73, 0, 4, 109, 97, 114, 107, 67, 0, 120]
      ∧ (Value.nested a).Everywhere sampleIndex.lookup.Resolved := by
  intro l
  have compiled : (returned (compileLiteral l "Shape(at = @Point(unit = Unit.CM), mark = 'x')"
      .empty)).any (fun found => found.any fun a => decide (annotationBytes a = .ok
        [64, 0, 7, 112, 46, 83, 104, 97, 112, 101, 0, 3, 0, 2, 97, 116, 64, 0, 7, 112, 46, 80, 111,
          105, 110, 116, 0, 2, 0, 4, 117, 110, 105, 116, 101, 0, 8, 76, 112, 47, 85, 110, 105, 116,
          59, 0, 2, 67, 77, 0, 1, 120, 73, 0, 0, 0, 7, 0, 4, 107, 101, 121, 115, 91, 0, 1, 99, 0, 1,
          73, 0, 4, 109, 97, 114, 107, 67, 0, 120])) = true := by
    decide +kernel
  obtain ⟨found, resolved, some_⟩ := (Option.any_eq_true _ _).1 compiled
  obtain ⟨a, rfl, written⟩ := (Option.any_eq_true _ _).1 some_
  obtain ⟨r', ran⟩ := exists_of_returned resolved
  exact ⟨a, r', ran, of_decide_eq_true written,
    compiled_everywhere_resolved ofSchema_sampleSchema ⟨0⟩ [] _ a r' ran⟩

end DocAnnotations
