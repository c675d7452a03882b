import DocAnnotations.Value
import Mathlib.Tactic.Common

/-!
# Every part of a value

Values are trees: arrays hold values, and annotations hold values under element names.  Two things
are read off the whole tree.

**Predicates.**  `Value.Everywhere P` says that `P` holds of a value and of all values inside it, at
any depth; what `P` says of an annotation is about the annotation and its own elements.  It can be
decided where `P` can.

**Depth.**  `Value.depth` counts how many arrays and annotations are open at the deepest place.

**Induction.**  `Value.treeInduction` is the induction that both follow: a statement about an array
or an annotation may use the statement about each value directly in it.
-/

namespace DocAnnotations

/-! ## Induction -/

/-- Values by induction.  The two kinds of tree node come with the statement about all that is
directly in them. -/
@[elab_as_elim]
theorem Value.treeInduction {motive : Value → Prop}
    (byte : ∀ n, motive (.byte n)) (short : ∀ n, motive (.short n)) (int : ∀ n, motive (.int n))
    (long : ∀ n, motive (.long n)) (float : ∀ bits, motive (.float bits))
    (double : ∀ bits, motive (.double bits)) (boolean : ∀ b, motive (.boolean b))
    (char : ∀ c, motive (.char c)) (string : ∀ s, motive (.string s))
    (classRef : ∀ c, motive (.classRef c)) (enum : ∀ e, motive (.enum e))
    (nested : ∀ a : Annotation, (∀ p ∈ a.elements, motive p.2) → motive (.nested a))
    (array : ∀ vs, (∀ v ∈ vs, motive v) → motive (.array vs)) (v : Value) : motive v :=
  @Value.rec motive (fun a => ∀ p ∈ a.elements, motive p.2) (fun vs => ∀ v ∈ vs, motive v)
    (fun es => ∀ p ∈ es, motive p.2) (fun p => motive p.2)
    byte short int long float double boolean char string classRef enum nested array
    (fun _ _ ih => ih) (fun _ h => by cases h) (fun _ _ ih ihs => List.forall_mem_cons.2 ⟨ih, ihs⟩)
    (fun _ h => by cases h) (fun _ _ ih ihs => List.forall_mem_cons.2 ⟨ih, ihs⟩) (fun _ _ ih => ih)
    v

/-! ## Predicates -/

mutual

/-- `P` holds of a value and of every value inside it. -/
def Value.Everywhere (P : Value → Prop) : Value → Prop
  | .nested ⟨name, elements⟩ => P (.nested ⟨name, elements⟩) ∧ elementsEverywhere P elements
  | .array vs => P (.array vs) ∧ valuesEverywhere P vs
  | v => P v

/-- `P` holds everywhere in each of several values. -/
def valuesEverywhere (P : Value → Prop) : List Value → Prop
  | [] => True
  | v :: vs => v.Everywhere P ∧ valuesEverywhere P vs

/-- `P` holds everywhere in the values of several elements. -/
def elementsEverywhere (P : Value → Prop) : List (String × Value) → Prop
  | [] => True
  | (_, v) :: es => v.Everywhere P ∧ elementsEverywhere P es

end

variable {P Q : Value → Prop}

/-- A property holds everywhere in several values if and only if it does so in each. -/
lemma valuesEverywhere_iff : ∀ vs : List Value,
    valuesEverywhere P vs ↔ ∀ v ∈ vs, v.Everywhere P
  | [] => by simp [valuesEverywhere]
  | v :: vs => by simp [valuesEverywhere, valuesEverywhere_iff vs]

lemma elementsEverywhere_iff : ∀ es : List (String × Value),
    elementsEverywhere P es ↔ ∀ p ∈ es, p.2.Everywhere P
  | [] => by simp [elementsEverywhere]
  | (n, v) :: es => by simp [elementsEverywhere, elementsEverywhere_iff es]

@[simp] lemma everywhere_nested {a : Annotation} :
    (Value.nested a).Everywhere P ↔ P (.nested a) ∧ ∀ p ∈ a.elements, p.2.Everywhere P := by
  cases a
  rw [Value.Everywhere, elementsEverywhere_iff]

@[simp] lemma everywhere_array {vs : List Value} :
    (Value.array vs).Everywhere P ↔ P (.array vs) ∧ ∀ v ∈ vs, v.Everywhere P := by
  rw [Value.Everywhere, valuesEverywhere_iff]

/-- What holds everywhere in a value holds of the value itself. -/
lemma Value.Everywhere.here {v : Value} (h : v.Everywhere P) : P v := by
  cases v with
  | nested a => exact (everywhere_nested.1 h).1
  | array vs => exact (everywhere_array.1 h).1
  | _ => exact h

/-- What holds everywhere may be replaced by anything that follows from it. -/
lemma Value.Everywhere.mono (h : ∀ v, P v → Q v) {v : Value} (hv : v.Everywhere P) :
    v.Everywhere Q := by
  induction v using Value.treeInduction with
  | nested a ih =>
      obtain ⟨here, inside⟩ := everywhere_nested.1 hv
      exact everywhere_nested.2 ⟨h _ here, fun p hp => ih p hp (inside p hp)⟩
  | array vs ih =>
      obtain ⟨here, inside⟩ := everywhere_array.1 hv
      exact everywhere_array.2 ⟨h _ here, fun v hv => ih v hv (inside v hv)⟩
  | _ => exact h _ hv

/-- Two properties that hold everywhere hold together everywhere. -/
lemma Value.Everywhere.and {v : Value} (hP : v.Everywhere P) (hQ : v.Everywhere Q) :
    v.Everywhere fun v => P v ∧ Q v := by
  induction v using Value.treeInduction with
  | nested a ih =>
      obtain ⟨here, inside⟩ := everywhere_nested.1 hP
      obtain ⟨here', inside'⟩ := everywhere_nested.1 hQ
      exact everywhere_nested.2 ⟨⟨here, here'⟩, fun p hp => ih p hp (inside p hp) (inside' p hp)⟩
  | array vs ih =>
      obtain ⟨here, inside⟩ := everywhere_array.1 hP
      obtain ⟨here', inside'⟩ := everywhere_array.1 hQ
      exact everywhere_array.2 ⟨⟨here, here'⟩, fun v hv => ih v hv (inside v hv) (inside' v hv)⟩
  | _ => exact ⟨hP, hQ⟩

/-- Predicates that mean the same where a third one holds mean the same everywhere in a value in
which it holds. -/
lemma Value.Everywhere.congr {R : Value → Prop} (same : ∀ v, R v → (P v ↔ Q v)) {v : Value}
    (hR : v.Everywhere R) : v.Everywhere P ↔ v.Everywhere Q :=
  ⟨fun hP => (hR.and hP).mono fun v h => (same v h.1).1 h.2,
    fun hQ => (hR.and hQ).mono fun v h => (same v h.1).2 h.2⟩

mutual

/-- Whether a decidable predicate holds everywhere in a value. -/
def Value.decidableEverywhere (P : Value → Prop) [DecidablePred P] :
    ∀ v : Value, Decidable (v.Everywhere P)
  | .nested ⟨name, elements⟩ =>
    @instDecidableAnd _ _ (inferInstanceAs (Decidable (P (.nested ⟨name, elements⟩))))
      (decidableElementsEverywhere P elements)
  | .array vs =>
    @instDecidableAnd _ _ (inferInstanceAs (Decidable (P (.array vs))))
      (decidableValuesEverywhere P vs)
  | .byte n => inferInstanceAs (Decidable (P (.byte n)))
  | .short n => inferInstanceAs (Decidable (P (.short n)))
  | .int n => inferInstanceAs (Decidable (P (.int n)))
  | .long n => inferInstanceAs (Decidable (P (.long n)))
  | .float bits => inferInstanceAs (Decidable (P (.float bits)))
  | .double bits => inferInstanceAs (Decidable (P (.double bits)))
  | .boolean b => inferInstanceAs (Decidable (P (.boolean b)))
  | .char c => inferInstanceAs (Decidable (P (.char c)))
  | .string s => inferInstanceAs (Decidable (P (.string s)))
  | .classRef c => inferInstanceAs (Decidable (P (.classRef c)))
  | .enum e => inferInstanceAs (Decidable (P (.enum e)))

/-- Whether a decidable predicate holds everywhere in each of several values. -/
def decidableValuesEverywhere (P : Value → Prop) [DecidablePred P] :
    ∀ vs : List Value, Decidable (valuesEverywhere P vs)
  | [] => .isTrue trivial
  | v :: vs => @instDecidableAnd _ _ (v.decidableEverywhere P) (decidableValuesEverywhere P vs)

/-- Whether a decidable predicate holds everywhere in the values of several elements. -/
def decidableElementsEverywhere (P : Value → Prop) [DecidablePred P] :
    ∀ es : List (String × Value), Decidable (elementsEverywhere P es)
  | [] => .isTrue trivial
  | (_, v) :: es =>
    @instDecidableAnd _ _ (v.decidableEverywhere P) (decidableElementsEverywhere P es)

end

instance (P : Value → Prop) [DecidablePred P] (v : Value) : Decidable (v.Everywhere P) :=
  v.decidableEverywhere P

/-! ## Depth -/

mutual

/-- How many arrays and annotations are open at the deepest place of a value. -/
def Value.depth : Value → Nat
  | .nested ⟨_, elements⟩ => elementsDepth elements + 1
  | .array vs => valuesDepth vs + 1
  | _ => 0

/-- The depth of the deepest of several values. -/
def valuesDepth : List Value → Nat
  | [] => 0
  | v :: vs => max v.depth (valuesDepth vs)

/-- The depth of the deepest value of several elements. -/
def elementsDepth : List (String × Value) → Nat
  | [] => 0
  | (_, v) :: es => max v.depth (elementsDepth es)

end

/-- How many arrays and annotations are open at the deepest place of an annotation, itself
included. -/
def Annotation.depth (a : Annotation) : Nat := elementsDepth a.elements + 1

@[simp] lemma depth_nested (a : Annotation) : (Value.nested a).depth = a.depth := by
  cases a
  rw [Value.depth, Annotation.depth]

end DocAnnotations
