import DocAnnotations.Proofs.Attribute.Writing
import DocAnnotations.Proofs.Value.Everywhere

/-!
# What can be written

Every length and count of the format takes two bytes, and so does a character.  `Value.Fits` says
that the lengths of a value itself are small enough; what is inside counts for itself.

**Runs of items.**  `Writes` says that a computation of bytes succeeds.  Computations in a row
succeed if each of them does (`writes_bind`), so elements, annotations and arrays can be written if
their own lengths fit and their parts can be written.

**Values.**  **`exists_valueBytes_iff`** puts this together by induction over the value: it can be
written if and only if everything in it fits.  Which of several misfits is reported when it cannot
is the subject of `DocAnnotations.Proofs.Attribute.Measures`.
-/

namespace DocAnnotations

open Attribute

/-- A text whose length fits two bytes. -/
def FitsText (text : String) : Prop := text.utf8ByteSize < UInt16.size

instance (text : String) : Decidable (FitsText text) := Nat.decLt _ _

/-- The texts, counts and characters that are written for a value itself fit two bytes. -/
def Value.Fits : Value → Prop
  | .char c => c.toNat < UInt16.size
  | .string s => FitsText s
  | .classRef c => FitsText c.descriptor
  | .enum e => FitsText (objectDescriptor e.typeName) ∧ FitsText e.constant
  | .nested a => FitsText a.typeName ∧ a.elements.length < UInt16.size
    ∧ ∀ p ∈ a.elements, FitsText p.1
  | .array vs => vs.length < UInt16.size
  | _ => True

namespace Attribute

/-- Whether something can be written. -/
def Writes (x : Except EncodeError (List UInt8)) : Prop := ∃ bytes, x = .ok bytes

lemma writes_ok (bytes : List UInt8) : Writes (.ok bytes) := ⟨bytes, rfl⟩

/-- What is written in two parts can be written if both can. -/
lemma writes_bind {x : Except EncodeError (List UInt8)}
    {f : List UInt8 → Except EncodeError (List UInt8)} {p : Prop}
    (h : ∀ bytes, Writes (f bytes) ↔ p) : Writes (x >>= f) ↔ Writes x ∧ p := by
  cases x with
  | ok bytes => exact (h bytes).trans (and_iff_right (writes_ok bytes)).symm
  | error e => exact iff_of_false nofun fun ⟨h, _⟩ => nomatch h

/-- What is done with the bytes once they are written does not change whether they can be
written. -/
lemma writes_map {x : Except EncodeError (List UInt8)} (g : List UInt8 → List UInt8) :
    Writes (do return g (← x)) ↔ Writes x :=
  (writes_bind fun _ => iff_true_intro (writes_ok _)).trans (and_iff_left trivial)

/-- A length can be written if and only if it fits two bytes. -/
lemma writes_lengthBytes (part : Part) (length : Nat) :
    Writes (lengthBytes part length) ↔ length < UInt16.size := by
  unfold lengthBytes
  split_ifs with small
  · exact iff_of_true (writes_ok _) small
  · exact iff_of_false nofun small

lemma writes_textBytes (part : Part) (text : String) :
    Writes (textBytes part text) ↔ FitsText text :=
  (writes_map _).trans (writes_lengthBytes part _)

/-! ## Several items -/

lemma writes_concatBytes {α : Type} {write : α → Except EncodeError (List UInt8)} :
    ∀ xs : List α, Writes (concatBytes write xs) ↔ ∀ x ∈ xs, Writes (write x)
  | [] => iff_of_true (writes_ok _) (by simp)
  | x :: xs => by
      rw [concatBytes, List.forall_mem_cons, ← writes_concatBytes xs]
      exact writes_bind fun _ => writes_map _

/-- An element can be written if and only if its name fits and its value can be written. -/
lemma writes_elementBytes (p : String × Value) :
    Writes (elementBytes p) ↔ FitsText p.1 ∧ Writes (valueBytes p.2) := by
  rw [elementBytes, ← writes_textBytes .elementName]
  exact writes_bind fun _ => writes_map _

lemma writes_enumBytes (e : EnumRef) : Writes (enumBytes e) ↔ (Value.enum e).Fits := by
  rw [Value.Fits, ← writes_textBytes .enumDescriptor, ← writes_textBytes .enumConstant, enumBytes]
  exact writes_bind fun _ => writes_map _

lemma writes_charBytes (c : Char) : Writes (charBytes c) ↔ (Value.char c).Fits := by
  unfold charBytes
  split_ifs with small
  · exact iff_of_true (writes_ok _) small
  · exact iff_of_false nofun small

/-- An annotation can be written if and only if its own measures fit and all its values can be
written. -/
lemma writes_annotationBytes (a : Annotation) : Writes (annotationBytes a) ↔
    (Value.nested a).Fits ∧ ∀ p ∈ a.elements, Writes (valueBytes p.2) := by
  obtain ⟨typeName, elements⟩ := a
  have items : Writes (elementsBytes [] elements) ↔
      (∀ p ∈ elements, FitsText p.1) ∧ ∀ p ∈ elements, Writes (valueBytes p.2) := by
    simp only [elementsBytes_nil, writes_concatBytes, writes_elementBytes, forall_and]
  have parts : Writes (annotationBytes ⟨typeName, elements⟩) ↔
      FitsText typeName ∧ elements.length < UInt16.size ∧ Writes (elementsBytes [] elements) := by
    rw [annotationBytes, ← writes_textBytes .annotationName, ← writes_lengthBytes .elementCount]
    exact writes_bind fun _ => writes_bind fun _ => writes_map _
  rw [parts, items, Value.Fits, and_assoc, and_assoc]

/-- An array can be written if and only if its length fits and all its values can be written. -/
lemma writes_arrayBytes (vs : List Value) : Writes (valueBytes (.array vs)) ↔
    (Value.array vs).Fits ∧ ∀ v ∈ vs, Writes (valueBytes v) := by
  rw [valueBytes, Value.Fits, ← writes_lengthBytes .array, ← writes_concatBytes, ← valuesBytes_nil]
  exact writes_bind fun _ => writes_map _

end Attribute

/-! ## Values -/

/-- **A value can be written if and only if everything in it fits.** -/
theorem exists_valueBytes_iff {v : Value} :
    (∃ bytes, valueBytes v = .ok bytes) ↔ v.Everywhere Value.Fits := by
  change Writes (valueBytes v) ↔ _
  induction v using Value.treeInduction with
  | char c => exact writes_charBytes c
  | string s => exact (writes_map _).trans (writes_textBytes _ s)
  | classRef c => exact (writes_map _).trans (writes_textBytes _ c.descriptor)
  | enum e => exact writes_enumBytes e
  | nested a ih =>
      rw [everywhere_nested, valueBytes, writes_annotationBytes]
      exact and_congr_right fun _ => forall₂_congr ih
  | array vs ih =>
      rw [everywhere_array, writes_arrayBytes]
      exact and_congr_right fun _ => forall₂_congr ih
  | _ => exact iff_of_true (writes_ok _) trivial

/-- An annotation is written as it is as a value. -/
lemma exists_annotationBytes_iff {a : Annotation} :
    (∃ bytes, annotationBytes a = .ok bytes) ↔ (Value.nested a).Everywhere Value.Fits := by
  rw [← exists_valueBytes_iff, valueBytes]

end DocAnnotations
