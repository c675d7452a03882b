import DocAnnotations.Proofs.Attribute.Encodable

/-!
# Why a value cannot be written

Writing a value meets its texts, counts and characters one after the other, each of which must fit
two bytes.

**Measures.**  `Value.measures` lists them in the order of writing: the name of an annotation, the
number of its elements, and then each element in the order of the names, its name in front of what
is inside its value; the descriptor of an enum in front of the constant; the count of an array in
front of the items.  `FirstMisfit` is the relation of a list of measures to the error of the first
that does not fit.

**The error of writing.**  Nothing but these measures decides whether a value is written.
**`refused_for_first_measure`**: a value is written if and only if everything in it fits, and
otherwise the error is that of the first measure that does not fit, with the length or the character
that it is about.
-/

namespace DocAnnotations

open Attribute

namespace Attribute

/-! ## Measures -/

/-- What writing puts into two bytes: a length or count, or a character. -/
inductive Measure where
  | length (part : Part) (n : Nat)
  | char (c : Char)

namespace Measure

/-- Whether two bytes are enough. -/
def Fits : Measure → Prop
  | length _ n => n < UInt16.size
  | char c => c.toNat < UInt16.size

instance : DecidablePred Fits
  | length _ n => inferInstanceAs (Decidable (n < UInt16.size))
  | char c => inferInstanceAs (Decidable (c.toNat < UInt16.size))

/-- The error about a measure that does not fit. -/
def error : Measure → EncodeError
  | length part n => .tooLong part n
  | char c => .unencodableChar c

/-- The length of a text, in bytes. -/
def ofText (part : Part) (text : String) : Measure := .length part text.utf8ByteSize

end Measure

/-- The error about the first of several measures that does not fit. -/
def firstError? (measures : List Measure) : Option EncodeError :=
  (measures.find? fun m => !decide m.Fits).map Measure.error

variable {front back measures : List Measure} {m : Measure} {e : EncodeError}

/-- The first error of two lists of measures is the first of the front, or else the first of the
back. -/
lemma firstError?_append :
    firstError? (front ++ back) = (firstError? front).or (firstError? back) := by
  rw [firstError?, List.find?_append, Option.map_or, firstError?, firstError?]

lemma firstError?_cons :
    firstError? (m :: measures) = (firstError? [m]).or (firstError? measures) := by
  rw [← firstError?_append, List.singleton_append]

lemma firstError?_single (m : Measure) :
    firstError? [m] = if m.Fits then none else some m.error := by
  by_cases fits : m.Fits <;> simp [firstError?, fits]

/-- An error is about the first of several measures that does not fit: all in front of it fit. -/
def FirstMisfit (measures : List Measure) (e : EncodeError) : Prop :=
  ∃ front m back, measures = front ++ m :: back ∧ (∀ n ∈ front, n.Fits) ∧ ¬ m.Fits ∧ m.error = e

/-- An error is found if and only if it belongs to the first measure that does not fit. -/
lemma firstError?_eq_some_iff : firstError? measures = some e ↔ FirstMisfit measures e := by
  simp only [FirstMisfit, firstError?, Option.map_eq_some_iff, List.find?_eq_some_iff_append]
  constructor
  · rintro ⟨m, ⟨misfit, front, back, rfl, fit⟩, rfl⟩
    exact ⟨front, m, back, rfl, by simpa using fit, by simpa using misfit, rfl⟩
  · rintro ⟨front, m, back, rfl, fit, misfit, rfl⟩
    exact ⟨m, ⟨by simpa using misfit, front, back, rfl, by simpa using fit⟩, rfl⟩

end Attribute

/-! ## The measures of values -/

mutual

/-- All that has to fit when a value is written, in the order of writing. -/
def Value.measures : Value → List Measure
  | .char c => [.char c]
  | .string s => [.ofText .string s]
  | .classRef c => [.ofText .classDescriptor c.descriptor]
  | .enum e => [.ofText .enumDescriptor (objectDescriptor e.typeName),
      .ofText .enumConstant e.constant]
  | .nested ⟨typeName, elements⟩ => .ofText .annotationName typeName
      :: .length .elementCount elements.length :: elementsMeasures elements
  | .array vs => .length .array vs.length :: valuesMeasures vs
  | _ => []

/-- The measures of several values, one behind the other. -/
def valuesMeasures : List Value → List Measure
  | [] => []
  | v :: vs => v.measures ++ valuesMeasures vs

/-- The measures of several elements: each name in front of what is inside its value. -/
def elementsMeasures : List (String × Value) → List Measure
  | [] => []
  | (name, v) :: es => .ofText .elementName name :: (v.measures ++ elementsMeasures es)

end

/-- All that has to fit when the attribute of a member is written, in the order of writing. -/
def memberMeasures (annotations : List Annotation) : List Measure :=
  .length .annotationCount annotations.length
    :: annotations.flatMap fun a => (Value.nested a).measures

/-! ## The error of writing -/

namespace Attribute

/-- The error of what cannot be written. -/
def refusal? (x : Except EncodeError (List UInt8)) : Option EncodeError :=
  match x with
  | .ok _ => none
  | .error e => some e

variable {x : Except EncodeError (List UInt8)} {e : EncodeError}

/-- A refusal is the error with which nothing is written, and there is one only then. -/
lemma refusal?_eq_some_iff : refusal? x = some e ↔ x = .error e := by
  cases x <;> simp [refusal?]

/-- Of two parts the first that cannot be written decides. -/
lemma refusal?_bind {f : List UInt8 → Except EncodeError (List UInt8)} {o : Option EncodeError}
    (h : ∀ bytes, refusal? (f bytes) = o) : refusal? (x >>= f) = (refusal? x).or o := by
  cases x with
  | ok bytes => exact h bytes
  | error e => rfl

/-- What is done with written bytes adds no error and hides none. -/
lemma refusal?_map (g : List UInt8 → List UInt8) :
    refusal? (do return g (← x)) = refusal? x := by
  cases x <;> rfl

/-- What is written if one measure fits. -/
lemma refusal?_checked (m : Measure) (bytes : List UInt8) :
    refusal? (if m.Fits then .ok bytes else .error m.error) = firstError? [m] := by
  rw [firstError?_single]
  split_ifs <;> rfl

lemma refusal?_lengthBytes (part : Part) (n : Nat) :
    refusal? (lengthBytes part n) = firstError? [.length part n] :=
  refusal?_checked (.length part n) _

lemma refusal?_textBytes (part : Part) (text : String) :
    refusal? (textBytes part text) = firstError? [.ofText part text] :=
  (refusal?_map _).trans (refusal?_lengthBytes part _)

lemma refusal?_charBytes (c : Char) : refusal? (charBytes c) = firstError? [.char c] :=
  refusal?_checked (.char c) _

lemma refusal?_enumBytes (e : EnumRef) :
    refusal? (enumBytes e) = firstError? (Value.enum e).measures := by
  rw [Value.measures, firstError?_cons, ← refusal?_textBytes, ← refusal?_textBytes, enumBytes]
  exact refusal?_bind fun _ => refusal?_map _

/-- An element is refused for its name before it is refused for anything in its value. -/
lemma refusal?_elementBytes (p : String × Value) : refusal? (elementBytes p)
    = (firstError? [.ofText .elementName p.1]).or (refusal? (valueBytes p.2)) := by
  rw [elementBytes, ← refusal?_textBytes]
  exact refusal?_bind fun _ => refusal?_map _

/-- Of several items the first that cannot be written decides. -/
lemma refusal?_concatBytes {α : Type} {write : α → Except EncodeError (List UInt8)}
    {measures : α → List Measure} : ∀ {xs : List α},
      (∀ x ∈ xs, refusal? (write x) = firstError? (measures x)) →
      refusal? (concatBytes write xs) = firstError? (xs.flatMap measures)
  | [], _ => rfl
  | x :: xs, h => by
      obtain ⟨first, rest⟩ := List.forall_mem_cons.1 h
      rw [concatBytes, List.flatMap_cons, firstError?_append, ← first,
        ← refusal?_concatBytes rest]
      exact refusal?_bind fun _ => refusal?_map _

end Attribute

lemma valuesMeasures_eq : ∀ vs : List Value, valuesMeasures vs = vs.flatMap Value.measures
  | [] => rfl
  | v :: vs => by rw [valuesMeasures, valuesMeasures_eq vs, List.flatMap_cons]

lemma elementsMeasures_eq : ∀ es : List (String × Value), elementsMeasures es
    = es.flatMap fun p => .ofText .elementName p.1 :: p.2.measures
  | [] => rfl
  | (name, v) :: es => by
      rw [elementsMeasures, elementsMeasures_eq es, List.flatMap_cons, List.cons_append]

/-- An annotation is refused for the first of its measures, given that each of its values is. -/
lemma refusal?_annotationBytes {a : Annotation}
    (inside : ∀ p ∈ a.elements, refusal? (valueBytes p.2) = firstError? p.2.measures) :
    refusal? (annotationBytes a) = firstError? (Value.nested a).measures := by
  obtain ⟨typeName, elements⟩ := a
  have items : refusal? (elementsBytes [] elements) = firstError? (elementsMeasures elements) := by
    rw [elementsBytes_nil, elementsMeasures_eq]
    refine refusal?_concatBytes fun p hp => ?_
    rw [refusal?_elementBytes, inside p hp, ← firstError?_append, List.singleton_append]
  rw [Value.measures, firstError?_cons, firstError?_cons (m := .length _ _), ← refusal?_textBytes,
    ← refusal?_lengthBytes, ← items, annotationBytes]
  exact refusal?_bind fun _ => refusal?_bind fun _ => refusal?_map _

/-- An array is refused for the first of its measures, given that each of its values is. -/
lemma refusal?_arrayBytes {vs : List Value}
    (inside : ∀ v ∈ vs, refusal? (valueBytes v) = firstError? v.measures) :
    refusal? (valueBytes (.array vs)) = firstError? (Value.array vs).measures := by
  rw [Value.measures, firstError?_cons, valuesMeasures_eq, ← refusal?_concatBytes inside,
    ← refusal?_lengthBytes, ← valuesBytes_nil, valueBytes]
  exact refusal?_bind fun _ => refusal?_map _

/-- The error of writing a value is that of its first measure that does not fit. -/
lemma refusal?_valueBytes (v : Value) : refusal? (valueBytes v) = firstError? v.measures := by
  induction v using Value.treeInduction with
  | char c => exact refusal?_charBytes c
  | string s => exact (refusal?_map _).trans (refusal?_textBytes _ s)
  | classRef c => exact (refusal?_map _).trans (refusal?_textBytes _ c.descriptor)
  | enum e => exact refusal?_enumBytes e
  | nested a ih =>
      rw [valueBytes]
      exact refusal?_annotationBytes ih
  | array vs ih => exact refusal?_arrayBytes ih
  | _ => rfl

/-- A value is refused for the first of its measures that does not fit. -/
lemma valueBytes_eq_error_iff {v : Value} {e : EncodeError} :
    valueBytes v = .error e ↔ FirstMisfit v.measures e := by
  rw [← refusal?_eq_some_iff, refusal?_valueBytes, firstError?_eq_some_iff]

/-- An annotation on its own is refused as it is as a value. -/
lemma annotationBytes_eq_error_iff {a : Annotation} {e : EncodeError} :
    annotationBytes a = .error e ↔ FirstMisfit (Value.nested a).measures e := by
  rw [← valueBytes_eq_error_iff, valueBytes]

/-- The annotations of a member are refused for their number, and then for the first measure of the
first that has a misfit. -/
lemma refusal?_memberBytes (annotations : List Annotation) :
    refusal? (memberBytes annotations) = firstError? (memberMeasures annotations) := by
  have items : refusal? (concatBytes annotationBytes annotations)
      = firstError? (annotations.flatMap fun a => (Value.nested a).measures) :=
    refusal?_concatBytes fun a _ => refusal?_annotationBytes fun p _ => refusal?_valueBytes p.2
  rw [memberMeasures, firstError?_cons, ← refusal?_lengthBytes, ← items, memberBytes,
    ← annotationsBytes_nil]
  exact refusal?_bind fun _ => refusal?_map _

/-- The annotations of a member can be written if and only if their number and everything in them
fits. -/
lemma exists_memberBytes_iff {annotations : List Annotation} :
    (∃ bytes, memberBytes annotations = .ok bytes) ↔ annotations.length < UInt16.size
      ∧ ∀ a ∈ annotations, (Value.nested a).Everywhere Value.Fits := by
  change Writes (memberBytes annotations) ↔ _
  have items : Writes (annotationsBytes [] annotations)
      ↔ ∀ a ∈ annotations, (Value.nested a).Everywhere Value.Fits := by
    rw [annotationsBytes_nil, writes_concatBytes]
    exact forall₂_congr fun a _ => exists_annotationBytes_iff
  rw [← items, ← writes_lengthBytes .annotationCount]
  exact writes_bind fun _ => writes_map _

/-- **Writing fails for the first misfit.**  A value is written if and only if every text, count and
character in it fits.  Otherwise the error is about the first that does not fit in the order of
writing, and has its length or the character.  The same holds for an annotation on its own, and for
the annotations of a member, whose number is checked in front of them all. -/
theorem refused_for_first_measure :
    (∀ v : Value, ((∃ bytes, valueBytes v = .ok bytes) ↔ v.Everywhere Value.Fits)
      ∧ ∀ e, valueBytes v = .error e ↔ FirstMisfit v.measures e)
    ∧ (∀ a : Annotation,
      ((∃ bytes, annotationBytes a = .ok bytes) ↔ (Value.nested a).Everywhere Value.Fits)
      ∧ ∀ e, annotationBytes a = .error e ↔ FirstMisfit (Value.nested a).measures e)
    ∧ ∀ annotations : List Annotation,
      ((∃ bytes, memberBytes annotations = .ok bytes) ↔ annotations.length < UInt16.size
        ∧ ∀ a ∈ annotations, (Value.nested a).Everywhere Value.Fits)
      ∧ ∀ e, memberBytes annotations = .error e
        ↔ FirstMisfit (memberMeasures annotations) e := by
  refine ⟨fun v => ⟨exists_valueBytes_iff, fun e => valueBytes_eq_error_iff⟩,
    fun a => ⟨exists_annotationBytes_iff, fun e => annotationBytes_eq_error_iff⟩,
    fun annotations => ⟨exists_memberBytes_iff, fun e => ?_⟩⟩
  rw [← refusal?_eq_some_iff, refusal?_memberBytes, firstError?_eq_some_iff]

end DocAnnotations
