import DocAnnotations.Attribute.Encode
import Mathlib.Tactic.Common

/-!
# Written bytes, piece by piece

Values, elements and annotations that stand one after another are written as the concatenation of
what each is written as, and the first that cannot be written decides the error.

**Runs of items.**  `concatBytes` writes items in a row with a given writer.  The encoder passes the
bytes so far along instead; `valuesBytes_nil`, `elementsBytes_nil` and `annotationsBytes_nil` say
that it comes to the same, so that all that follows goes through `concatBytes`.

**Taking bytes apart.**  The remaining lemmas take apart the bytes of everything that consists of
several pieces: a tag, the texts and counts of a value, and its parts.  They are the first step of
each proof by induction over a written value.
-/

namespace DocAnnotations.Attribute

/-- Two computations in a row succeed if and only if the first does, and the second on its value. -/
lemma bind_eq_ok_iff {ε α β : Type} {x : Except ε α} {f : α → Except ε β} {b : β} :
    (x >>= f) = .ok b ↔ ∃ a, x = .ok a ∧ f a = .ok b := by
  cases x <;> simp [Bind.bind, Except.bind]

/-! ## Runs of items -/

variable {α : Type} {write : α → Except EncodeError (List UInt8)}

/-- The bytes of several items, one behind the other. -/
def concatBytes (write : α → Except EncodeError (List UInt8)) :
    List α → Except EncodeError (List UInt8)
  | [] => .ok []
  | x :: xs => do return (← write x) ++ (← concatBytes write xs)

/-- The bytes of one element: its name and its value. -/
def elementBytes (p : String × Value) : Except EncodeError (List UInt8) := do
  return (← textBytes .elementName p.1) ++ (← valueBytes p.2)

/-- The bytes of several things are those of the first followed by those of the others. -/
lemma concatBytes_cons_ok {x : α} {xs : List α} {bytes : List UInt8}
    (h : concatBytes write (x :: xs) = .ok bytes) :
    ∃ front back, write x = .ok front ∧ concatBytes write xs = .ok back
      ∧ bytes = front ++ back := by
  rw [concatBytes] at h
  obtain ⟨front, hfront, h⟩ := bind_eq_ok_iff.1 h
  obtain ⟨back, hback, h⟩ := bind_eq_ok_iff.1 h
  exact ⟨front, back, hfront, hback, (Except.ok.inj h).symm⟩

/-- Chunks that are collected from the back give the concatenation. -/
lemma concatBytes_of_chunks {collect : List (List UInt8) → List α → Except EncodeError (List UInt8)}
    (nil : ∀ done, collect done [] = .ok done.reverse.flatten)
    (cons : ∀ done x xs,
      collect done (x :: xs) = write x >>= fun front => collect (front :: done) xs)
    (done : List (List UInt8)) (xs : List α) :
    collect done xs = do return done.reverse.flatten ++ (← concatBytes write xs) := by
  induction xs generalizing done with
  | nil => simp [nil, concatBytes, Bind.bind, Except.bind, Pure.pure, Except.pure]
  | cons x xs ih =>
      rw [cons, concatBytes]
      cases write x with
      | error e => rfl
      | ok front =>
          refine (ih (front :: done)).trans ?_
          cases concatBytes write xs with
          | error e => rfl
          | ok back => simp [Bind.bind, Except.bind, Pure.pure, Except.pure]

lemma valuesBytes_nil (vs : List Value) : valuesBytes [] vs = concatBytes valueBytes vs := by
  have step : ∀ done v vs,
      valuesBytes done (v :: vs)
        = valueBytes v >>= fun front => valuesBytes (front :: done) vs := by
    intro done v vs
    rw [valuesBytes]
    cases valueBytes v <;> rfl
  rw [concatBytes_of_chunks (fun done => by rw [valuesBytes]) step]
  simp

lemma elementsBytes_nil (es : List (String × Value)) :
    elementsBytes [] es = concatBytes elementBytes es := by
  have step : ∀ done p es,
      elementsBytes done (p :: es)
        = elementBytes p >>= fun front => elementsBytes (front :: done) es := by
    rintro done ⟨name, v⟩ es
    rw [elementsBytes, elementBytes]
    cases textBytes .elementName name with
    | error e => rfl
    | ok nameBytes => cases valueBytes v <;> rfl
  rw [concatBytes_of_chunks (fun done => by rw [elementsBytes]) step]
  simp

lemma annotationsBytes_nil (annotations : List Annotation) :
    annotationsBytes [] annotations = concatBytes annotationBytes annotations := by
  have step : ∀ done a annotations,
      annotationsBytes done (a :: annotations)
        = annotationBytes a >>= fun front => annotationsBytes (front :: done) annotations := by
    intro done a annotations
    rw [annotationsBytes]
    cases annotationBytes a <;> rfl
  rw [concatBytes_of_chunks (fun done => by rw [annotationsBytes]) step]
  simp

/-! ## Taking bytes apart -/

variable {bytes : List UInt8}

/-- An element is written as its name and its value behind it. -/
lemma elementBytes_ok {p : String × Value} (h : elementBytes p = .ok bytes) :
    ∃ name value, textBytes .elementName p.1 = .ok name ∧ valueBytes p.2 = .ok value
      ∧ bytes = name ++ value := by
  obtain ⟨name, hname, h⟩ := bind_eq_ok_iff.1 h
  obtain ⟨value, hvalue, h⟩ := bind_eq_ok_iff.1 h
  exact ⟨name, value, hname, hvalue, (Except.ok.inj h).symm⟩

lemma charBytes_ok {c : Char} (h : charBytes c = .ok bytes) :
    c.toNat < UInt16.size ∧ bytes = Tag.char.toByte :: bigEndian 2 c.toNat := by
  unfold charBytes at h
  split_ifs at h with small
  exact ⟨small, (Except.ok.inj h).symm⟩

lemma stringBytes_ok {s : String} (h : valueBytes (.string s) = .ok bytes) :
    ∃ text, textBytes .string s = .ok text ∧ bytes = Tag.string.toByte :: text := by
  rw [valueBytes] at h
  obtain ⟨text, htext, h⟩ := bind_eq_ok_iff.1 h
  exact ⟨text, htext, (Except.ok.inj h).symm⟩

lemma classBytes_ok {c : ClassRef} (h : classBytes c = .ok bytes) :
    ∃ text, textBytes .classDescriptor c.descriptor = .ok text
      ∧ bytes = Tag.classRef.toByte :: text := by
  obtain ⟨text, htext, h⟩ := bind_eq_ok_iff.1 h
  exact ⟨text, htext, (Except.ok.inj h).symm⟩

lemma enumBytes_ok {e : EnumRef} (h : enumBytes e = .ok bytes) :
    ∃ type constant, textBytes .enumDescriptor (objectDescriptor e.typeName) = .ok type
      ∧ textBytes .enumConstant e.constant = .ok constant
      ∧ bytes = Tag.enum.toByte :: (type ++ constant) := by
  obtain ⟨type, htype, h⟩ := bind_eq_ok_iff.1 h
  obtain ⟨constant, hconstant, h⟩ := bind_eq_ok_iff.1 h
  exact ⟨type, constant, htype, hconstant, (Except.ok.inj h).symm⟩

/-- An annotation is written as a tag, its name, the number of its elements and the elements in
order. -/
lemma annotationBytes_ok {a : Annotation} (h : annotationBytes a = .ok bytes) :
    ∃ name count items, textBytes .annotationName a.typeName = .ok name
      ∧ lengthBytes .elementCount a.elements.length = .ok count
      ∧ concatBytes elementBytes a.elements = .ok items
      ∧ bytes = Tag.nested.toByte :: (name ++ (count ++ items)) := by
  obtain ⟨typeName, elements⟩ := a
  rw [annotationBytes] at h
  obtain ⟨name, hname, h⟩ := bind_eq_ok_iff.1 h
  obtain ⟨count, hcount, h⟩ := bind_eq_ok_iff.1 h
  obtain ⟨items, hitems, h⟩ := bind_eq_ok_iff.1 h
  rw [elementsBytes_nil] at hitems
  refine ⟨name, count, items, hname, hcount, hitems, ?_⟩
  rw [← Except.ok.inj h, tagged, List.append_assoc]

/-- An array is written as a tag, the number of its values and the values in order. -/
lemma arrayBytes_ok {vs : List Value} (h : valueBytes (.array vs) = .ok bytes) :
    ∃ count items, lengthBytes .array vs.length = .ok count
      ∧ concatBytes valueBytes vs = .ok items
      ∧ bytes = Tag.array.toByte :: (count ++ items) := by
  rw [valueBytes] at h
  obtain ⟨count, hcount, h⟩ := bind_eq_ok_iff.1 h
  obtain ⟨items, hitems, h⟩ := bind_eq_ok_iff.1 h
  rw [valuesBytes_nil] at hitems
  exact ⟨count, items, hcount, hitems, (Except.ok.inj h).symm⟩

/-- The annotations of a member are written as their number and the annotations in order, each with
its tag. -/
lemma memberBytes_ok {annotations : List Annotation} (h : memberBytes annotations = .ok bytes) :
    ∃ count items, lengthBytes .annotationCount annotations.length = .ok count
      ∧ concatBytes annotationBytes annotations = .ok items ∧ bytes = count ++ items := by
  obtain ⟨count, hcount, h⟩ := bind_eq_ok_iff.1 h
  obtain ⟨items, hitems, h⟩ := bind_eq_ok_iff.1 h
  rw [annotationsBytes_nil] at hitems
  exact ⟨count, items, hcount, hitems, (Except.ok.inj h).symm⟩

end DocAnnotations.Attribute
