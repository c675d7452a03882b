import DocAnnotations.Attribute.Decode
import Mathlib.Tactic.Common

/-!
# What readers are made of

Readers are put together from few steps: bytes are taken, the place is looked at, a computation on
the registry answers a question for defaults, and an error or a value ends the reading.  A property
that these steps have and that sequences of steps keep is one of all readers.

**Steps that succeed.**  The first lemmas say what a step did that succeeded, one for each way of
putting steps together.

**The steps of readers.**  `ReaderProperty types f holds` lists what a property has to satisfy, with
`f` for the answers to questions for defaults.  Lemmas in its namespace take it from the steps to
the small readers, which have no values inside.

**Arrays and annotations.**  **`ReaderProperty.readValue`** is the induction over the levels that
are left, which goes through once for all such properties, and `ReaderProperty.readMember` takes it
to whole attributes.
-/

namespace DocAnnotations.Attribute

/-! ## Steps that succeed -/

section

variable {α β : Type} {p : Read α} {s s' : ReadState} {a : α}

/-- Two readers in a row succeed if and only if the first does, and the second from where it
stopped. -/
lemma bind_eq_ok {f : α → Read β} {b : β} :
    (p >>= f) s = .ok b s' ↔ ∃ a t, p s = .ok a t ∧ f a t = .ok b s' := by
  simp only [Bind.bind, EStateM.bind]
  cases p s with
  | ok a t => simp
  | error e t => simp

/-- Reading of defaults inside an attribute moves the registry on and nothing else. -/
lemma ofLoad_eq_ok {q : Load α} :
    Read.ofLoad q s = .ok a s' ↔
      ∃ r, q s.registry = .ok a r ∧ ⟨s.offset, s.rest, r⟩ = s' := by
  rw [Read.ofLoad]
  cases q s.registry with
  | ok d r => simp [and_assoc]
  | error e r => simp

/-- What was taken is the front of what was left, in the number that was needed, with the offset
moved on. -/
lemma takeBytes_eq_ok {needed : Nat} {bytes : List UInt8}
    (ran : takeBytes needed s = .ok bytes s') :
    s.rest = bytes ++ s'.rest ∧ bytes.length = needed ∧ s'.offset = s.offset + needed
      ∧ s'.registry = s.registry := by
  by_cases enough : (s.rest.splitAt needed).1.length = needed
  · rw [takeBytes_of_enough enough] at ran
    cases ran
    refine ⟨?_, enough, rfl, rfl⟩
    rw [List.splitAt_eq]
    exact (List.take_append_drop needed s.rest).symm
  · rw [takeBytes_of_not_enough enough] at ran
    cases ran

/-- Bytes are read as a whole if and only if the reader succeeds on them and leaves none over. -/
lemma readAll_eq_ok {bytes : List UInt8} {r r' : Registry} :
    readAll p bytes r = .ok a r' ↔
      ∃ s, p ⟨0, bytes, r⟩ = .ok a s ∧ s.rest = [] ∧ s.registry = r' := by
  rw [readAll]
  cases p ⟨0, bytes, r⟩ with
  | error e s => simp
  | ok b s =>
      dsimp only
      split_ifs with empty
      · simp [List.isEmpty_iff.1 empty]
      · rw [List.isEmpty_iff] at empty
        simp [empty]

end

/-! ## The steps of readers -/

/-- An error that is not about defaults. -/
def ReadError.Own : ReadError → Prop
  | .invalidDefault .. => False
  | .recursiveDefault _ => False
  | _ => True

/-- A property that the steps of readers have and that sequences of steps keep.  Readers have errors
of their own; errors about defaults come with the answers of `f` only. -/
structure ReaderProperty (types : TypeLookup) (f : Interface → Load Annotation)
    (holds : (α : Type) → Read α → Prop) : Prop where
  pure : ∀ {α : Type} (a : α), holds α (pure a)
  throw : ∀ {α : Type} {e : ReadError}, e.Own → holds α (throw e)
  bind : ∀ {α β : Type} {p : Read α} {next : α → Read β}, holds α p → (∀ a, holds β (next a)) →
    holds β (p >>= next)
  takeBytes : ∀ needed : Nat, holds (List UInt8) (takeBytes needed)
  currentOffset : holds Nat currentOffset
  answer : ∀ i, types.Knows i → holds Annotation (Read.ofLoad (f i))

namespace ReaderProperty

variable {types : TypeLookup} {f : Interface → Load Annotation}
  {holds : (α : Type) → Read α → Prop} (h : ReaderProperty types f holds)

include h

/-! ## Values without values inside -/

lemma readNumber (width : Nat) : holds Nat (readNumber width) :=
  h.bind (h.takeBytes width) fun _ => h.pure _

lemma readByte : holds UInt8 readByte :=
  h.bind (h.readNumber 1) fun _ => h.pure _

lemma readText : holds String readText := by
  refine h.bind (h.readNumber 2) fun length => ?_
  refine h.bind h.currentOffset fun offset => ?_
  refine h.bind (h.takeBytes length) fun bytes => ?_
  cases String.fromUTF8? ⟨bytes.toArray⟩ with
  | some text => exact h.pure text
  | none => exact h.throw trivial

lemma readBoolean : holds Bool readBoolean := by
  refine h.bind h.currentOffset fun offset => h.bind h.readByte fun b => ?_
  split_ifs
  · exact h.pure _
  · exact h.pure _
  · exact h.throw trivial

lemma readChar : holds Char readChar := by
  refine h.bind h.currentOffset fun offset => h.bind (h.readNumber 2) fun unit => ?_
  split_ifs
  · exact h.pure _
  · exact h.throw trivial

lemma readClass : holds ClassRef (readClass types) := by
  refine h.bind h.readText fun descriptor => ?_
  cases ClassRef.ofDescriptor? descriptor with
  | none => exact h.throw trivial
  | some c =>
      dsimp only
      split_ifs
      · exact h.pure c
      · exact h.throw trivial

lemma readEnum : holds EnumRef (readEnum types) := by
  refine h.bind h.readText fun descriptor => h.bind h.readText fun constant => ?_
  cases objectName? descriptor with
  | none => exact h.throw trivial
  | some typeName =>
      dsimp only
      cases types.enumeration? typeName with
      | none => exact h.throw trivial
      | some e =>
          dsimp only
          split_ifs
          · exact h.pure _
          · exact h.throw trivial

/-! ## Arrays and annotations -/

section

variable {value : Read Value} (inside : holds Value value)

include inside

/-- A property that single values have, and that passes through readers in a row, holds of a counted
list. -/
lemma readValues : ∀ (n : Nat) (found : List Value),
    holds (List Value) (readValues value n found)
  | 0, _ => h.pure _
  | n + 1, found => h.bind inside fun v => readValues n (v :: found)

/-- The same for a counted list of named elements, where each name is looked up before its value is
read. -/
lemma readElements (interface : Interface) : ∀ (n : Nat) (a : Annotation),
    holds Annotation (readElements value interface n a)
  | 0, a => h.pure a
  | n + 1, a => by
      refine h.bind h.readText fun name => h.bind inside fun v => ?_
      cases interface.element? name with
      | none => exact h.throw trivial
      | some e =>
          dsimp only
          split_ifs
          · exact h.throw trivial
          · exact h.throw trivial
          · exact readElements interface n (a.insert name v)

end

variable {inner : Option (Read Value)} (inside : ∀ value, inner = some value → holds Value value)

include inside

lemma readArray : holds Value (readArray inner) := by
  cases inner with
  | none => exact h.throw trivial
  | some value =>
      refine h.bind (h.readNumber 2) fun count => ?_
      exact h.bind (h.readValues (inside value rfl) count []) fun vs => h.pure _

lemma readBody : holds Annotation (readBody types f inner) := by
  cases inner with
  | none => exact h.throw trivial
  | some value =>
      refine h.bind h.readText fun name => ?_
      cases found : types.annotation? name with
      | none => exact h.throw trivial
      | some interface =>
          refine h.bind (h.readNumber 2) fun count => ?_
          refine h.bind (h.readElements (inside value rfl) interface count _) fun a => ?_
          split_ifs
          · exact h.bind (h.answer interface (TypeLookup.knows_of_annotation? found))
              fun d => h.pure _
          · exact h.pure a

/-- Each tag leads to a reader that is put together from readers with the property. -/
lemma readPayload (tag : Tag) : holds Value (readPayload types f inner tag) := by
  cases tag with
  | byte | short | int | long | float | double =>
      exact h.bind (h.readNumber _) fun _ => h.pure _
  | boolean => exact h.bind h.readBoolean fun _ => h.pure _
  | char => exact h.bind h.readChar fun _ => h.pure _
  | string => exact h.bind h.readText fun _ => h.pure _
  | classRef => exact h.bind h.readClass fun _ => h.pure _
  | enum => exact h.bind h.readEnum fun _ => h.pure _
  | nested => exact h.bind (h.readBody inside) fun _ => h.pure _
  | array => exact h.readArray inside

lemma readValueWith : holds Value (readValueWith types f inner) := by
  refine h.bind h.currentOffset fun offset => h.bind h.readByte fun b => ?_
  cases Tag.ofByte? b with
  | none => exact h.throw trivial
  | some tag => exact h.readPayload inside tag

omit inside

/-- The readers of values, for any number of arrays and annotations that may be opened. -/
theorem readValue (left : Nat) : holds Value (readValue types f left) := by
  induction left with
  | zero => exact h.readValueWith fun _ none => nomatch none
  | succ left ih =>
      refine h.readValueWith fun _ same => ?_
      cases same
      exact ih

/-- The property holds of annotations that stand by themselves, at the first level. -/
lemma readTopLevel : holds Annotation (readTopLevel types f) := by
  refine h.bind h.readByte fun tag => ?_
  split_ifs
  · refine h.readBody fun _ same => ?_
    cases same
    exact h.readValue _
  · exact h.throw trivial

lemma readAnnotations : ∀ (n : Nat) (found : List Annotation),
    holds (List Annotation) (readAnnotations (Attribute.readTopLevel types f) n found)
  | 0, _ => h.pure _
  | n + 1, found => h.bind h.readTopLevel fun a => readAnnotations n (a :: found)

/-- The reader of all annotations of a member. -/
lemma readMember : holds (List Annotation)
    (do Attribute.readAnnotations (Attribute.readTopLevel types f) (← readLength) []) :=
  h.bind (h.readNumber 2) fun count => h.readAnnotations count []

end ReaderProperty

end DocAnnotations.Attribute
