import DocAnnotations.Attribute.Decode
import DocAnnotations.Attribute.Encode
import DocAnnotations.Proofs.Value.Elements

/-!
# Layouts

Bytes in the attribute format fall into tags, numbers, texts, counts and pairs before anything is
known about their meaning.  A `Layout` is bytes taken apart in this way: the texts need not be
UTF-8, the numbers need not stand for a character or a truth value, no type has to exist, and pairs
may stand in any order and have any names.  Whatever readers accept is laid out like this, but most
layouts are refused.

**Values of layouts.**  `Layout.value?` is the value of a layout, if it has one.  It is no reading:
the defaults of interfaces come from a function `D`, not from a registry.

**Pairs in another order.**  A layout `Reorders` to another when the pairs of annotations in it, at
any levels, are put in another order.  Two pairs can be exchanged because each is added under a free
name (`addPair?_bind_comm`), and one value can be exchanged for another that reads alike.
**`Layout.Reorders.value?_eq`**: both layouts have the same value.
-/

namespace DocAnnotations.Attribute

/-! ## Bytes in the format -/

/-- The bytes of a text, as many as a length of two bytes can say. -/
structure Chunk where
  content : List UInt8
  fits : content.length < UInt16.size

/-- The length and the bytes. -/
def Chunk.bytes (c : Chunk) : List UInt8 := bigEndian 2 c.content.length ++ c.content

/-- The text that the bytes spell. -/
def Chunk.text? (c : Chunk) : Option String := String.fromUTF8? ⟨c.content.toArray⟩

/-- How many bytes stand behind the tag of a number, a truth value or a character. -/
def Tag.width? : Tag → Option Nat
  | byte | boolean => some 1
  | short | char => some 2
  | int | float => some 4
  | long | double => some 8
  | _ => none

/-- A value as its bytes are laid out. -/
inductive Layout where
  | word (tag : Tag) (payload : List UInt8) (wide : tag.width? = some payload.length)
  | string (text : Chunk)
  | classRef (descriptor : Chunk)
  | enum (descriptor constant : Chunk)
  | nested (typeName : Chunk) (pairs : List (Chunk × Layout))
  | array (items : List Layout)

namespace Layout

mutual

/-- The bytes of a layout. -/
def bytes : Layout → List UInt8
  | word tag payload _ => tagged tag payload
  | string text => tagged .string text.bytes
  | classRef descriptor => tagged .classRef descriptor.bytes
  | enum descriptor constant => tagged .enum (descriptor.bytes ++ constant.bytes)
  | nested typeName pairs =>
    tagged .nested (typeName.bytes ++ (bigEndian 2 pairs.length ++ pairsBytes pairs))
  | array items => tagged .array (bigEndian 2 items.length ++ itemsBytes items)

/-- The bytes of pairs, one behind the other. -/
def pairsBytes : List (Chunk × Layout) → List UInt8
  | [] => []
  | (name, t) :: pairs => name.bytes ++ (t.bytes ++ pairsBytes pairs)

/-- The bytes of items, one behind the other. -/
def itemsBytes : List Layout → List UInt8
  | [] => []
  | t :: items => t.bytes ++ itemsBytes items

end

/-- The bytes of all annotations of a member. -/
def memberBytes (items : List Layout) : List UInt8 := bigEndian 2 items.length ++ itemsBytes items

/-- Every count in a layout fits two bytes. -/
inductive Fits : Layout → Prop
  | word (tag : Tag) (payload : List UInt8) (wide : tag.width? = some payload.length) :
    Fits (word tag payload wide)
  | string (text : Chunk) : Fits (string text)
  | classRef (descriptor : Chunk) : Fits (classRef descriptor)
  | enum (descriptor constant : Chunk) : Fits (enum descriptor constant)
  | nested {typeName : Chunk} {pairs : List (Chunk × Layout)} (few : pairs.length < UInt16.size)
    (inside : ∀ p ∈ pairs, Fits p.2) : Fits (nested typeName pairs)
  | array {items : List Layout} (few : items.length < UInt16.size) (inside : ∀ t ∈ items, Fits t) :
    Fits (array items)

end Layout

/-! ## Values of layouts -/

/-- The truth value of a byte. -/
def boolean? (b : UInt8) : Option Bool :=
  if b = 0 then some false else if b = 1 then some true else none

/-- The character of a code unit. -/
def char? (unit : Nat) : Option Char := if unit.isValidChar then some (Char.ofNat unit) else none

/-- The value of a number behind a tag. -/
def Tag.word? (n : Nat) : Tag → Option Value
  | byte => some (.byte (Int8.ofNat n))
  | short => some (.short (Int16.ofNat n))
  | int => some (.int (Int32.ofNat n))
  | long => some (.long (Int64.ofNat n))
  | float => some (.float (UInt32.ofNat n))
  | double => some (.double (UInt64.ofNat n))
  | boolean => (boolean? (UInt8.ofNat n)).map .boolean
  | char => (char? n).map .char
  | _ => none

section

variable (types : TypeLookup)

/-- The class of a descriptor, if it is there. -/
def class? (descriptor : Chunk) : Option ClassRef := do
  let c ← ClassRef.ofDescriptor? (← descriptor.text?)
  if c.isPrimitive || types.isClass c.name then some c else none

/-- The constant of an enum, if both are there. -/
def enum? (descriptor constant : Chunk) : Option EnumRef := do
  let descriptor ← descriptor.text?
  let constant ← constant.text?
  let typeName ← objectName? descriptor
  let e ← types.enumeration? typeName
  if e.hasConstant constant then some ⟨typeName, constant⟩ else none

/-- An annotation with the value of one more element.  The element must be declared with the type of
the value, and have no value yet. -/
def added? (i : Interface) (a : Annotation) (name : String) (v : Value) : Option Annotation := do
  let e ← i.element? name
  if !v.conforms e.type then none
  else if a.contains name then none
  else some (a.insert name v)

variable (D : Interface → Option Annotation)

/-- The annotation of a type with the elements that pairs add, completed from the defaults of the
type if it lacks some. -/
def body? (typeName : Chunk) (add : Interface → Annotation → Option Annotation) :
    Option Annotation := do
  let name ← typeName.text?
  let i ← types.annotation? name
  let a ← add i (.empty name)
  if a.size < i.elements.length then return completed a (← D i) else return a

namespace Layout

mutual

/-- The value of a layout, where the given number of arrays and annotations may be opened. -/
def value? (left : Nat) : Layout → Option Value
  | word tag payload _ => tag.word? (ofBigEndian payload)
  | string text => text.text?.map .string
  | classRef descriptor => (class? types descriptor).map .classRef
  | enum descriptor constant => (enum? types descriptor constant).map .enum
  | nested typeName pairs =>
    match left with
    | 0 => none
    | left + 1 => (body? types D typeName fun i a => elements? left i pairs a).map .nested
  | array items =>
    match left with
    | 0 => none
    | left + 1 => (values? left items).map .array

/-- An annotation with the elements that pairs add to it. -/
def elements? (left : Nat) (i : Interface) :
    List (Chunk × Layout) → Annotation → Option Annotation
  | [], a => some a
  | (name, t) :: pairs, a => do
    let name ← name.text?
    let v ← t.value? left
    let a ← added? i a name v
    elements? left i pairs a

/-- The values of items. -/
def values? (left : Nat) : List Layout → Option (List Value)
  | [] => some []
  | t :: items => do
    let v ← t.value? left
    (values? left items).map (v :: ·)

end

/-- The annotation that a layout stands for, nothing being open yet. -/
def annotation? : Layout → Option Annotation
  | nested typeName pairs =>
    body? types D typeName fun i a => elements? types D (nestingLimit - 1) i pairs a
  | _ => none

/-- The annotations that several layouts stand for. -/
def annotations? : List Layout → Option (List Annotation)
  | [] => some []
  | t :: items => do
    let a ← annotation? types D t
    (annotations? items).map (a :: ·)

end Layout

end

/-! ## Pairs in another order -/

namespace Layout

/-- The pairs of some annotations in a layout are put in another order, step by step. -/
inductive Reorders : Layout → Layout → Prop
  | refl (t : Layout) : Reorders t t
  | pairs {typeName : Chunk} {pairs pairs' : List (Chunk × Layout)} (perm : pairs.Perm pairs') :
    Reorders (nested typeName pairs) (nested typeName pairs')
  | insidePair {typeName name : Chunk} {t t' : Layout} (front back : List (Chunk × Layout))
    (inside : Reorders t t') :
    Reorders (nested typeName (front ++ (name, t) :: back))
      (nested typeName (front ++ (name, t') :: back))
  | insideItem {t t' : Layout} (front back : List Layout) (inside : Reorders t t') :
    Reorders (array (front ++ t :: back)) (array (front ++ t' :: back))
  | trans {t u v : Layout} (first : Reorders t u) (second : Reorders u v) : Reorders t v

variable {types : TypeLookup} {D : Interface → Option Annotation} {left : Nat} {i : Interface}
  {t t' : Layout}

/-- An element is added exactly if it is declared, of its type and new. -/
lemma added?_eq_some {a b : Annotation} {name : String} {v : Value} :
    added? i a name v = some b ↔ (∃ e, i.element? name = some e ∧ v.conforms e.type = true)
      ∧ a.contains name = false ∧ a.insert name v = b := by
  unfold added?
  cases i.element? name with
  | none => simp
  | some e => cases hc : v.conforms e.type <;> cases ha : a.contains name <;> simp [hc]

/-- What is added first leaves the second element as it was, or both have one name. -/
lemma added?_bind_le {a b : Annotation} {name other : String} {v w : Value}
    (h : (added? i a name v).bind (fun a => added? i a other w) = some b) :
    (added? i a other w).bind (fun a => added? i a name v) = some b := by
  simp only [Option.bind_eq_some_iff, added?_eq_some] at h ⊢
  obtain ⟨_, ⟨declared, new, rfl⟩, declared', new', rfl⟩ := h
  rw [← Bool.not_eq_true, Annotation.contains_insert, not_or, Bool.not_eq_true] at new'
  refine ⟨_, ⟨declared', new'.2, rfl⟩, declared, ?_, Annotation.insert_comm new'.1 v w⟩
  rw [← Bool.not_eq_true, Annotation.contains_insert, not_or, Bool.not_eq_true]
  exact ⟨Ne.symm new'.1, new⟩

/-- Two elements may be added in either order. -/
lemma added?_bind_comm (a : Annotation) (name other : String) (v w : Value) :
    (added? i a name v).bind (fun a => added? i a other w)
      = (added? i a other w).bind fun a => added? i a name v :=
  Option.ext fun _ => ⟨added?_bind_le, added?_bind_le⟩

/-- One more pair. -/
def addPair? (types : TypeLookup) (D : Interface → Option Annotation) (left : Nat) (i : Interface)
    (p : Chunk × Layout) (a : Annotation) : Option Annotation := do
  added? i a (← p.1.text?) (← p.2.value? types D left)

lemma elements?_cons (p : Chunk × Layout) (pairs : List (Chunk × Layout)) (a : Annotation) :
    elements? types D left i (p :: pairs) a
      = (addPair? types D left i p a).bind (elements? types D left i pairs) := by
  simp only [elements?, addPair?, Bind.bind, Option.bind_assoc]

/-- Two pairs can be added in either order: they fail together, or they give the same annotation. -/
lemma addPair?_bind_comm (p q : Chunk × Layout) (a : Annotation) :
    (addPair? types D left i p a).bind (addPair? types D left i q)
      = (addPair? types D left i q a).bind (addPair? types D left i p) := by
  unfold addPair?
  cases p.1.text? <;> cases p.2.value? types D left <;> cases q.1.text? <;>
    cases q.2.value? types D left <;> simp [added?_bind_comm]

/-- The order in which pairs are laid out makes no difference to the annotation that is read from
them. -/
lemma elements?_perm {pairs pairs' : List (Chunk × Layout)} (perm : pairs.Perm pairs') :
    ∀ a, elements? types D left i pairs a = elements? types D left i pairs' a := by
  induction perm with
  | nil => exact fun _ => rfl
  | cons p _ ih =>
      intro a
      rw [elements?_cons, elements?_cons, funext ih]
  | swap p q pairs =>
      intro a
      have unfolded : ∀ p q, elements? types D left i (p :: q :: pairs) a
          = ((addPair? types D left i p a).bind (addPair? types D left i q)).bind
            (elements? types D left i pairs) := fun p q => by
        rw [elements?_cons, funext (elements?_cons q pairs), Option.bind_assoc]
      rw [unfolded, unfolded, addPair?_bind_comm]
  | trans _ _ first second => exact fun a => (first a).trans (second a)

/-- One value among several elements may be replaced by another that reads alike. -/
lemma elements?_congr {name : Chunk} (same : t.value? types D left = t'.value? types D left) :
    ∀ (front back : List (Chunk × Layout)) (a : Annotation),
      elements? types D left i (front ++ (name, t) :: back) a
        = elements? types D left i (front ++ (name, t') :: back) a
  | [], back, a => by simp only [List.nil_append, elements?, same]
  | p :: front, back, a => by
      rw [List.cons_append, List.cons_append, elements?_cons, elements?_cons,
        funext (elements?_congr same front back)]

/-- One value of an array may be replaced by another that reads alike, without moving the others. -/
lemma values?_congr (same : t.value? types D left = t'.value? types D left) :
    ∀ front back : List Layout,
      values? types D left (front ++ t :: back) = values? types D left (front ++ t' :: back)
  | [], back => by simp only [List.nil_append, values?, same]
  | u :: front, back => by
      rw [List.cons_append, List.cons_append, values?, values?, values?_congr same front back]

/-- The order of pairs does not change the value. -/
theorem Reorders.value?_eq (h : Reorders t t') :
    ∀ left, t.value? types D left = t'.value? types D left := by
  induction h with
  | refl t => exact fun _ => rfl
  | pairs perm =>
      rintro (_ | left)
      · rw [value?, value?]
      · rw [value?, value?]
        simp only [elements?_perm perm]
  | insidePair front back _ ih =>
      rintro (_ | left)
      · rw [value?, value?]
      · rw [value?, value?]
        simp only [elements?_congr (ih left)]
  | insideItem front back _ ih =>
      rintro (_ | left)
      · rw [value?, value?]
      · rw [value?, value?, values?_congr (ih left)]
  | trans _ _ first second => exact fun left => (first left).trans (second left)

/-- Reordered layouts of an annotation that stands by itself are read as the same annotation. -/
lemma Reorders.annotation?_eq (h : Reorders t t') :
    t.annotation? types D = t'.annotation? types D := by
  induction h with
  | refl t => rfl
  | pairs perm => simp only [annotation?, elements?_perm perm]
  | insidePair front back inside _ =>
      simp only [annotation?, elements?_congr (inside.value?_eq _)]
  | insideItem front back _ _ => rfl
  | trans _ _ first second => exact first.trans second

/-- The annotations of a member are read alike when each of their layouts is reordered by itself. -/
lemma annotations?_eq {items items' : List Layout} (h : List.Forall₂ Reorders items items') :
    annotations? types D items = annotations? types D items' := by
  induction h with
  | nil => rfl
  | cons first _ ih => rw [annotations?, annotations?, first.annotation?_eq, ih]

/-- At every place there are as many pairs and items as before. -/
lemma Reorders.fits (h : Reorders t t') (fits : t.Fits) : t'.Fits := by
  induction h with
  | refl t => exact fits
  | pairs perm =>
      cases fits with
      | nested few inside =>
          exact .nested (perm.length_eq ▸ few) fun p hp => inside p (perm.mem_iff.2 hp)
  | insidePair front back _ ih =>
      cases fits with
      | nested few inside =>
          simp only [List.forall_mem_append, List.forall_mem_cons] at inside
          refine .nested (by simpa using few) ?_
          simp only [List.forall_mem_append, List.forall_mem_cons]
          exact ⟨inside.1, ih inside.2.1, inside.2.2⟩
  | insideItem front back _ ih =>
      cases fits with
      | array few inside =>
          simp only [List.forall_mem_append, List.forall_mem_cons] at inside
          refine .array (by simpa using few) ?_
          simp only [List.forall_mem_append, List.forall_mem_cons]
          exact ⟨inside.1, ih inside.2.1, inside.2.2⟩
  | trans _ _ first second => exact second (first fits)

/-- Reordering each layout of a member leaves all of them within the limits of the format. -/
lemma fits_of_forall₂ {items items' : List Layout} (h : List.Forall₂ Reorders items items')
    (fits : ∀ t ∈ items, t.Fits) : ∀ t ∈ items', t.Fits := by
  induction h with
  | nil => exact fits
  | cons first _ ih =>
      rw [List.forall_mem_cons] at fits ⊢
      exact ⟨first.fits fits.1, ih fits.2⟩

end Layout

end DocAnnotations.Attribute
