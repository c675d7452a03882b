import DocAnnotations.Proofs.Alone
import DocAnnotations.Proofs.Attribute.Layout
import DocAnnotations.Proofs.Attribute.Reread
import DocAnnotations.Proofs.TypeIndex

/-!
# Pairs in any order

A reader sees the pairs of an annotation one by one, and loads defaults on the way.  Still it makes
of the bytes of a layout the value of the layout, or refuses them if there is none.

**What readers make of bytes.**  `Makes I p bytes x` says this of one reading, for all registries
with the invariant `I`, under which they have the same answers.  **`makes_readValue`** puts the
reading of a layout together as the layout is put together.

**Whole attributes.**  Since layouts that differ in the order of their pairs have the same value,
nothing else is needed.  **`returned_reordered`**: bytes whose pairs were put in another order, at
any levels, are accepted exactly if they were accepted before, and read as the same value.
-/

namespace DocAnnotations.Attribute

/-! ## What readers make of bytes -/

variable {α β : Type} {I : Registry → Prop}

/-- In front of `bytes` a reading takes exactly these and returns the given value; if there is none,
it fails.  It may start with every registry that has the invariant `I`, which it keeps. -/
def Makes (I : Registry → Prop) (p : Read α) (bytes : List UInt8) : Option α → Prop
  | some a => ∀ offset rest r, I r →
    ∃ r', p ⟨offset, bytes ++ rest, r⟩ = .ok a ⟨offset + bytes.length, rest, r'⟩ ∧ I r'
  | none => ∀ offset rest r, I r → ∃ e s, p ⟨offset, bytes ++ rest, r⟩ = .error e s

namespace Makes

lemma pure (a : α) : Makes I (pure a) [] (some a) := fun _ _ r holds => ⟨r, rfl, holds⟩

lemma throw (e : ReadError) (bytes : List UInt8) : Makes I (throw e : Read α) bytes none :=
  fun _ _ _ _ => ⟨e, _, rfl⟩

/-- Readers in a row make of the bytes in a row what the second makes given the outcome of the
first. -/
lemma bind {p : Read α} {f : α → Read β} {x : Option α} {y : α → Option β}
    {front back : List UInt8} (first : Makes I p front x)
    (later : ∀ a, x = some a → Makes I (f a) back (y a)) :
    Makes I (p >>= f) (front ++ back) (x >>= y) := by
  cases x with
  | none =>
      intro offset rest r holds
      obtain ⟨e, s, failed⟩ := first offset (back ++ rest) r holds
      exact ⟨e, s, by simp only [Bind.bind, EStateM.bind, List.append_assoc, failed]⟩
  | some a =>
      have later := later a rfl
      simp only [Bind.bind, Option.bind_some]
      cases hy : y a with
      | none =>
          rw [hy] at later
          intro offset rest r holds
          obtain ⟨r', ran, holds'⟩ := first offset (back ++ rest) r holds
          obtain ⟨e, s, failed⟩ := later (offset + front.length) rest r' holds'
          exact ⟨e, s, by simp only [EStateM.bind, List.append_assoc, ran, failed]⟩
      | some b =>
          rw [hy] at later
          intro offset rest r holds
          obtain ⟨r', ran, holds'⟩ := first offset (back ++ rest) r holds
          obtain ⟨r'', ran', holds''⟩ := later (offset + front.length) rest r' holds'
          refine ⟨r'', ?_, holds''⟩
          simp only [EStateM.bind, List.append_assoc, List.length_append, ran, ran', Nat.add_assoc]

/-- A last step that takes no bytes. -/
lemma bind_last {p : Read α} {f : α → Read β} {x : Option α} {y : α → Option β}
    {bytes : List UInt8} (first : Makes I p bytes x) (later : ∀ a, Makes I (f a) [] (y a)) :
    Makes I (p >>= f) bytes (x >>= y) := by
  simpa using first.bind fun a _ => later a

/-- A last step that only wraps the value. -/
lemma map {p : Read α} {x : Option α} {bytes : List UInt8} (f : α → β) (h : Makes I p bytes x) :
    Makes I (do return f (← p)) bytes (x.map f) := by
  have wrapped := h.bind_last fun a => Makes.pure (f a)
  cases x <;> exact wrapped

/-- A first step that reads a known value. -/
lemma known_bind {p : Read α} {f : α → Read β} {a : α} {y : Option β} {front back : List UInt8}
    (first : ReadsAs p front (Pure.pure a)) (later : Makes I (f a) back y) :
    Makes I (p >>= f) (front ++ back) y := by
  have known : Makes I p front (some a) := fun offset rest r holds =>
    ⟨r, first offset rest r, holds⟩
  refine known.bind (y := fun _ => y) fun b same => ?_
  cases same
  exact later

/-- A first step that reads a known value, with nothing to read behind it. -/
lemma known_bind_last {p : Read α} {f : α → Read β} {a : α} {y : Option β} {bytes : List UInt8}
    (first : ReadsAs p bytes (Pure.pure a)) (later : Makes I (f a) [] y) :
    Makes I (p >>= f) bytes y := by
  simpa using known_bind first later

lemma readByte_bind {f : UInt8 → Read α} {b : UInt8} {y : Option α} {bytes : List UInt8}
    (later : Makes I (f b) bytes y) : Makes I (readByte >>= f) (b :: bytes) y :=
  known_bind (readsAs_readByte b) later

lemma currentOffset_bind {f : Nat → Read α} {bytes : List UInt8} {x : Option α}
    (h : ∀ offset, Makes I (f offset) bytes x) : Makes I (currentOffset >>= f) bytes x := by
  cases x with
  | none => exact fun offset => h offset offset
  | some a => exact fun offset => h offset offset

/-- What is made of all bytes there are. -/
lemma returned_readAll {p : Read α} {bytes : List UInt8} {x : Option α} (h : Makes I p bytes x)
    {r : Registry} (holds : I r) : returned (readAll p bytes r) = x := by
  cases x with
  | none =>
      obtain ⟨e, s, failed⟩ := h 0 [] r holds
      rw [List.append_nil] at failed
      rw [readAll, failed]
      rfl
  | some a =>
      obtain ⟨r', ran, -⟩ := h 0 [] r holds
      rw [List.append_nil] at ran
      rw [readAll, ran]
      rfl

end Makes

/-! ## Values without values inside -/

/-- A chunk is read as the text that its bytes encode, if they encode one. -/
lemma makes_readText (c : Chunk) : Makes I readText c.bytes c.text? := by
  refine Makes.known_bind (readsAs_readNumber c.fits) (Makes.currentOffset_bind fun offset => ?_)
  refine Makes.known_bind_last (readsAs_takeBytes c.content) ?_
  unfold Chunk.text?
  cases String.fromUTF8? ⟨c.content.toArray⟩ with
  | none => exact Makes.throw _ _
  | some text => exact Makes.pure text

section

variable {width : Nat} {payload : List UInt8} (wide : width = payload.length)

include wide

/-- Any payload of the right width is read as the number that it stands for. -/
lemma readsAs_readNumber_payload :
    ReadsAs (readNumber width) payload (pure (ofBigEndian payload)) := by
  subst wide
  exact (readsAs_takeBytes payload).known_map ofBigEndian

/-- A number is made into a word of its width. -/
lemma makes_word (wrap : Nat → Value) :
    Makes I (do return wrap (← readNumber width)) payload (some (wrap (ofBigEndian payload))) :=
  Makes.known_bind_last (readsAs_readNumber_payload wide) (Makes.pure _)

end

lemma makes_readBoolean {payload : List UInt8} (wide : 1 = payload.length) :
    Makes I readBoolean payload (boolean? (UInt8.ofNat (ofBigEndian payload))) := by
  refine Makes.currentOffset_bind fun offset => ?_
  have byte := (readsAs_readNumber_payload wide).known_map UInt8.ofNat
  refine Makes.known_bind_last byte ?_
  unfold boolean?
  split_ifs
  · exact Makes.pure _
  · exact Makes.pure _
  · exact Makes.throw _ _

lemma makes_readChar {payload : List UInt8} (wide : 2 = payload.length) :
    Makes I readChar payload (char? (ofBigEndian payload)) := by
  refine Makes.currentOffset_bind fun offset => ?_
  refine Makes.known_bind_last (readsAs_readNumber_payload wide) ?_
  unfold char?
  split_ifs
  · exact Makes.pure _
  · exact Makes.throw _ _

variable {types : TypeLookup}

/-- A class is made of the chunk of its descriptor, whatever the registry has. -/
lemma makes_readClass (descriptor : Chunk) :
    Makes I (readClass types) descriptor.bytes (class? types descriptor) := by
  refine (makes_readText descriptor).bind_last fun text => ?_
  cases ClassRef.ofDescriptor? text with
  | none => exact Makes.throw _ _
  | some c =>
      simp only [Bind.bind, Option.bind_some]
      split_ifs
      · exact Makes.pure c
      · exact Makes.throw _ _

/-- An enum constant is made of two chunks, and both must name something the index has. -/
lemma makes_readEnum (descriptor constant : Chunk) :
    Makes I (readEnum types) (descriptor.bytes ++ constant.bytes)
      (enum? types descriptor constant) := by
  refine (makes_readText descriptor).bind fun text _ => ?_
  refine (makes_readText constant).bind_last fun name => ?_
  cases objectName? text with
  | none => exact Makes.throw _ _
  | some typeName =>
      simp only [Bind.bind, Option.bind_some]
      cases types.enumeration? typeName with
      | none => exact Makes.throw _ _
      | some e =>
          simp only [Option.bind_some]
          split_ifs
          · exact Makes.pure _
          · exact Makes.throw _ _

/-- Numbers, truth values and characters. -/
lemma makes_readPayload_word {f : Interface → Load Annotation} {inner : Option (Read Value)}
    {tag : Tag} {payload : List UInt8} (wide : tag.width? = some payload.length) :
    Makes I (readPayload types f inner tag) payload (tag.word? (ofBigEndian payload)) := by
  cases tag with
  | byte | short | int | long | float | double => exact makes_word (Option.some.inj wide) _
  | boolean => exact (makes_readBoolean (Option.some.inj wide)).map Value.boolean
  | char => exact (makes_readChar (Option.some.inj wide)).map Value.char
  | string | classRef | enum | nested | array => cases wide

/-- Behind a tag, the outcome is what is made of the payload. -/
lemma makes_tagged {f : Interface → Load Annotation} {inner : Option (Read Value)} {tag : Tag}
    {payload : List UInt8} {x : Option Value}
    (h : Makes I (readPayload types f inner tag) payload x) :
    Makes I (readValueWith types f inner) (tagged tag payload) x := by
  refine Makes.currentOffset_bind fun offset => ?_
  refine Makes.readByte_bind ?_
  rw [Tag.ofByte?_toByte]
  exact h

/-! ## Arrays and annotations -/

variable {f : Interface → Load Annotation} {D : Interface → Option Annotation} {left : Nat}

/-- The value of a layout is what a reader makes of its bytes. -/
def ReadsLayout (I : Registry → Prop) (types : TypeLookup) (f : Interface → Load Annotation)
    (D : Interface → Option Annotation) (t : Layout) : Prop :=
  ∀ left, Makes I (readValue types f left) t.bytes (t.value? types D left)

/-- If each layout is read as its value, several in a row are read as the list of their values. -/
lemma makes_readValues : ∀ {items : List Layout} (found : List Value),
    (∀ t ∈ items, ReadsLayout I types f D t) →
    Makes I (readValues (readValue types f left) items.length found) (Layout.itemsBytes items)
      ((Layout.values? types D left items).map (found.reverse ++ ·))
  | [], found, _ => by
      rw [Layout.values?, Layout.itemsBytes, Option.map_some, List.append_nil]
      exact Makes.pure _
  | t :: items, found, inside => by
      obtain ⟨first, others⟩ := List.forall_mem_cons.1 inside
      have step := (first left).bind fun v _ => makes_readValues (v :: found) others
      rw [Layout.values?, Layout.itemsBytes, List.length_cons, readValues]
      simpa [Option.map_bind, Function.comp_def] using step

/-- If each layout is read as its value, pairs in a row are read as what they add to an
annotation. -/
lemma makes_readElements {interface : Interface} :
    ∀ {pairs : List (Chunk × Layout)} (a : Annotation),
    (∀ p ∈ pairs, ReadsLayout I types f D p.2) →
    Makes I (readElements (readValue types f left) interface pairs.length a)
      (Layout.pairsBytes pairs) (Layout.elements? types D left interface pairs a)
  | [], a, _ => by
      rw [Layout.elements?, Layout.pairsBytes]
      exact Makes.pure a
  | (name, t) :: pairs, a, inside => by
      obtain ⟨first, others⟩ := List.forall_mem_cons.1 inside
      rw [Layout.elements?, Layout.pairsBytes, List.length_cons, readElements]
      refine (makes_readText name).bind fun text _ => (first left).bind fun v _ => ?_
      rw [added?]
      cases interface.element? text with
      | none => exact Makes.throw _ _
      | some e =>
          simp only [Bind.bind, Option.bind_some]
          split_ifs
          · exact Makes.throw _ _
          · exact Makes.throw _ _
          · exact makes_readElements (a.insert text v) others

/-- Bytes behind another tag are no annotation. -/
lemma makes_readTopLevel_of_ne {tag : Tag} {payload : List UInt8} (other : tag ≠ .nested) :
    Makes I (readTopLevel types f) (tagged tag payload) none := by
  refine Makes.readByte_bind ?_
  have differs : tag.toByte ≠ Tag.nested.toByte := by cases tag <;> first | decide | contradiction
  rw [if_neg differs]
  exact Makes.throw _ _

/-- Defaults are loaded as the function says. -/
def Answers (I : Registry → Prop) (types : TypeLookup) (f : Interface → Load Annotation)
    (D : Interface → Option Annotation) : Prop :=
  ∀ i, types.Knows i → Makes I (Read.ofLoad (f i)) [] (D i)

variable (answers : Answers I types f D)

include answers

/-- The name of an interface, a count and pairs are read as the completed annotation that they lay
out. -/
lemma makes_readBody {typeName : Chunk} {pairs : List (Chunk × Layout)}
    (few : pairs.length < UInt16.size) (inside : ∀ p ∈ pairs, ReadsLayout I types f D p.2) :
    Makes I (readBody types f (some (readValue types f left)))
      (typeName.bytes ++ (bigEndian 2 pairs.length ++ Layout.pairsBytes pairs))
      (body? types D typeName fun i a => Layout.elements? types D left i pairs a) := by
  refine (makes_readText typeName).bind fun name _ => ?_
  cases found : types.annotation? name with
  | none => exact Makes.throw _ _
  | some interface =>
      refine Makes.known_bind (readsAs_readNumber few) ?_
      refine (makes_readElements _ inside).bind_last fun a => ?_
      split_ifs
      · exact (answers interface (TypeLookup.knows_of_annotation? found)).bind_last
          fun d => Makes.pure _
      · exact Makes.pure a

/-- What a reader makes of the bytes of a layout. -/
theorem makes_readValue {t : Layout} (fits : t.Fits) : ReadsLayout I types f D t := by
  induction fits with
  | word tag payload wide =>
      intro left
      rw [readValue_eq, Layout.bytes, Layout.value?]
      exact makes_tagged (makes_readPayload_word wide)
  | string text =>
      intro left
      rw [readValue_eq, Layout.bytes, Layout.value?]
      exact makes_tagged ((makes_readText text).map Value.string)
  | classRef descriptor =>
      intro left
      rw [readValue_eq, Layout.bytes, Layout.value?]
      exact makes_tagged ((makes_readClass descriptor).map Value.classRef)
  | enum descriptor constant =>
      intro left
      rw [readValue_eq, Layout.bytes, Layout.value?]
      exact makes_tagged ((makes_readEnum descriptor constant).map Value.enum)
  | nested few inside ih =>
      intro left
      rw [readValue_eq, Layout.bytes]
      refine makes_tagged ?_
      cases left with
      | zero =>
          rw [Layout.value?]
          exact Makes.throw _ _
      | succ left =>
          rw [Layout.value?]
          exact (makes_readBody answers few ih).map Value.nested
  | array few inside ih =>
      intro left
      rw [readValue_eq, Layout.bytes]
      refine makes_tagged ?_
      cases left with
      | zero =>
          rw [Layout.value?]
          exact Makes.throw _ _
      | succ left =>
          rw [Layout.value?]
          refine Makes.known_bind (readsAs_readNumber few) ?_
          simpa using (makes_readValues [] ih).map Value.array

/-! ## Whole attributes -/

/-- A layout of an annotation that stands by itself is read as the annotation that it lays out. -/
lemma makes_readTopLevel {t : Layout} (fits : t.Fits) :
    Makes I (readTopLevel types f) t.bytes (t.annotation? types D) := by
  cases fits with
  | nested few inside =>
      rw [Layout.bytes]
      refine Makes.readByte_bind ?_
      rw [if_pos rfl]
      exact makes_readBody answers few fun p hp => makes_readValue answers (inside p hp)
  | word tag payload wide =>
      rw [Layout.bytes]
      refine makes_readTopLevel_of_ne fun same => ?_
      subst same
      cases wide
  | string | classRef | enum | array =>
      rw [Layout.bytes]
      exact makes_readTopLevel_of_ne (by decide)

/-- Several layouts in a row are read as the annotations that they lay out, in order. -/
lemma makes_readAnnotations : ∀ {items : List Layout} (found : List Annotation),
    (∀ t ∈ items, t.Fits) →
    Makes I (readAnnotations (readTopLevel types f) items.length found) (Layout.itemsBytes items)
      ((Layout.annotations? types D items).map (found.reverse ++ ·))
  | [], found, _ => by
      rw [Layout.annotations?, Layout.itemsBytes, Option.map_some, List.append_nil]
      exact Makes.pure _
  | t :: items, found, inside => by
      obtain ⟨first, others⟩ := List.forall_mem_cons.1 inside
      have step := (makes_readTopLevel answers first).bind fun a _ =>
        makes_readAnnotations (a :: found) others
      rw [Layout.annotations?, Layout.itemsBytes, List.length_cons, readAnnotations]
      simpa [Option.map_bind, Function.comp_def] using step

/-- A count and as many layouts are read as the annotations of a member. -/
lemma makes_readMember {items : List Layout} (few : items.length < UInt16.size)
    (inside : ∀ t ∈ items, t.Fits) :
    Makes I (do readAnnotations (readTopLevel types f) (← readLength) [])
      (Layout.memberBytes items) (Layout.annotations? types D items) := by
  refine Makes.known_bind (readsAs_readNumber few) ?_
  simpa using makes_readAnnotations answers [] inside

end DocAnnotations.Attribute

namespace DocAnnotations

open Attribute

/-- The defaults that a loader has with a registry. -/
def Loader.answer? (l : Loader) (base : Registry) (i : Interface) : Option Annotation :=
  returned (l.defaultsFor i base)

/-- Registries that are coherent with the same one give its answers. -/
lemma Loader.answers (l : Loader) (base : Registry) :
    Answers (l.Coherent base) l.types l.defaultsFor (l.answer? base) := by
  intro i known
  rw [Loader.answer?]
  have self := l.coherent_self base
  cases loaded : l.defaultsFor i base with
  | ok d s =>
      intro offset rest r coherent
      obtain ⟨r', ran, coherent'⟩ := defaultsFor_of_coherent known loaded coherent
      exact ⟨r', by simp [Read.ofLoad, ran], coherent'⟩
  | error e s =>
      intro offset rest r coherent
      cases ran : l.defaultsFor i r with
      | ok d r' =>
          have again := follows_defaultsFor known r base ⟨coherent, self⟩
          simp only [ran, loaded] at again
          obtain ⟨_, impossible, -⟩ := again
          cases impossible
      | error e' r' => exact ⟨e', ⟨offset, rest, r'⟩, by simp [Read.ofLoad, ran]⟩

/-- **The order of pairs does not matter.**  The pairs of any annotations in the bytes of an
attribute may be put in another order, at any levels: the bytes are accepted exactly if they were
accepted before, and read as the same value.  This holds with the registry that the first reading
started with, and with all that other readings may have left since then. -/
theorem returned_reordered (l : Loader) {r s : Registry} (coherent : l.Coherent r s) :
    (∀ {t t' : Layout}, t.Fits → t.Reorders t' →
      returned (l.decode t'.bytes s) = returned (l.decode t.bytes r)
      ∧ returned (l.decodeValue t'.bytes s) = returned (l.decodeValue t.bytes r))
    ∧ ∀ {items items' : List Layout}, items.length < UInt16.size → (∀ t ∈ items, t.Fits) →
      List.Forall₂ Layout.Reorders items items' →
      returned (l.decodeMember (Layout.memberBytes items') s)
        = returned (l.decodeMember (Layout.memberBytes items) r) := by
  have answers := l.answers r
  have self := l.coherent_self r
  constructor
  · intro t t' fits reorders
    have fits' := reorders.fits fits
    constructor
    · have before := (makes_readTopLevel answers fits).returned_readAll self
      have after := (makes_readTopLevel answers fits').returned_readAll coherent
      rw [Loader.decode, Loader.decode, before, after, reorders.annotation?_eq]
    · have before := (makes_readValue answers fits nestingLimit).returned_readAll self
      have after := (makes_readValue answers fits' nestingLimit).returned_readAll coherent
      rw [Loader.decodeValue, Loader.decodeValue, before, after, reorders.value?_eq]
  · intro items items' few inside reorders
    have few' := reorders.length_eq ▸ few
    have inside' := Layout.fits_of_forall₂ reorders inside
    have before := (makes_readMember answers few inside).returned_readAll self
    have after := (makes_readMember answers few' inside').returned_readAll coherent
    rw [Loader.decodeMember, Loader.decodeMember, before, after, Layout.annotations?_eq reorders]

/-- A shape at a point, with the pairs of both in one order and in the other.  The keys of the shape
are missing, so their defaults are loaded. -/
theorem returned_reordered_shape :
    let l := sampleIndex.loader ⟨0⟩
    let unit : Chunk × Layout := (⟨[117, 110, 105, 116], by decide⟩,
      .enum ⟨[76, 112, 47, 85, 110, 105, 116, 59], by decide⟩ ⟨[67, 77], by decide⟩)
    let x : Chunk × Layout := (⟨[120], by decide⟩, .word .int [0, 0, 0, 1] rfl)
    let mark : Chunk × Layout := (⟨[109, 97, 114, 107], by decide⟩, .word .char [0, 99] rfl)
    let place (pairs : List (Chunk × Layout)) : Chunk × Layout := (⟨[97, 116], by decide⟩,
      .nested ⟨[112, 46, 80, 111, 105, 110, 116], by decide⟩ pairs)
    let shape (pairs : List (Chunk × Layout)) : Layout :=
      .nested ⟨[112, 46, 83, 104, 97, 112, 101], by decide⟩ pairs
    ∃ a, returned (l.decode (shape [place [unit, x], mark]).bytes .empty) = some a
      ∧ returned (l.decode (shape [mark, place [x, unit]]).bytes .empty) = some a
      ∧ a.contains "keys" = true := by
  intro l unit x mark place shape
  have fits : (shape [place [unit, x], mark]).Fits := by
    have pair : ∀ {p q : Chunk × Layout}, p.2.Fits → q.2.Fits → ∀ r ∈ [p, q], r.2.Fits :=
      fun hp hq => List.forall_mem_cons.2 ⟨hp, List.forall_mem_singleton.2 hq⟩
    exact .nested (by decide) (pair (.nested (by decide) (pair (.enum ..) (.word ..))) (.word ..))
  have inside : (shape [place [unit, x], mark]).Reorders (shape [place [x, unit], mark]) :=
    .insidePair [] [mark] (.pairs (.swap x unit []))
  have reorders := inside.trans (.pairs (.swap mark (place [x, unit]) []))
  have read : (returned (l.decode (shape [place [unit, x], mark]).bytes .empty)).any
      (fun a => a.contains "keys") = true := by
    decide +kernel
  obtain ⟨a, decoded, has⟩ := (Option.any_eq_true _ _).1 read
  have same := ((returned_reordered l (l.coherent_self .empty)).1 fits reorders).1
  exact ⟨a, decoded, same.trans decoded, has⟩

end DocAnnotations
