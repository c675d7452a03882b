import DocAnnotations.Proofs.Attribute.Layout
import DocAnnotations.Proofs.Attribute.Readers
import DocAnnotations.Proofs.Attribute.Reading
import DocAnnotations.Proofs.Attribute.Soundness

/-!
# What is accepted is laid out

Readers decide where the parts of an attribute end before they look at what the parts mean.  So
whatever they accept falls into the parts of a layout.

**The bytes that a reading takes.**  `TakesAs p P` says that the bytes which `p` takes stand in the
relation `P` to what it returns.  It is kept by readers in a row, whose bytes are appended
(`TakesAs.bind`), and holds of each small reader by its definition.

**Values.**  For a value the relation is that the bytes are those of some layout: `TakesLayout`.
`takesLayout_readValue` goes down the levels that are left, so that it holds of arrays and
annotations at any depth.

**`exists_layout_of_decode`**: bytes that decode are the bytes of a layout, so what holds of all
layouts holds of all accepted bytes; `exists_layout_of_decodeValue` and
`exists_layouts_of_decodeMember` are the same for lone values and for members.
-/

namespace DocAnnotations.Attribute

variable {α β : Type}

/-! ## Numbers -/

/-- The number of bytes behind those of another. -/
lemma foldl_ofBigEndian (bytes : List UInt8) : ∀ n : Nat,
    bytes.foldl (fun n b => n * 256 + b.toNat) n
      = n * 256 ^ bytes.length + ofBigEndian bytes := by
  unfold ofBigEndian
  induction bytes with
  | nil => simp
  | cons b bytes ih =>
      intro n
      rw [List.foldl_cons, List.foldl_cons, ih (n * 256 + b.toNat), ih (0 * 256 + b.toNat),
        List.length_cons]
      ring

/-- A leading byte counts by the place that the number of the following bytes gives it. -/
lemma ofBigEndian_cons (b : UInt8) (bytes : List UInt8) :
    ofBigEndian (b :: bytes) = b.toNat * 256 ^ bytes.length + ofBigEndian bytes := by
  rw [ofBigEndian, List.foldl_cons, foldl_ofBigEndian, Nat.zero_mul, Nat.zero_add]

/-- The lower bytes of a number are those that were put behind the others. -/
lemma bigEndian_add_ofBigEndian (bytes : List UInt8) : ∀ n : Nat,
    bigEndian bytes.length (n * 256 ^ bytes.length + ofBigEndian bytes) = bytes := by
  induction bytes with
  | nil => exact fun _ => rfl
  | cons b bytes ih =>
      intro n
      have small := ofBigEndian_lt bytes
      have positive : 0 < 256 ^ bytes.length := Nat.pow_pos (by decide)
      have same : n * 256 ^ (b :: bytes).length + ofBigEndian (b :: bytes)
          = (n * 256 + b.toNat) * 256 ^ bytes.length + ofBigEndian bytes := by
        rw [ofBigEndian_cons, List.length_cons]
        ring
      have first : ((n * 256 + b.toNat) * 256 ^ bytes.length + ofBigEndian bytes)
          / Nat.pow 256 bytes.length = n * 256 + b.toNat := by
        rw [Nat.pow_eq, Nat.mul_comm, Nat.mul_add_div positive, Nat.div_eq_of_lt small,
          Nat.add_zero]
      have top : UInt8.ofNat (n * 256 + b.toNat) = b := by
        simp [UInt8.ofNat_add, UInt8.ofNat_mul]
      rw [same, List.length_cons, bigEndian, first, top, ih]

/-- Writing the number that some bytes stand for, in as many bytes, gives the same bytes back. -/
lemma bigEndian_ofBigEndian (bytes : List UInt8) :
    bigEndian bytes.length (ofBigEndian bytes) = bytes := by
  simpa using bigEndian_add_ofBigEndian bytes 0

/-! ## The bytes that a reading takes -/

/-- A reading that succeeds takes bytes from the front, which stand to its result as `P` says. -/
def TakesAs (p : Read α) (P : α → List UInt8 → Prop) : Prop :=
  ∀ s a s', p s = .ok a s' → ∃ taken, s.rest = taken ++ s'.rest ∧ P a taken

namespace TakesAs

variable {p : Read α} {P Q : α → List UInt8 → Prop}

lemma pure {a : α} (h : P a []) : TakesAs (pure a) P := by
  intro s b s' ran
  cases ran
  exact ⟨[], rfl, h⟩

lemma throw (e : ReadError) : TakesAs (throw e : Read α) P := fun _ _ _ ran => nomatch ran

/-- The bytes of two readers in a row are the bytes of the first followed by those of the second. -/
lemma bind {f : α → Read β} {R : β → List UInt8 → Prop} (first : TakesAs p P)
    (later : ∀ a front, P a front → TakesAs (f a) fun b back => R b (front ++ back)) :
    TakesAs (p >>= f) R := by
  intro s b s'' ran
  obtain ⟨a, s', here, next⟩ := bind_eq_ok.1 ran
  obtain ⟨front, split, taken⟩ := first s a s' here
  obtain ⟨back, split', taken'⟩ := later a front taken s' b s'' next
  exact ⟨front ++ back, by rw [split, split', List.append_assoc], taken'⟩

/-- What is known of the value and its bytes may be replaced by anything that follows from it. -/
lemma weaken (h : TakesAs p P) (implies : ∀ a bytes, P a bytes → Q a bytes) : TakesAs p Q := by
  intro s a s' ran
  obtain ⟨taken, split, holds⟩ := h s a s' ran
  exact ⟨taken, split, implies a taken holds⟩

/-- A last step that only wraps the value. -/
lemma map {R : β → List UInt8 → Prop} (f : α → β) (h : TakesAs p fun a bytes => R (f a) bytes) :
    TakesAs (do return f (← p)) R :=
  h.bind fun a front holds => TakesAs.pure (by rwa [List.append_nil])

/-- A last step that takes no bytes. -/
lemma bind_last {f : α → Read β} {R : List UInt8 → Prop} (first : TakesAs p fun _ => R)
    (later : ∀ a, TakesAs (f a) fun _ back => back = []) : TakesAs (p >>= f) fun _ => R := by
  refine first.bind fun a front holds => (later a).weaken ?_
  rintro b _ rfl
  rwa [List.append_nil]

/-- Reading of defaults takes no bytes of the attribute. -/
lemma ofLoad (q : Load α) : TakesAs (Read.ofLoad q) fun _ bytes => bytes = [] := by
  intro s a s' ran
  obtain ⟨r, -, rfl⟩ := ofLoad_eq_ok.1 ran
  exact ⟨[], rfl, rfl⟩

lemma currentOffset_bind {f : Nat → Read β} {R : β → List UInt8 → Prop}
    (h : ∀ offset, TakesAs (f offset) R) : TakesAs (currentOffset >>= f) R :=
  fun s b s' ran => h s.offset s b s' ran

end TakesAs

/-- Taking some number of bytes takes that number of bytes and returns them. -/
lemma takesAs_takeBytes (needed : Nat) :
    TakesAs (takeBytes needed) fun taken bytes => bytes = taken ∧ bytes.length = needed := by
  intro s a s' ran
  obtain ⟨split, enough, -⟩ := takeBytes_eq_ok ran
  exact ⟨a, split, rfl, enough⟩

/-- A number is taken as its big-endian bytes, and so it is less than its width allows. -/
lemma takesAs_readNumber (width : Nat) :
    TakesAs (readNumber width) fun n bytes => bytes = bigEndian width n ∧ n < 256 ^ width := by
  refine TakesAs.map ofBigEndian ((takesAs_takeBytes width).weaken ?_)
  rintro _ bytes ⟨rfl, rfl⟩
  exact ⟨(bigEndian_ofBigEndian bytes).symm, ofBigEndian_lt bytes⟩

lemma takesAs_readByte : TakesAs readByte fun b bytes => bytes = [b] := by
  refine TakesAs.map UInt8.ofNat ((takesAs_readNumber 1).weaken ?_)
  rintro n _ ⟨rfl, small⟩
  simp [bigEndian]

/-- The bytes of a text are a length and the text itself, a chunk of the layout. -/
lemma takesAs_readText : TakesAs readText fun _ bytes => ∃ c : Chunk, bytes = c.bytes := by
  refine (takesAs_readNumber 2).bind ?_
  rintro length _ ⟨rfl, small⟩
  refine TakesAs.currentOffset_bind fun offset => (takesAs_takeBytes length).bind ?_
  rintro _ bytes ⟨rfl, rfl⟩
  cases String.fromUTF8? ⟨bytes.toArray⟩ with
  | none => exact TakesAs.throw _
  | some text => exact TakesAs.pure ⟨⟨bytes, small⟩, by rw [List.append_nil, Chunk.bytes]⟩

lemma takesAs_readBoolean : TakesAs readBoolean fun _ bytes => bytes.length = 1 := by
  refine TakesAs.currentOffset_bind fun offset => ?_
  refine (takesAs_readByte.weaken fun b bytes single => congrArg List.length single).bind_last ?_
  intro b
  split_ifs
  · exact TakesAs.pure rfl
  · exact TakesAs.pure rfl
  · exact TakesAs.throw _

/-- The bytes of a number are as many as it is wide. -/
lemma takesAs_readNumber_length (width : Nat) :
    TakesAs (readNumber width) fun _ bytes => bytes.length = width := by
  refine (takesAs_readNumber width).weaken ?_
  rintro n _ ⟨rfl, -⟩
  exact length_bigEndian width n

lemma takesAs_readChar : TakesAs readChar fun _ bytes => bytes.length = 2 := by
  refine TakesAs.currentOffset_bind fun offset => ?_
  refine (takesAs_readNumber_length 2).bind_last fun unit => ?_
  split_ifs
  · exact TakesAs.pure rfl
  · exact TakesAs.throw _

variable {types : TypeLookup}

/-- A class takes one chunk, the text of its descriptor. -/
lemma takesAs_readClass :
    TakesAs (readClass types) fun _ bytes => ∃ c : Chunk, bytes = c.bytes := by
  refine takesAs_readText.bind_last fun descriptor => ?_
  cases ClassRef.ofDescriptor? descriptor with
  | none => exact TakesAs.throw _
  | some c =>
      dsimp only
      split_ifs
      · exact TakesAs.pure rfl
      · exact TakesAs.throw _

/-- An enum constant takes two chunks, the descriptor of the enum and the name of the constant. -/
lemma takesAs_readEnum :
    TakesAs (readEnum types) fun _ bytes => ∃ c d : Chunk, bytes = c.bytes ++ d.bytes := by
  refine takesAs_readText.bind ?_
  rintro descriptor _ ⟨c, rfl⟩
  refine (takesAs_readText.weaken ?_).bind_last fun constant => ?_
  · rintro constant _ ⟨d, rfl⟩
    exact ⟨c, d, rfl⟩
  · cases objectName? descriptor with
    | none => exact TakesAs.throw _
    | some typeName =>
        dsimp only
        cases types.enumeration? typeName with
        | none => exact TakesAs.throw _
        | some e =>
            dsimp only
            split_ifs
            · exact TakesAs.pure rfl
            · exact TakesAs.throw _

/-! ## Values -/

variable {f : Interface → Load Annotation}

/-- The bytes that a reading takes are those of a layout. -/
def TakesLayout (p : Read α) : Prop :=
  TakesAs p fun _ bytes => ∃ t : Layout, t.Fits ∧ t.bytes = bytes

/-- If each value takes the bytes of some layout, a counted list of them takes those of as many
layouts. -/
lemma takesAs_readValues {value : Read Value} (inside : TakesLayout value) :
    ∀ (n : Nat) (found : List Value), TakesAs (readValues value n found) fun _ bytes =>
      ∃ items : List Layout, items.length = n ∧ (∀ t ∈ items, t.Fits)
        ∧ Layout.itemsBytes items = bytes
  | 0, found => TakesAs.pure ⟨[], rfl, nofun, rfl⟩
  | n + 1, found => by
      refine inside.bind ?_
      rintro v _ ⟨t, fits, rfl⟩
      refine (takesAs_readValues inside n (v :: found)).weaken ?_
      rintro vs _ ⟨items, rfl, all, rfl⟩
      exact ⟨t :: items, rfl, List.forall_mem_cons.2 ⟨fits, all⟩, by rw [Layout.itemsBytes]⟩

/-- A counted list of elements takes the bytes of as many pairs, of a chunk for the name and a
layout for the value. -/
lemma takesAs_readElements {value : Read Value} (inside : TakesLayout value)
    (interface : Interface) : ∀ (n : Nat) (a : Annotation),
    TakesAs (readElements value interface n a) fun _ bytes =>
      ∃ pairs : List (Chunk × Layout), pairs.length = n ∧ (∀ p ∈ pairs, p.2.Fits)
        ∧ Layout.pairsBytes pairs = bytes
  | 0, a => TakesAs.pure ⟨[], rfl, nofun, rfl⟩
  | n + 1, a => by
      refine takesAs_readText.bind ?_
      rintro text _ ⟨name, rfl⟩
      refine inside.bind ?_
      rintro v _ ⟨t, fits, rfl⟩
      cases interface.element? text with
      | none => exact TakesAs.throw _
      | some e =>
          dsimp only
          split_ifs
          · exact TakesAs.throw _
          · exact TakesAs.throw _
          · refine (takesAs_readElements inside interface n (a.insert text v)).weaken ?_
            rintro b _ ⟨pairs, rfl, all, rfl⟩
            exact ⟨(name, t) :: pairs, rfl, List.forall_mem_cons.2 ⟨fits, all⟩,
              by rw [Layout.pairsBytes]⟩

section

variable {inner : Option (Read Value)} (inside : ∀ value, inner = some value → TakesLayout value)

include inside

/-- Behind a tag stands the rest of a layout. -/
lemma takesAs_readBody : TakesAs (readBody types f inner) fun _ bytes =>
    ∃ t : Layout, t.Fits ∧ t.bytes = tagged .nested bytes := by
  cases inner with
  | none => exact TakesAs.throw _
  | some value =>
      refine takesAs_readText.bind ?_
      rintro text _ ⟨typeName, rfl⟩
      cases types.annotation? text with
      | none => exact TakesAs.throw _
      | some interface =>
          refine (takesAs_readNumber 2).bind ?_
          rintro count _ ⟨rfl, small⟩
          refine ((takesAs_readElements (inside value rfl) interface count _).weaken ?_).bind_last
            fun a => ?_
          · rintro a _ ⟨pairs, rfl, all, rfl⟩
            exact ⟨.nested typeName pairs, .nested small all, by rw [Layout.bytes]⟩
          · split_ifs
            · refine (TakesAs.ofLoad _).bind ?_
              rintro d _ rfl
              exact TakesAs.pure rfl
            · exact TakesAs.pure rfl

lemma takesAs_readArray : TakesAs (readArray inner) fun _ bytes =>
    ∃ t : Layout, t.Fits ∧ t.bytes = tagged .array bytes := by
  cases inner with
  | none => exact TakesAs.throw _
  | some value =>
      refine (takesAs_readNumber 2).bind ?_
      rintro count _ ⟨rfl, small⟩
      refine TakesAs.map Value.array ((takesAs_readValues (inside value rfl) count []).weaken ?_)
      rintro vs _ ⟨items, rfl, all, rfl⟩
      exact ⟨.array items, .array small all, by rw [Layout.bytes]⟩

/-- Behind each tag stand the bytes of a layout with this tag. -/
lemma takesAs_readPayload (tag : Tag) : TakesAs (readPayload types f inner tag) fun _ bytes =>
    ∃ t : Layout, t.Fits ∧ t.bytes = tagged tag bytes := by
  have word : ∀ bytes : List UInt8, tag.width? = some bytes.length →
      ∃ t : Layout, t.Fits ∧ t.bytes = tagged tag bytes :=
    fun bytes wide => ⟨.word tag bytes wide, .word .., by rw [Layout.bytes]⟩
  cases tag with
  | byte | short | int | long | float | double =>
      refine TakesAs.map _ ((takesAs_readNumber_length _).weaken fun n bytes long => word bytes ?_)
      rw [long, Tag.width?]
  | boolean =>
      refine TakesAs.map _ (takesAs_readBoolean.weaken fun n bytes long => word bytes ?_)
      rw [long, Tag.width?]
  | char =>
      refine TakesAs.map _ (takesAs_readChar.weaken fun n bytes long => word bytes ?_)
      rw [long, Tag.width?]
  | string =>
      refine TakesAs.map _ (takesAs_readText.weaken ?_)
      rintro text _ ⟨c, rfl⟩
      exact ⟨.string c, .string c, by rw [Layout.bytes]⟩
  | classRef =>
      refine TakesAs.map _ (takesAs_readClass.weaken ?_)
      rintro text _ ⟨c, rfl⟩
      exact ⟨.classRef c, .classRef c, by rw [Layout.bytes]⟩
  | enum =>
      refine TakesAs.map _ (takesAs_readEnum.weaken ?_)
      rintro text _ ⟨c, d, rfl⟩
      exact ⟨.enum c d, .enum c d, by rw [Layout.bytes]⟩
  | nested => exact TakesAs.map _ (takesAs_readBody inside)
  | array => exact takesAs_readArray inside

/-- A tagged value takes the bytes of a layout, if the values inside it do. -/
lemma takesLayout_readValueWith : TakesLayout (readValueWith types f inner) := by
  refine TakesAs.currentOffset_bind fun offset => takesAs_readByte.bind ?_
  rintro b _ rfl
  cases found : Tag.ofByte? b with
  | none => exact TakesAs.throw _
  | some tag =>
      have same : tag.toByte = b := by simpa using List.find?_some found
      refine (takesAs_readPayload inside tag).weaken ?_
      rintro v bytes ⟨t, fits, taken⟩
      exact ⟨t, fits, by rw [taken, tagged, same, List.singleton_append]⟩

end

/-- The bytes that are taken for a value are those of a layout. -/
theorem takesLayout_readValue : ∀ left : Nat, TakesLayout (readValue types f left)
  | 0 => takesLayout_readValueWith fun _ none => nomatch none
  | left + 1 => takesLayout_readValueWith fun _ same => by
      cases same
      exact takesLayout_readValue left

/-- An annotation that stands by itself takes the bytes of a layout, as a nested one does. -/
lemma takesLayout_readTopLevel : TakesLayout (readTopLevel types f) := by
  refine takesAs_readByte.bind ?_
  rintro tag _ rfl
  split_ifs with nested
  · refine (takesAs_readBody fun value same => ?_).weaken ?_
    · cases same
      exact takesLayout_readValue _
    · rintro a bytes ⟨t, fits, taken⟩
      exact ⟨t, fits, by rw [taken, tagged, nested, List.singleton_append]⟩
  · exact TakesAs.throw _

lemma takesAs_readAnnotations {item : Read Annotation} (inside : TakesLayout item) :
    ∀ (n : Nat) (found : List Annotation),
    TakesAs (readAnnotations item n found) fun _ bytes =>
      ∃ items : List Layout, items.length = n ∧ (∀ t ∈ items, t.Fits)
        ∧ Layout.itemsBytes items = bytes
  | 0, found => TakesAs.pure ⟨[], rfl, nofun, rfl⟩
  | n + 1, found => by
      refine inside.bind ?_
      rintro a _ ⟨t, fits, rfl⟩
      refine (takesAs_readAnnotations inside n (a :: found)).weaken ?_
      rintro annotations _ ⟨items, rfl, all, rfl⟩
      exact ⟨t :: items, rfl, List.forall_mem_cons.2 ⟨fits, all⟩, by rw [Layout.itemsBytes]⟩

/-- The bytes of a member are a count and as many layouts one after the other. -/
lemma takesAs_readMember :
    TakesAs (do readAnnotations (readTopLevel types f) (← readLength) []) fun _ bytes =>
      ∃ items : List Layout, items.length < UInt16.size ∧ (∀ t ∈ items, t.Fits)
        ∧ Layout.memberBytes items = bytes := by
  refine (takesAs_readNumber 2).bind ?_
  rintro count _ ⟨rfl, small⟩
  refine (takesAs_readAnnotations takesLayout_readTopLevel count []).weaken ?_
  rintro annotations _ ⟨items, rfl, all, rfl⟩
  exact ⟨items, small, all, rfl⟩

/-- Where all bytes are read, all of them are taken. -/
lemma TakesAs.of_readAll {p : Read α} {P : α → List UInt8 → Prop} (h : TakesAs p P)
    {bytes : List UInt8} {a : α} {r r' : Registry} (ran : readAll p bytes r = .ok a r') :
    P a bytes := by
  obtain ⟨s, here, empty, -⟩ := readAll_eq_ok.1 ran
  obtain ⟨taken, split, holds⟩ := h _ a s here
  rw [empty, List.append_nil] at split
  rwa [← split] at holds

end DocAnnotations.Attribute

namespace DocAnnotations

open Attribute

variable {l : Loader} {bytes : List UInt8} {r r' : Registry}

/-- Whatever decodes as an annotation is laid out in the format. -/
theorem exists_layout_of_decode {a : Annotation} (ran : l.decode bytes r = .ok a r') :
    ∃ t : Layout, t.Fits ∧ t.bytes = bytes :=
  takesLayout_readTopLevel.of_readAll ran

/-- Whatever decodes as a value is laid out in the format. -/
theorem exists_layout_of_decodeValue {v : Value} (ran : l.decodeValue bytes r = .ok v r') :
    ∃ t : Layout, t.Fits ∧ t.bytes = bytes :=
  (takesLayout_readValue _).of_readAll ran

/-- Whatever decodes as the annotations of a member is laid out in the format. -/
theorem exists_layouts_of_decodeMember {annotations : List Annotation}
    (ran : l.decodeMember bytes r = .ok annotations r') :
    ∃ items : List Layout, items.length < UInt16.size ∧ (∀ t ∈ items, t.Fits)
      ∧ Layout.memberBytes items = bytes :=
  takesAs_readMember.of_readAll ran

end DocAnnotations
