import DocAnnotations.Proofs.Attribute.Encodable
import DocAnnotations.Proofs.Defaults.Ensuring

/-!
# What readers let through

The bytes of an attribute may say anything.  A reader looks up every type that they name, and checks
every element against its declaration when the value of the element has been read.  A property that
all values have which it can put together in this way is one that the loader `Accepts`; it holds of
whatever is read, at every depth and including the defaults that completed it.  One of them is that
all types and elements in a value exist (`Loader.Approves`).

Conformance looks at the name of an annotation inside only.  What is inside that annotation was
checked when it was read itself, which is why the statements are about values everywhere.  An
annotation with as many elements as its interface declares is not completed, because it has them all
(`Loader.GoodFor.of_not_lacks`).

**`ensures_readValue`** is for single values, `ensures_readTopLevel` for annotations.
-/

namespace DocAnnotations

open Attribute
open Annotation (contains)

/-! ## Approved values -/

/-- Whether a character is a code unit that is no half of a surrogate pair. -/
def isSingleUnit (c : Char) : Prop := c.toNat < 0x10000 ∧ ¬ (0xd800 ≤ c.toNat ∧ c.toNat ≤ 0xdfff)

/-- What a loader lets through: classes, enum constants and interfaces that exist, annotations whose
elements are declared, have values of their declared types and are all there if the loader has a
default for them, and characters of one unit. -/
def Loader.Approves (l : Loader) : Value → Prop
  | .char c => isSingleUnit c
  | .classRef c => c.isPrimitive = true ∨ l.types.isClass c.name = true
  | .enum e => ∃ found, l.types.enumeration? e.typeName = some found
    ∧ found.hasConstant e.constant = true
  | .nested a => ∃ i, l.types.annotation? a.typeName = some i ∧ a.Ordered
    ∧ (∀ p ∈ a.elements, i.Declares p)
    ∧ ∀ e ∈ i.elements, (l.defaults i.name e.name).isSome → a.contains e.name = true
  | _ => True

/-- A character below the last plane boundary is one unit, since no character is a surrogate. -/
lemma isSingleUnit_of_lt {c : Char} (small : c.toNat < 0x10000) : isSingleUnit c := by
  refine ⟨small, ?_⟩
  have valid := c.valid
  simp only [UInt32.isValidChar, Nat.isValidChar] at valid
  rintro ⟨low, high⟩
  simp only [Char.toNat] at low high small
  omega

/-- A number of two bytes that is a character at all is one of the basic plane. -/
lemma isSingleUnit_ofNat {unit : Nat} (valid : unit.isValidChar) (small : unit < 0x10000) :
    isSingleUnit (Char.ofNat unit) := by
  have same : (Char.ofNat unit).toNat = unit := by
    rw [Char.ofNat, dif_pos valid]
    rfl
  exact isSingleUnit_of_lt (same.symm ▸ small)

/-! ## Values without values inside -/

/-- What a reader makes of bytes that hold no further values.  Classes and enums come from
descriptors that fit two bytes, as all texts do that are read. -/
inductive TypeLookup.Single (types : TypeLookup) : Value → Prop
  | byte (n : Int8) : types.Single (.byte n)
  | short (n : Int16) : types.Single (.short n)
  | int (n : Int32) : types.Single (.int n)
  | long (n : Int64) : types.Single (.long n)
  | float (bits : UInt32) : types.Single (.float bits)
  | double (bits : UInt64) : types.Single (.double bits)
  | boolean (b : Bool) : types.Single (.boolean b)
  | char {c : Char} (unit : isSingleUnit c) : types.Single (.char c)
  | string {s : String} (fits : FitsText s) : types.Single (.string s)
  | classRef {descriptor : String} {c : ClassRef} (fits : FitsText descriptor)
      (names : ClassRef.ofDescriptor? descriptor = some c)
      (known : c.isPrimitive = true ∨ types.isClass c.name = true) : types.Single (.classRef c)
  | enum {descriptor : String} {e : EnumRef} {found : EnumType} (fits : FitsText descriptor)
      (names : objectName? descriptor = some e.typeName) (short : FitsText e.constant)
      (known : types.enumeration? e.typeName = some found)
      (constant : found.hasConstant e.constant = true) : types.Single (.enum e)

section

variable {J : Registry → Prop} {types : TypeLookup}

/-- A reading that leaves a registry with the invariant and returns only values in `P`. -/
abbrev Reads {α : Type} (J : Registry → Prop) (p : Read α) (P : α → Prop) : Prop :=
  Ensures (fun s : ReadState => J s.registry) p P

/-- The number that some bytes stand for is less than their number allows. -/
lemma ofBigEndian_lt (bytes : List UInt8) : ofBigEndian bytes < 256 ^ bytes.length := by
  have step : ∀ (bytes : List UInt8) (n : Nat),
      bytes.foldl (fun n b => n * 256 + b.toNat) n < (n + 1) * 256 ^ bytes.length := by
    intro bytes
    induction bytes with
    | nil => simp
    | cons b bytes ih =>
        intro n
        have small : b.toNat < 256 := b.toNat_lt
        have next : n * 256 + b.toNat + 1 ≤ (n + 1) * 256 := by omega
        calc (b :: bytes).foldl (fun n b => n * 256 + b.toNat) n
            < (n * 256 + b.toNat + 1) * 256 ^ bytes.length := ih (n * 256 + b.toNat)
          _ ≤ (n + 1) * 256 * 256 ^ bytes.length := Nat.mul_le_mul_right _ next
          _ = (n + 1) * 256 ^ (b :: bytes).length := by
            rw [List.length_cons, Nat.pow_succ, Nat.mul_assoc, Nat.mul_comm 256]
  simpa [ofBigEndian] using step bytes 0

lemma reads_currentOffset : Reads J currentOffset fun _ => True := fun _ h => ⟨trivial, h⟩

lemma reads_takeBytes (needed : Nat) :
    Reads J (takeBytes needed) fun bytes => bytes.length = needed := by
  intro s h
  by_cases enough : (s.rest.splitAt needed).1.length = needed
  · rw [takeBytes_of_enough enough]
    exact ⟨enough, h⟩
  · rw [takeBytes_of_not_enough enough]
    exact h

lemma reads_readNumber (width : Nat) : Reads J (readNumber width) fun n => n < 256 ^ width :=
  (reads_takeBytes width).bind fun bytes length =>
    Ensures.pure (length ▸ ofBigEndian_lt bytes)

lemma reads_readByte : Reads J readByte fun _ => True :=
  (reads_readNumber 1).bind fun _ _ => Ensures.pure trivial

/-- A text that was decoded from some bytes takes that number of bytes. -/
lemma utf8ByteSize_of_fromUTF8? {bytes : List UInt8} {text : String}
    (h : String.fromUTF8? ⟨bytes.toArray⟩ = some text) : text.utf8ByteSize = bytes.length := by
  unfold String.fromUTF8? at h
  split_ifs at h
  cases h
  rfl

/-- The length of a text takes two bytes, so no text that is read is longer than that. -/
lemma reads_readText : Reads J readText FitsText := by
  refine (reads_readNumber 2).bind fun length small => ?_
  refine reads_currentOffset.bind fun offset _ => ?_
  refine (reads_takeBytes length).bind fun bytes size => ?_
  cases decoded : String.fromUTF8? ⟨bytes.toArray⟩ with
  | some text =>
      refine Ensures.pure ?_
      rw [FitsText, utf8ByteSize_of_fromUTF8? decoded, size]
      exact small
  | none => exact Ensures.throw _

lemma reads_readBoolean : Reads J readBoolean fun _ => True := by
  refine reads_currentOffset.bind fun offset _ => ?_
  refine reads_readByte.bind fun b _ => ?_
  split_ifs
  · exact Ensures.pure trivial
  · exact Ensures.pure trivial
  · exact Ensures.throw _

/-- A character is read from two bytes, so that it is one of the basic plane. -/
lemma reads_readChar : Reads J readChar isSingleUnit := by
  refine reads_currentOffset.bind fun offset _ => ?_
  refine (reads_readNumber 2).bind fun unit small => ?_
  split_ifs with valid
  · exact Ensures.pure (isSingleUnit_ofNat valid small)
  · exact Ensures.throw _

/-- A class is read from a descriptor that names it, and only if the index has it or it is
primitive. -/
lemma reads_readClass : Reads J (readClass types) fun c => types.Single (.classRef c) := by
  refine reads_readText.bind fun descriptor fits => ?_
  cases names : ClassRef.ofDescriptor? descriptor with
  | none => exact Ensures.throw _
  | some c =>
      dsimp only
      split_ifs with known
      · exact Ensures.pure (.classRef fits names (Bool.or_eq_true_iff.1 known))
      · exact Ensures.throw _

/-- An enum constant is returned only if the index has the enum and the enum has the constant. -/
lemma reads_readEnum : Reads J (readEnum types) fun e => types.Single (.enum e) := by
  refine reads_readText.bind fun descriptor fits => ?_
  refine reads_readText.bind fun constant short => ?_
  cases names : objectName? descriptor with
  | none => exact Ensures.throw _
  | some typeName =>
      dsimp only
      cases found : types.enumeration? typeName with
      | none => exact Ensures.throw _
      | some e =>
          dsimp only
          split_ifs with known
          · exact Ensures.pure (.enum fits names short found known)
          · exact Ensures.throw _

end

/-! ## Annotations and arrays -/

variable {l : Loader} {P : Value → Prop} {i : Interface} {a d : Annotation}

namespace Loader

/-- A further element that was read. -/
lemma GoodFor.insertRead {e : Element} {name : String} {v : Value} (good : l.GoodFor P i [] a)
    (known : i.element? name = some e) (typed : v.conforms e.type = true)
    (inside : v.Everywhere P) : l.GoodFor P i [] (a.insert name v) where
  typeName := good.typeName
  ordered := good.ordered.insert
  declared p hp := by
    rcases Annotation.mem_insert hp with rfl | hp
    · exact ⟨e, known, typed⟩
    · exact good.declared p hp
  inside p hp := by
    rcases Annotation.mem_insert hp with rfl | hp
    · exact inside
    · exact good.inside p hp
  supplied _ he := by cases he

/-- An annotation with as many elements as its interface declares has them all. -/
lemma GoodFor.contains_all (good : l.GoodFor P i [] a) (enough : ¬ a.Lacks i) :
    ∀ e ∈ i.elements, a.contains e.name = true := by
  refine contains_of_not_lacks good.ordered (fun p hp => ?_) enough
  obtain ⟨e, known, -⟩ := good.declared p hp
  exact ⟨e, Interface.mem_of_element? known⟩

/-- An annotation on the way that lacks nothing is good as the result, with no defaults added. -/
lemma GoodFor.of_not_lacks (good : l.GoodFor P i [] a) (enough : ¬ a.Lacks i) :
    l.GoodDefaults P i a where
  typeName := good.typeName
  ordered := good.ordered
  declared := good.declared
  inside := good.inside
  supplied e he _ := good.contains_all enough e he

/-- Good defaults complete an annotation to one that has all that is supplied. -/
lemma GoodFor.completed (good : l.GoodFor P i [] a) (defaults : l.GoodDefaults P i d) :
    l.GoodDefaults P i (completed a d) where
  typeName := by rw [typeName_completed, good.typeName]
  ordered := ordered_completed good.ordered
  declared p hp := by
    rcases mem_completed hp with hp | hp
    · exact good.declared p hp
    · exact defaults.declared p hp
  inside p hp := by
    rcases mem_completed hp with hp | hp
    · exact good.inside p hp
    · exact defaults.inside p hp
  supplied e he h := by
    have there := defaults.supplied e he h
    rw [contains, get?_completed, Option.isSome_or, Bool.or_eq_true]
    exact Or.inr there

end Loader

/-! ## Accepted properties -/

/-- What readers put together has the property `P`, when `A` holds of the answers to questions for
defaults: values without values inside, arrays, and annotations of declared elements that have them
all or were completed. -/
structure Loader.Accepts (l : Loader) (A : Interface → Annotation → Prop) (P : Value → Prop) :
    Prop where
  single : ∀ {v}, l.types.Single v → P v
  array : ∀ {vs : List Value}, vs.length < UInt16.size → P (.array vs)
  whole : ∀ {a i}, FitsText a.typeName → l.types.annotation? a.typeName = some i →
    l.GoodFor P i [] a → ¬ a.Lacks i → P (.nested a)
  filled : ∀ {a d i}, FitsText a.typeName → l.types.annotation? a.typeName = some i →
    l.GoodFor P i [] a → A i d → l.GoodDefaults P i d → P (.nested (completed a d))

/-- The answers to all questions for defaults are good and have `A`, and keep the registry as it
should be. -/
def Loader.AnswersWith (l : Loader) (J : Registry → Prop) (A : Interface → Annotation → Prop)
    (P : Value → Prop) (f : Interface → Load Annotation) : Prop :=
  ∀ i, l.types.Knows i → Ensures J (f i) fun d => A i d ∧ l.GoodDefaults P i d

variable {A : Interface → Annotation → Prop} {f : Interface → Load Annotation}

lemma Loader.AnswersGood.answersWith (answers : l.AnswersGood P f) :
    l.AnswersWith (l.Holds P) (fun _ _ => True) P f :=
  fun i known => (answers i known).weaken fun _ good => ⟨trivial, good⟩

/-- Whatever readers put together is approved. -/
lemma Loader.accepts_approves (l : Loader) (A : Interface → Annotation → Prop) :
    l.Accepts A l.Approves where
  single h := by
    cases h with
    | char unit => exact unit
    | classRef _ _ known => exact known
    | enum _ _ _ known constant => exact ⟨_, known, constant⟩
    | _ => trivial
  array _ := trivial
  whole _ found good enough :=
    ⟨_, found, good.ordered, good.declared, (good.of_not_lacks enough).supplied⟩
  filled {a d i} _ found good _ defaults := by
    have all := good.completed defaults
    refine ⟨i, ?_, all.ordered, all.declared, all.supplied⟩
    rwa [typeName_completed]

/-! ## Reading -/

variable {J : Registry → Prop} {value : Read Value}

/-- If each value that is read is good, so are all of a list, in which there are as many as were
announced. -/
lemma reads_readValues (h : Reads J value (Value.Everywhere P)) :
    ∀ (n : Nat) (found : List Value), Reads J (readValues value n found) fun vs =>
      vs.length = found.length + n
        ∧ ((∀ v ∈ found, v.Everywhere P) → ∀ v ∈ vs, v.Everywhere P)
  | 0, found => Ensures.pure ⟨List.length_reverse, fun good v hv => good v (List.mem_reverse.1 hv)⟩
  | n + 1, found => h.bind fun v hv =>
      (reads_readValues h n (v :: found)).weaken fun vs ⟨length, items⟩ =>
        ⟨by rw [length, List.length_cons]; omega,
          fun good => items (List.forall_mem_cons.2 ⟨hv, good⟩)⟩

/-- If each value that is read is good, an annotation stays good for its interface with each element
that is added. -/
lemma reads_readElements (h : Reads J value (Value.Everywhere P)) (i : Interface) :
    ∀ (n : Nat) (a : Annotation), l.GoodFor P i [] a →
      Reads J (readElements value i n a) (l.GoodFor P i [])
  | 0, a, good => Ensures.pure good
  | n + 1, a, good => by
      refine reads_readText.bind fun name _ => h.bind fun v inside => ?_
      cases known : i.element? name with
      | none => exact Ensures.throw _
      | some e =>
          dsimp only
          split_ifs with wrong
          · exact Ensures.throw _
          · exact Ensures.throw _
          · have typed : v.conforms e.type = true := by simpa using wrong
            exact reads_readElements h i n _ (good.insertRead known typed inside)

/-- A reader of the values inside, where there is one, returns values in `P`. -/
def InnerReads (J : Registry → Prop) (P : Value → Prop) (inner : Option (Read Value)) : Prop :=
  ∀ value, inner = some value → Reads J value (Value.Everywhere P)

section

variable {inner : Option (Read Value)} (accepts : l.Accepts A P) (answers : l.AnswersWith J A P f)

include accepts answers

/-- An annotation is good at every depth if the values in it are read as good ones, also after its
defaults are added. -/
lemma reads_readBody (h : InnerReads J P inner) :
    Reads J (readBody l.types f inner) fun a => (Value.nested a).Everywhere P := by
  cases inner with
  | none => exact Ensures.throw _
  | some value =>
      refine reads_readText.bind fun name fits => ?_
      cases found : l.types.annotation? name with
      | none => exact Ensures.throw _
      | some i =>
          have known : l.types.Knows i := TypeLookup.knows_of_annotation? found
          have named : i.name = name := l.types.name_of_annotation? found
          have start : l.GoodFor P i [] (.empty name) := named ▸ Loader.goodFor_empty i
          refine (reads_readNumber 2).bind fun count _ => ?_
          refine (reads_readElements (h value rfl) i count _ start).bind fun a good => ?_
          have same : a.typeName = name := good.typeName.trans named
          have fits' : FitsText a.typeName := same ▸ fits
          have found' : l.types.annotation? a.typeName = some i := same ▸ found
          split_ifs with lacks
          · refine (answers i known).ofLoad.bind fun d ⟨answer, defaults⟩ => Ensures.pure ?_
            exact everywhere_nested.2
              ⟨accepts.filled fits' found' good answer defaults, (good.completed defaults).inside⟩
          · exact Ensures.pure
              (everywhere_nested.2 ⟨accepts.whole fits' found' good lacks, good.inside⟩)

/-- Whatever the tag says, the value that is read behind it is good at every depth. -/
lemma reads_readPayload (h : InnerReads J P inner) (tag : Tag) :
    Reads J (readPayload l.types f inner tag) (Value.Everywhere P) := by
  cases tag with
  | byte => exact (reads_readNumber _).bind fun _ _ => Ensures.pure (accepts.single (.byte _))
  | short => exact (reads_readNumber _).bind fun _ _ => Ensures.pure (accepts.single (.short _))
  | int => exact (reads_readNumber _).bind fun _ _ => Ensures.pure (accepts.single (.int _))
  | long => exact (reads_readNumber _).bind fun _ _ => Ensures.pure (accepts.single (.long _))
  | float => exact (reads_readNumber _).bind fun _ _ => Ensures.pure (accepts.single (.float _))
  | double => exact (reads_readNumber _).bind fun _ _ => Ensures.pure (accepts.single (.double _))
  | boolean => exact reads_readBoolean.bind fun _ _ => Ensures.pure (accepts.single (.boolean _))
  | char => exact reads_readChar.bind fun _ unit => Ensures.pure (accepts.single (.char unit))
  | string => exact reads_readText.bind fun _ fits => Ensures.pure (accepts.single (.string fits))
  | classRef => exact reads_readClass.bind fun _ single => Ensures.pure (accepts.single single)
  | enum => exact reads_readEnum.bind fun _ single => Ensures.pure (accepts.single single)
  | nested => exact (reads_readBody accepts answers h).bind fun _ all => Ensures.pure all
  | array =>
      cases inner with
      | none => exact Ensures.throw _
      | some value =>
          refine (reads_readNumber 2).bind fun count small => ?_
          refine (reads_readValues (h value rfl) count []).bind fun vs ⟨length, items⟩ => ?_
          have few : vs.length < UInt16.size := by simpa [length] using small
          exact Ensures.pure (everywhere_array.2 ⟨accepts.array few, items (by simp)⟩)

lemma reads_readValueWith (h : InnerReads J P inner) :
    Reads J (readValueWith l.types f inner) (Value.Everywhere P) := by
  refine reads_currentOffset.bind fun offset _ => ?_
  refine reads_readByte.bind fun b _ => ?_
  cases Tag.ofByte? b with
  | none => exact Ensures.throw _
  | some tag => exact reads_readPayload accepts answers h tag

/-- Whatever the bytes are, a value that is read has an accepted property everywhere. -/
theorem ensures_readValue : ∀ left : Nat,
    Reads J (readValue l.types f left) (Value.Everywhere P)
  | 0 => reads_readValueWith accepts answers fun _ h => by cases h
  | left + 1 => reads_readValueWith accepts answers fun _ h => by
      cases h
      exact ensures_readValue left

/-- Whatever the bytes are, an annotation that is read has an accepted property everywhere. -/
theorem ensures_readTopLevel :
    Reads J (readTopLevel l.types f) fun a => (Value.nested a).Everywhere P := by
  refine reads_readByte.bind fun tag _ => ?_
  split_ifs
  · refine reads_readBody accepts answers fun _ h => ?_
    cases h
    exact ensures_readValue accepts answers _
  · exact Ensures.throw _

end

/-- If each annotation that is read is good, so are all annotations of a member. -/
lemma reads_readAnnotations {item : Read Annotation} {Q : Annotation → Prop}
    (h : Reads J item Q) : ∀ (n : Nat) (found : List Annotation), (∀ a ∈ found, Q a) →
      Reads J (readAnnotations item n found) fun annotations => ∀ a ∈ annotations, Q a
  | 0, _, good => Ensures.pure fun a ha => good a (List.mem_reverse.1 ha)
  | n + 1, found, good => h.bind fun a ha =>
      reads_readAnnotations h n (a :: found) (List.forall_mem_cons.2 ⟨ha, good⟩)

/-! ## Decoding -/

namespace Loader

section

variable (accepts : l.Accepts A P) (answers : l.AnswersWith J A P l.defaultsFor)
  (bytes : List UInt8)

include accepts answers

lemma ensures_decodeValue : Ensures J (l.decodeValue bytes) (Value.Everywhere P) :=
  (ensures_readValue accepts answers nestingLimit).readAll bytes

/-- Whatever bytes an annotation is decoded from, and whatever the registry has, it is good at every
depth. -/
lemma ensures_decode :
    Ensures J (l.decode bytes) fun a => (Value.nested a).Everywhere P :=
  (ensures_readTopLevel accepts answers).readAll bytes

lemma ensures_decodeMember :
    Ensures J (l.decodeMember bytes) fun annotations =>
      ∀ a ∈ annotations, (Value.nested a).Everywhere P := by
  refine Ensures.readAll ((reads_readNumber 2).bind fun count _ => ?_) bytes
  exact reads_readAnnotations (ensures_readTopLevel accepts answers) count [] (by simp)

end

/-- Defaults are read by the same readers, so they supply approved values. -/
lemma answersGood_approves (once : l.types.DeclaresOnce) : l.AnswersGood l.Approves l.defaultsFor :=
  ensures_defaultsFor once fun _ answers _ _ bytes _ =>
    (ensures_readValue (l.accepts_approves _) answers.answersWith nestingLimit).readAll bytes

end Loader

end DocAnnotations
