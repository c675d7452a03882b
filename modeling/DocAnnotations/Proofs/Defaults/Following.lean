import DocAnnotations.Defaults.Loading
import Mathlib.Data.Option.Basic
import Mathlib.Tactic.Common

/-!
# Readers that follow one another

A reading touches the registry in one way only: it asks for the defaults of an interface.  So two
readings of the same bytes go the same way as long as they get the same answers.

**The relation.**  `FollowsUpTo E S p q` says that from states related by `S` the computation `q`
comes to whatever `p` comes to, value or error, and leaves related states again.  Only errors of `p`
in `E` count.  With `Follows` the one outcome of `p` that `q` need not share is that too many loads
were under way: such an error is not `Settled`.  Inside readings the states are `Beside` one
another, with the same bytes left.

**Readings that ask.**  **`follows_readValue`** and **`followsUpTo_decodeDefaults`** carry the
relation from the answers to whole readings, for any relation between the two registries.
-/

namespace DocAnnotations.Attribute

/-- An error that does not come from a limit on the loads under way. -/
def ReadError.Settled : ReadError → Prop
  | .recursiveDefault _ => False
  | .invalidDefault _ _ cause => cause.Settled
  | _ => True

variable {ε ε' σ α β : Type} {S : σ → σ → Prop} {R : Registry → Registry → Prop}

/-- From related states `q` comes to whatever `p` comes to, and to a related state.  Errors of `p`
count if they are in `E`. -/
def FollowsUpTo (E : ε → Prop) (S : σ → σ → Prop) (p q : EStateM ε σ α) : Prop :=
  ∀ s t, S s t → match p s with
    | .ok a s' => ∃ t', q t = .ok a t' ∧ S s' t'
    | .error e s' => E e → ∃ t', q t = .error e t' ∧ S s' t'

/-- From related states `q` comes to whatever `p` comes to, and to a related state. -/
def Follows (S : σ → σ → Prop) (p q : EStateM ReadError σ α) : Prop :=
  ∀ s t, S s t → match p s with
    | .ok a s' => ∃ t', q t = .ok a t' ∧ S s' t'
    | .error e s' => e.Settled → ∃ t', q t = .error e t' ∧ S s' t'

/-- Readings at the same place of the same bytes, with related registries. -/
def Beside (R : Registry → Registry → Prop) (s t : ReadState) : Prop :=
  s.offset = t.offset ∧ s.rest = t.rest ∧ R s.registry t.registry

namespace FollowsUpTo

variable {E : ε → Prop} {F : ReadError → Prop}

lemma pure (a : α) : FollowsUpTo E S (pure a) (pure a) := fun _ t h => ⟨t, rfl, h⟩

lemma throw (e : ε) : FollowsUpTo E S (throw e : EStateM ε σ α) (throw e) :=
  fun _ t h _ => ⟨t, rfl, h⟩

/-- Computations in a row follow one another, if the first ones do and, from each value, the second
ones. -/
lemma bind {p q : EStateM ε σ α} {f g : α → EStateM ε σ β}
    (first : FollowsUpTo E S p q) (next : ∀ a, FollowsUpTo E S (f a) (g a)) :
    FollowsUpTo E S (p >>= f) (q >>= g) := by
  intro s t h
  have hp := first s t h
  simp only [Bind.bind, EStateM.bind]
  cases hs : p s with
  | ok a s' =>
      simp only [hs] at hp
      obtain ⟨t', ht, h'⟩ := hp
      simpa only [ht] using next a s' t' h'
  | error e s' =>
      simp only [hs] at hp
      intro settled
      obtain ⟨t', ht, h'⟩ := hp settled
      exact ⟨t', by rw [ht], h'⟩

/-- Loads that follow one another do so inside readers at the same place. -/
lemma ofLoad {p q : Load α} (h : FollowsUpTo F R p q) :
    FollowsUpTo F (Beside R) (Read.ofLoad p) (Read.ofLoad q) := by
  rintro ⟨offset, rest, r⟩ ⟨_, _, r'⟩ ⟨rfl, rfl, related⟩
  have hp := h r r' related
  simp only [Read.ofLoad]
  cases hr : p r with
  | ok a r₁ =>
      simp only [hr] at hp
      obtain ⟨r₂, hq, h'⟩ := hp
      exact ⟨⟨offset, rest, r₂⟩, by rw [hq], rfl, rfl, h'⟩
  | error e r₁ =>
      simp only [hr] at hp
      intro settled
      obtain ⟨r₂, hq, h'⟩ := hp settled
      exact ⟨⟨offset, rest, r₂⟩, by rw [hq], rfl, rfl, h'⟩

/-- Readers that follow one another at the same place do so when they read all of some bytes. -/
lemma readAll {p q : Read α} (h : FollowsUpTo F (Beside R) p q) (bytes : List UInt8) :
    FollowsUpTo F R (readAll p bytes) (readAll q bytes) := by
  intro r t related
  have hp := h ⟨0, bytes, r⟩ ⟨0, bytes, t⟩ ⟨rfl, rfl, related⟩
  simp only [Attribute.readAll]
  cases hs : p ⟨0, bytes, r⟩ with
  | ok a s =>
      simp only [hs] at hp
      obtain ⟨s', hq, -, rest, related⟩ := hp
      rw [hq]
      dsimp only
      rw [← rest]
      split_ifs
      · exact ⟨_, rfl, related⟩
      · exact fun _ => ⟨_, rfl, related⟩
  | error e s =>
      simp only [hs] at hp
      intro settled
      obtain ⟨s', hq, -, -, related⟩ := hp settled
      exact ⟨_, by rw [hq], related⟩

/-- What is made of the errors in `E` is all that counts of what is made of errors. -/
lemma adaptExcept {E' : ε' → Prop} {p q : EStateM ε σ α} {f : ε → ε'} (h : FollowsUpTo E S p q)
    (inside : ∀ e, E' (f e) → E e) :
    FollowsUpTo E' S (p.adaptExcept f) (q.adaptExcept f) := by
  intro s t related
  have hp := h s t related
  simp only [EStateM.adaptExcept]
  cases hs : p s with
  | ok a s' =>
      simp only [hs] at hp
      obtain ⟨t', hq, related⟩ := hp
      exact ⟨t', by rw [hq], related⟩
  | error e s' =>
      simp only [hs] at hp
      intro counts
      obtain ⟨t', hq, related⟩ := hp (inside e counts)
      exact ⟨t', by rw [hq], related⟩

end FollowsUpTo

namespace Follows

/-- Following is following up to the errors that are settled. -/
lemma iff_upTo {p q : EStateM ReadError σ α} :
    Follows S p q ↔ FollowsUpTo ReadError.Settled S p q := by
  refine forall_congr' fun s => forall_congr' fun t => imp_congr_right fun _ => ?_
  cases p s <;> rfl

lemma pure (a : α) : Follows S (pure a) (pure a) := fun _ t h => ⟨t, rfl, h⟩

lemma throw (e : ReadError) : Follows S (throw e : EStateM ReadError σ α) (throw e) :=
  fun _ t h _ => ⟨t, rfl, h⟩

end Follows

/-! ## Readings that ask for nothing -/

variable {E : ReadError → Prop}

lemma follows_currentOffset : FollowsUpTo E (Beside R) currentOffset currentOffset := by
  rintro ⟨offset, rest, r⟩ ⟨_, _, r'⟩ ⟨rfl, rfl, related⟩
  exact ⟨_, rfl, rfl, rfl, related⟩

/-- Taking bytes depends on the place alone, and not on the registry. -/
lemma follows_takeBytes (needed : Nat) :
    FollowsUpTo E (Beside R) (takeBytes needed) (takeBytes needed) := by
  rintro ⟨offset, rest, r⟩ ⟨_, _, r'⟩ ⟨rfl, rfl, related⟩
  by_cases enough : (rest.splitAt needed).1.length = needed
  · rw [takeBytes_of_enough enough, takeBytes_of_enough enough]
    exact ⟨_, rfl, rfl, rfl, related⟩
  · rw [takeBytes_of_not_enough enough, takeBytes_of_not_enough enough]
    exact fun _ => ⟨_, rfl, rfl, rfl, related⟩

lemma follows_readNumber (width : Nat) :
    FollowsUpTo E (Beside R) (readNumber width) (readNumber width) :=
  (follows_takeBytes width).bind fun _ => FollowsUpTo.pure _

lemma follows_readByte : FollowsUpTo E (Beside R) readByte readByte :=
  (follows_readNumber 1).bind fun _ => FollowsUpTo.pure _

lemma follows_readText : FollowsUpTo E (Beside R) readText readText := by
  refine (follows_readNumber 2).bind fun length => ?_
  refine follows_currentOffset.bind fun offset => ?_
  refine (follows_takeBytes length).bind fun bytes => ?_
  cases String.fromUTF8? ⟨bytes.toArray⟩ with
  | some text => exact FollowsUpTo.pure text
  | none => exact FollowsUpTo.throw _

lemma follows_readBoolean : FollowsUpTo E (Beside R) readBoolean readBoolean := by
  refine follows_currentOffset.bind fun offset => ?_
  refine follows_readByte.bind fun b => ?_
  split_ifs
  · exact FollowsUpTo.pure _
  · exact FollowsUpTo.pure _
  · exact FollowsUpTo.throw _

lemma follows_readChar : FollowsUpTo E (Beside R) readChar readChar := by
  refine follows_currentOffset.bind fun offset => ?_
  refine (follows_readNumber 2).bind fun unit => ?_
  split_ifs
  · exact FollowsUpTo.pure _
  · exact FollowsUpTo.throw _

variable {types : TypeLookup}

lemma follows_readClass : FollowsUpTo E (Beside R) (readClass types) (readClass types) := by
  refine follows_readText.bind fun descriptor => ?_
  cases ClassRef.ofDescriptor? descriptor with
  | none => exact FollowsUpTo.throw _
  | some c =>
      dsimp only
      split_ifs
      · exact FollowsUpTo.pure c
      · exact FollowsUpTo.throw _

lemma follows_readEnum : FollowsUpTo E (Beside R) (readEnum types) (readEnum types) := by
  refine follows_readText.bind fun descriptor => ?_
  refine follows_readText.bind fun constant => ?_
  cases objectName? descriptor with
  | none => exact FollowsUpTo.throw _
  | some typeName =>
      dsimp only
      cases types.enumeration? typeName with
      | none => exact FollowsUpTo.throw _
      | some e =>
          dsimp only
          split_ifs
          · exact FollowsUpTo.pure _
          · exact FollowsUpTo.throw _

/-! ## Readings that ask -/

variable {f g : Interface → Load Annotation} {p q : Read Value}

/-- Readers that follow one another do so when they read a counted list of values. -/
lemma follows_readValues (h : FollowsUpTo E (Beside R) p q) :
    ∀ (n : Nat) (found : List Value),
      FollowsUpTo E (Beside R) (readValues p n found) (readValues q n found)
  | 0, _ => FollowsUpTo.pure _
  | n + 1, found => h.bind fun v => follows_readValues h n (v :: found)

/-- Readers that follow one another do so when they read the elements of an annotation. -/
lemma follows_readElements (h : FollowsUpTo E (Beside R) p q) (interface : Interface) :
    ∀ (n : Nat) (a : Annotation),
      FollowsUpTo E (Beside R) (readElements p interface n a) (readElements q interface n a)
  | 0, a => FollowsUpTo.pure a
  | n + 1, a => by
      refine follows_readText.bind fun name => h.bind fun v => ?_
      cases interface.element? name with
      | none => exact FollowsUpTo.throw _
      | some e =>
          dsimp only
          split_ifs
          · exact FollowsUpTo.throw _
          · exact FollowsUpTo.throw _
          · exact follows_readElements h interface n (a.insert name v)

variable {inner inner' : Option (Read Value)}

/-- Reading an annotation follows, if the answers to questions for defaults and the readers of its
values do. -/
lemma follows_readBody (answers : ∀ i, types.Knows i → FollowsUpTo E R (f i) (g i))
    (h : Option.Rel (FollowsUpTo E (Beside R)) inner inner') :
    FollowsUpTo E (Beside R) (readBody types f inner) (readBody types g inner') := by
  cases h with
  | none => exact FollowsUpTo.throw _
  | some h =>
      refine follows_readText.bind fun name => ?_
      cases found : types.annotation? name with
      | none => exact FollowsUpTo.throw _
      | some interface =>
          refine (follows_readNumber 2).bind fun count => ?_
          refine (follows_readElements h interface count _).bind fun a => ?_
          split_ifs
          · exact (answers interface (TypeLookup.knows_of_annotation? found)).ofLoad.bind
              fun d => FollowsUpTo.pure _
          · exact FollowsUpTo.pure a

lemma follows_readArray (h : Option.Rel (FollowsUpTo E (Beside R)) inner inner') :
    FollowsUpTo E (Beside R) (readArray inner) (readArray inner') := by
  cases h with
  | none => exact FollowsUpTo.throw _
  | some h =>
      refine (follows_readNumber 2).bind fun count => ?_
      exact (follows_readValues h count []).bind fun vs => FollowsUpTo.pure _

/-- Behind each tag reading follows, if the answers to questions for defaults and the readers inside
do. -/
lemma follows_readPayload (answers : ∀ i, types.Knows i → FollowsUpTo E R (f i) (g i))
    (h : Option.Rel (FollowsUpTo E (Beside R)) inner inner') (tag : Tag) :
    FollowsUpTo E (Beside R) (readPayload types f inner tag) (readPayload types g inner' tag) := by
  cases tag with
  | byte | short | int | long | float | double =>
      exact (follows_readNumber _).bind fun _ => FollowsUpTo.pure _
  | boolean => exact follows_readBoolean.bind fun _ => FollowsUpTo.pure _
  | char => exact follows_readChar.bind fun _ => FollowsUpTo.pure _
  | string => exact follows_readText.bind fun _ => FollowsUpTo.pure _
  | classRef => exact follows_readClass.bind fun _ => FollowsUpTo.pure _
  | enum => exact follows_readEnum.bind fun _ => FollowsUpTo.pure _
  | nested => exact (follows_readBody answers h).bind fun _ => FollowsUpTo.pure _
  | array => exact follows_readArray h

lemma follows_readValueWith (answers : ∀ i, types.Knows i → FollowsUpTo E R (f i) (g i))
    (h : Option.Rel (FollowsUpTo E (Beside R)) inner inner') :
    FollowsUpTo E (Beside R) (readValueWith types f inner) (readValueWith types g inner') := by
  refine follows_currentOffset.bind fun offset => ?_
  refine follows_readByte.bind fun b => ?_
  cases Tag.ofByte? b with
  | none => exact FollowsUpTo.throw _
  | some tag => exact follows_readPayload answers h tag

/-- Readings of one value with answers that follow one another. -/
theorem follows_readValue (answers : ∀ i, types.Knows i → FollowsUpTo E R (f i) (g i)) :
    ∀ left : Nat, FollowsUpTo E (Beside R) (readValue types f left) (readValue types g left)
  | 0 => follows_readValueWith answers Option.Rel.none
  | left + 1 => follows_readValueWith answers (Option.Rel.some (follows_readValue answers left))

end DocAnnotations.Attribute

namespace DocAnnotations

open Attribute

variable {E : ReadError → Prop} {R : Registry → Registry → Prop} {l : Loader}
  {f g : Interface → Load Annotation}

/-- Loads of the defaults of an interface with answers that follow one another.  An error about a
default counts only if the error inside counts. -/
theorem followsUpTo_decodeDefaults
    (inside : ∀ {interface element e}, E (.invalidDefault interface element e) → E e)
    (answers : ∀ i, l.types.Knows i → FollowsUpTo E R (f i) (g i)) (interface : String) :
    ∀ (elements : List Element) (a : Annotation),
      FollowsUpTo E R (l.decodeDefaults f interface elements a)
        (l.decodeDefaults g interface elements a)
  | [], a => FollowsUpTo.pure a
  | e :: elements, a => by
      rw [Loader.decodeDefaults, Loader.decodeDefaults]
      cases l.defaults interface e.name with
      | none => exact followsUpTo_decodeDefaults inside answers interface elements a
      | some bytes =>
          have read := (follows_readValue answers nestingLimit).readAll bytes
          refine (read.adaptExcept fun _ => inside).bind fun v => ?_
          split_ifs
          · exact followsUpTo_decodeDefaults inside answers interface elements (a.insert e.name v)
          · exact FollowsUpTo.throw _

lemma follows_decodeDefaults (answers : ∀ i, l.types.Knows i → Follows R (f i) (g i))
    (interface : String) (elements : List Element) (a : Annotation) :
    Follows R (l.decodeDefaults f interface elements a)
      (l.decodeDefaults g interface elements a) :=
  Follows.iff_upTo.2 (followsUpTo_decodeDefaults id (fun i known => Follows.iff_upTo.1
    (answers i known)) interface elements a)

end DocAnnotations
