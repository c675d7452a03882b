import DocAnnotations.Defaults.Loading
import DocAnnotations.Proofs.Attribute.Completion
import DocAnnotations.Proofs.Defaults.Registry

/-!
# What loading keeps

**Partial correctness.**  `Ensures I p P` says that from every state with the invariant `I` the
computation `p` leaves one with it, even when it fails, and that what it returns satisfies `P`.  The
rules follow the steps of a computation, also inside a reading, where the state has the bytes that
are left beside the registry.

**Good defaults.**  A registry `Holds P` for a module when each entry of the module is what the
defaults of its interface should be (`GoodDefaults`): declared elements of the declared types, all
that the source of defaults supplies, and `P` everywhere inside.  On the way an annotation is
`GoodFor` some of the elements.

**`ensures_defaultsFor`** reduces all of this to the single values in the source: if whatever is
read from the bytes of a default satisfies `P`, loading defaults keeps `Holds P`, through any chain
of loads.
-/

namespace DocAnnotations

open Attribute
open Annotation (contains_insert)

/-! ## Partial correctness -/

section

variable {ε ε' σ α β : Type} {I : σ → Prop} {P Q : α → Prop} {p : EStateM ε σ α}

/-- What a computation that succeeds has returned. -/
def returned : EStateM.Result ε σ α → Option α
  | .ok a _ => some a
  | .error _ _ => none

lemma exists_of_returned {x : EStateM.Result ε σ α} {a : α} (h : returned x = some a) :
    ∃ s, x = .ok a s := by
  cases x with
  | ok b s =>
      cases h
      exact ⟨s, rfl⟩
  | error e s => cases h

/-- From a state with the invariant `p` leaves one with it, and returns only values in `P`. -/
def Ensures (I : σ → Prop) (p : EStateM ε σ α) (P : α → Prop) : Prop :=
  ∀ s, I s → match p s with
    | .ok a s' => P a ∧ I s'
    | .error _ s' => I s'

namespace Ensures

/-- From a state with the invariant, what a computation returns is in `P`, and the state left has
the invariant. -/
lemma ok {s s' : σ} {a : α} (h : Ensures I p P) (hs : I s) (hp : p s = .ok a s') : P a ∧ I s' := by
  have := h s hs
  rwa [hp] at this

lemma error {s s' : σ} {e : ε} (h : Ensures I p P) (hs : I s) (hp : p s = .error e s') : I s' := by
  have := h s hs
  rwa [hp] at this

lemma pure {a : α} (h : P a) : Ensures I (pure a : EStateM ε σ α) P := fun _ hs => ⟨h, hs⟩

lemma throw (e : ε) : Ensures I (throw e : EStateM ε σ α) P := fun _ hs => hs

/-- Two computations in a row keep the invariant, if the second does so from each value of the first
that is in `P`. -/
lemma bind {f : α → EStateM ε σ β} {R : β → Prop} (hp : Ensures I p P)
    (hf : ∀ a, P a → Ensures I (f a) R) : Ensures I (p >>= f) R := by
  intro s hs
  simp only [Bind.bind, EStateM.bind]
  cases h : p s with
  | ok a s' =>
      obtain ⟨ha, hs'⟩ := hp.ok hs h
      exact hf a ha s' hs'
  | error e s' => exact hp.error hs h

/-- What is ensured of the values may be replaced by anything that follows from it. -/
lemma weaken (h : Ensures I p P) (imp : ∀ a, P a → Q a) : Ensures I p Q := by
  intro s hs
  cases hp : p s with
  | ok a s' => exact ⟨imp a (h.ok hs hp).1, (h.ok hs hp).2⟩
  | error e s' => exact h.error hs hp

/-- What is said about errors plays no part. -/
lemma adaptExcept (h : Ensures I p P) (f : ε → ε') : Ensures I (p.adaptExcept f) P := by
  intro s hs
  simp only [EStateM.adaptExcept]
  cases hp : p s with
  | ok a s' => exact h.ok hs hp
  | error e s' => exact h.error hs hp

end Ensures

end

/-! ## Readings -/

namespace Ensures

variable {α : Type} {I : Registry → Prop} {P : α → Prop}

/-- Inside a reader, loading keeps of the registry what it keeps outside. -/
lemma ofLoad {q : Load α} (h : Ensures I q P) :
    Ensures (fun s : ReadState => I s.registry) (Read.ofLoad q) P := by
  intro s hs
  simp only [Read.ofLoad]
  cases hq : q s.registry with
  | ok a r => exact h.ok hs hq
  | error e r => exact h.error hs hq

/-- Reading all of some bytes ensures what the reader ensures. -/
lemma readAll {p : Read α} (h : Ensures (fun s : ReadState => I s.registry) p P)
    (bytes : List UInt8) : Ensures I (readAll p bytes) P := by
  intro r hr
  simp only [Attribute.readAll]
  cases hp : p ⟨0, bytes, r⟩ with
  | ok a s =>
      obtain ⟨ha, hs⟩ := h.ok (s := ⟨0, bytes, r⟩) hr hp
      dsimp only
      split_ifs
      · exact ⟨ha, hs⟩
      · exact hs
  | error e s => exact h.error (s := ⟨0, bytes, r⟩) hr hp

end Ensures

/-! ## Good defaults -/

variable {l : Loader} {P : Value → Prop}

/-- Interfaces declare each of their elements once. -/
def TypeLookup.DeclaresOnce (types : TypeLookup) : Prop :=
  ∀ i, types.Knows i → (i.elements.map Element.name).Nodup

/-- The elements of an annotation are declared by an interface, and have values of their declared
types. -/
def Interface.Declares (i : Interface) (p : String × Value) : Prop :=
  ∃ e, i.element? p.1 = some e ∧ p.2.conforms e.type = true

namespace Loader

/-- An annotation with the defaults of some elements of an interface, of those that have one. -/
structure GoodFor (l : Loader) (P : Value → Prop) (i : Interface) (elements : List Element)
    (d : Annotation) : Prop where
  typeName : d.typeName = i.name
  ordered : d.Ordered
  declared : ∀ p ∈ d.elements, i.Declares p
  inside : ∀ p ∈ d.elements, p.2.Everywhere P
  supplied : ∀ e ∈ elements, (l.defaults i.name e.name).isSome → d.contains e.name = true

/-- An annotation that may stand for the defaults of an interface. -/
def GoodDefaults (l : Loader) (P : Value → Prop) (i : Interface) (d : Annotation) : Prop :=
  l.GoodFor P i i.elements d

/-- Every entry of the module is one of good defaults. -/
def Holds (l : Loader) (P : Value → Prop) (r : Registry) : Prop :=
  ∀ i a, l.types.Knows i → r.get? i.name l.token = some a → l.GoodDefaults P i a

/-- The answers to all questions for defaults are good. -/
def AnswersGood (l : Loader) (P : Value → Prop) (f : Interface → Load Annotation) : Prop :=
  ∀ i, l.types.Knows i → Ensures (l.Holds P) (f i) (l.GoodDefaults P i)

/-- What is read from a default satisfies `P` everywhere, whichever good answers are given. -/
def SuppliesGood (l : Loader) (P : Value → Prop) : Prop :=
  ∀ f, l.AnswersGood P f → ∀ interface element bytes, l.defaults interface element = some bytes →
    Ensures (l.Holds P) (readAll (readValue l.types f nestingLimit) bytes) (Value.Everywhere P)

variable {f : Interface → Load Annotation} {i : Interface} {d : Annotation} {r : Registry}

lemma holds_empty : l.Holds P .empty := fun _ _ _ h => by cases h

/-- An annotation without elements is good before any default is asked for. -/
lemma goodFor_empty (i : Interface) : l.GoodFor P i [] (.empty i.name) where
  typeName := rfl
  ordered := Annotation.ordered_empty _
  declared _ hp := by cases hp
  inside _ hp := by cases hp
  supplied _ he := by cases he

/-- An annotation stays good if less is asked of its values. -/
lemma GoodFor.mono {Q : Value → Prop} {elements : List Element} (good : l.GoodFor P i elements d)
    (imp : ∀ v, P v → Q v) : l.GoodFor Q i elements d :=
  ⟨good.typeName, good.ordered, good.declared, fun p hp => (good.inside p hp).mono imp,
    good.supplied⟩

/-- A further element without a default. -/
lemma GoodFor.skip {done : List Element} {e : Element} (good : l.GoodFor P i done d)
    (absent : l.defaults i.name e.name = none) : l.GoodFor P i (done ++ [e]) d where
  typeName := good.typeName
  ordered := good.ordered
  declared := good.declared
  inside := good.inside
  supplied e' he' h := by
    rcases List.mem_append.1 he' with he' | he'
    · exact good.supplied e' he' h
    · rw [List.mem_singleton.1 he', absent] at h
      cases h

/-- A further element with a default. -/
lemma GoodFor.insert {done : List Element} {e : Element} {v : Value}
    (good : l.GoodFor P i done d) (known : i.element? e.name = some e)
    (typed : v.conforms e.type = true) (inside : v.Everywhere P) :
    l.GoodFor P i (done ++ [e]) (d.insert e.name v) where
  typeName := good.typeName
  ordered := good.ordered.insert
  declared p hp := by
    rcases Annotation.mem_insert hp with rfl | hp
    · exact ⟨e, known, typed⟩
    · exact good.declared p hp
  inside p hp := by
    rcases Annotation.mem_insert hp with rfl | hp
    · exact inside
    · exact good.inside p hp
  supplied e' he' h := by
    rw [contains_insert]
    rcases List.mem_append.1 he' with he' | he'
    · exact Or.inr (good.supplied e' he' h)
    · exact Or.inl (by rw [List.mem_singleton.1 he'])

/-- Where the defaults of an interface are read as values in `P`, they are good defaults. -/
lemma ensures_decodeDefaults {J : Registry → Prop}
    (supplies : ∀ element bytes, l.defaults i.name element = some bytes →
      Ensures J (readAll (readValue l.types f nestingLimit) bytes) (Value.Everywhere P))
    (nodup : (i.elements.map Element.name).Nodup) :
    ∀ (rest done : List Element) (d : Annotation), done ++ rest = i.elements →
      l.GoodFor P i done d →
      Ensures J (l.decodeDefaults f i.name rest d) (l.GoodDefaults P i)
  | [], done, d, split, good => by
      rw [List.append_nil] at split
      subst split
      exact Ensures.pure good
  | e :: rest, done, d, split, good => by
      have next : (done ++ [e]) ++ rest = i.elements := by simpa using split
      have known : i.element? e.name = some e :=
        Interface.element?_of_mem nodup (split ▸ by simp)
      rw [decodeDefaults]
      cases h : l.defaults i.name e.name with
      | none => exact ensures_decodeDefaults supplies nodup rest _ d next (good.skip h)
      | some bytes =>
          refine ((supplies e.name bytes h).adaptExcept _).bind fun v inside => ?_
          split_ifs with typed
          · exact ensures_decodeDefaults supplies nodup rest _ _ next
              (good.insert known typed inside)
          · exact Ensures.throw _

/-- A good entry may be added. -/
lemma Holds.insertNew (holds : l.Holds P r) (known : l.types.Knows i)
    (good : l.GoodDefaults P i d) (absent : r.get? i.name l.token = none) :
    l.Holds P (r.insertNew i.name l.token d) := by
  intro j a known' h
  rcases known.get?_insertNew known' absent h with ⟨rfl, rfl⟩ | h
  · exact good
  · exact holds j a known' h

/-- Entries may be removed. -/
lemma Holds.invalidate (holds : l.Holds P r) (name : String) (token : ModuleToken) :
    l.Holds P (r.invalidate name token) :=
  fun i a known h => holds i a known (Registry.get?_of_invalidate h)

/-- Forgetting all defaults of a module leaves a registry with good entries only. -/
lemma Holds.invalidateModule (holds : l.Holds P r) (token : ModuleToken) :
    l.Holds P (r.invalidateModule token) :=
  fun i a known h => holds i a known (Registry.get?_of_invalidateModule h)

/-- Loading through the cache ensures what computing the defaults ensures. -/
lemma ensures_getOrPopulate (known : l.types.Knows i) {compute : Load Annotation}
    (good : Ensures (l.Holds P) compute (l.GoodDefaults P i)) :
    Ensures (l.Holds P) (Registry.getOrPopulate i.name l.token compute) (l.GoodDefaults P i) := by
  intro r holds
  cases h : r.get? i.name l.token with
  | some a =>
      rw [Registry.getOrPopulate_of_present h]
      exact ⟨holds i a known h, holds⟩
  | none =>
      cases hc : compute r with
      | error e r' =>
          rw [Registry.getOrPopulate_of_error h hc]
          exact good.error holds hc
      | ok a r' =>
          obtain ⟨value, holds'⟩ := good.ok holds hc
          rw [Registry.getOrPopulate_of_ok h hc]
          cases h' : r'.get? i.name l.token with
          | some b => exact ⟨holds' i b known h', holds'⟩
          | none => exact ⟨value, holds'.insertNew known value h'⟩

/-- Loading keeps good registries and returns good defaults, at every level; the induction is on the
levels left. -/
lemma ensures_defaultsWithin (once : l.types.DeclaresOnce) (supplies : l.SuppliesGood P) :
    ∀ n : Nat, l.AnswersGood P (l.defaultsWithin n)
  | 0, _, known => ensures_getOrPopulate known (Ensures.throw _)
  | n + 1, i, known => ensures_getOrPopulate known
      (ensures_decodeDefaults
        (supplies _ (ensures_defaultsWithin once supplies n) i.name) (once i known)
        i.elements [] _ rfl (goodFor_empty i))

/-- Loading the defaults of an interface gives good defaults and keeps all entries good. -/
theorem ensures_defaultsFor (once : l.types.DeclaresOnce) (supplies : l.SuppliesGood P) :
    l.AnswersGood P l.defaultsFor :=
  ensures_defaultsWithin once supplies l.types.interfaceNames.length

end Loader

end DocAnnotations
