import DocAnnotations.Proofs.Defaults.Following
import DocAnnotations.Proofs.Defaults.Registry
import Mathlib.Data.Finset.Card
import Mathlib.Data.Finset.Dedup

/-!
# The cache of defaults

Which defaults an interface has does not depend on what else was loaded before.  To say so,
`Loader.defaultsFrom` computes the defaults of an interface again and again: it consults one
registry `base` that never changes, and never keeps what it computes.  A registry is `Coherent` with
`base` when it holds what `base` holds, and otherwise only what is computed from `base`.

**`defaultsFor_of_coherent`**: defaults that load when the registry is `base` load with the same
result from every registry that is coherent with it, and leave a coherent registry.

Loading stops when more loads are under way than there are interfaces, and this limit must not show.
It does not, because each further level of `defaultsFrom` settles the defaults of at least one more
interface or of none from then on (`settled_or_grows`).
-/

namespace DocAnnotations

open Attribute

/-! ## Computations that agree -/

variable {α : Type} {p q u : Load α}

/-- Whatever `p` comes to from some registry, `q` comes to from all. -/
def Agrees (p q : Load α) : Prop := Follows (fun _ _ => True) p q

/-- A result that is not the end of too many loads. -/
def Finished {ε σ : Type} (settled : ε → Prop) : EStateM.Result ε σ α → Prop
  | .ok _ _ => True
  | .error e _ => settled e

/-- A computation that never ends because of too many loads. -/
def Settles (p : Load α) : Prop := ∀ r, Finished ReadError.Settled (p r)

namespace Agrees

/-- A value that a computation comes to once is what the other comes to always. -/
lemma ok {a : α} {r r' : Registry} (h : Agrees p q) (hp : p r = .ok a r') :
    Agrees (pure a) q := by
  intro _ t _
  have := h r t trivial
  simp only [hp] at this
  exact this

/-- A settled error that a computation comes to once is what the other fails with always. -/
lemma error {e : ReadError} {r r' : Registry} (h : Agrees p q) (hp : p r = .error e r')
    (settled : e.Settled) (t : Registry) : ∃ t', q t = .error e t' := by
  have := h r t trivial
  simp only [hp] at this
  obtain ⟨t', ht, -⟩ := this settled
  exact ⟨t', ht⟩

lemma pure_at {a : α} (h : Agrees (pure a) q) (t : Registry) : ∃ t', q t = .ok a t' := by
  obtain ⟨t', ht, -⟩ := h .empty t trivial
  exact ⟨t', ht⟩

/-- A computation comes to one value only, if it comes to any from all registries. -/
lemma pure_unique {a b : α} (ha : Agrees (pure a) q) (hb : Agrees (pure b) q) : a = b := by
  obtain ⟨_, ha⟩ := ha.pure_at .empty
  obtain ⟨_, hb⟩ := hb.pure_at .empty
  rw [ha] at hb
  injection hb

lemma trans (hpq : Agrees p q) (hqu : Agrees q u) : Agrees p u := by
  intro r t _
  cases hp : p r with
  | ok a r' =>
      obtain ⟨s, hq⟩ := (hpq.ok hp).pure_at r
      obtain ⟨t', ht⟩ := (hqu.ok hq).pure_at t
      exact ⟨t', ht, trivial⟩
  | error e r' =>
      intro settled
      obtain ⟨s, hq⟩ := hpq.error hp settled r
      obtain ⟨t', ht⟩ := hqu.error hq settled t
      exact ⟨t', ht, trivial⟩

/-- One settled result settles all. -/
lemma settles (h : Agrees p q) {r : Registry} (hr : Finished ReadError.Settled (p r)) :
    Settles q := by
  intro t
  cases hp : p r with
  | ok a r' =>
      obtain ⟨t', ht⟩ := (h.ok hp).pure_at t
      rw [ht]
      trivial
  | error e r' =>
      rw [hp] at hr
      obtain ⟨t', ht⟩ := h.error hp hr t
      rw [ht]
      exact hr

/-- A computation that settles agrees with all that agree with it. -/
lemma symm_of_settles (h : Agrees p q) (settles : Settles p) : Agrees q p := by
  intro r t _
  have finished := settles t
  cases hp : p t with
  | ok a t' =>
      obtain ⟨r', hr⟩ := (h.ok hp).pure_at r
      rw [hr]
      exact ⟨t', rfl, trivial⟩
  | error e t' =>
      rw [hp] at finished
      obtain ⟨r', hr⟩ := h.error hp finished r
      rw [hr]
      exact fun _ => ⟨t', rfl, trivial⟩

end Agrees

/-! ## Defaults without a cache -/

namespace Loader

/-- The defaults of an interface, computed anew where `base` does not have them, with at most the
given number of loads under way. -/
def defaultsFrom (l : Loader) (base : Registry) : Nat → Interface → Load Annotation
  | 0, i => match base.get? i.name l.token with
    | some a => return a
    | none => throw (.recursiveDefault i.name)
  | n + 1, i => match base.get? i.name l.token with
    | some a => return a
    | none => l.decodeDefaults (defaultsFrom l base n) i.name i.elements (.empty i.name)

variable {l : Loader} {base r : Registry} {i : Interface} {a d : Annotation}

/-- What the unchanging registry has is the answer at every level, and nothing is computed. -/
lemma defaultsFrom_of_present (present : base.get? i.name l.token = some a) (n : Nat) :
    l.defaultsFrom base n i = pure a := by
  cases n <;> rw [defaultsFrom, present]

/-- What the unchanging registry lacks is decoded, with one level less for what the decoding asks
for. -/
lemma defaultsFrom_of_absent (absent : base.get? i.name l.token = none) (n : Nat) :
    l.defaultsFrom base (n + 1) i
      = l.decodeDefaults (l.defaultsFrom base n) i.name i.elements (.empty i.name) := by
  rw [defaultsFrom, absent]

/-- A level whose answers agree with those of another agrees with the level above the other. -/
lemma defaultsFrom_succ_agrees {m n : Nat}
    (answers : ∀ i, l.types.Knows i → Agrees (l.defaultsFrom base m i) (l.defaultsFrom base n i))
    (i : Interface) : Agrees (l.defaultsFrom base (m + 1) i) (l.defaultsFrom base (n + 1) i) := by
  cases h : base.get? i.name l.token with
  | some a =>
      rw [defaultsFrom_of_present h, defaultsFrom_of_present h]
      exact Follows.pure a
  | none =>
      rw [defaultsFrom_of_absent h, defaultsFrom_of_absent h]
      exact follows_decodeDefaults answers i.name i.elements _

/-- With more loads allowed nothing that was settled changes. -/
lemma defaultsFrom_agrees_of_le (n : Nat) :
    ∀ {m : Nat}, m ≤ n → ∀ i, Agrees (l.defaultsFrom base m i) (l.defaultsFrom base n i) := by
  induction n with
  | zero =>
      intro m le i
      rw [Nat.le_zero.1 le, defaultsFrom]
      cases base.get? i.name l.token with
      | some a => exact Follows.pure a
      | none => exact Follows.throw _
  | succ n ih =>
      intro m le i
      cases m with
      | zero =>
          rw [defaultsFrom]
          cases h : base.get? i.name l.token with
          | some a =>
              rw [defaultsFrom_of_present h]
              exact Follows.pure a
          | none => exact fun _ _ _ settled => absurd settled id
      | succ m => exact defaultsFrom_succ_agrees (fun i _ => ih (Nat.le_of_succ_le_succ le) i) i

/-- What is computed from `base` does not depend on the registry it is computed in. -/
lemma defaultsFrom_agrees_self (n : Nat) (i : Interface) :
    Agrees (l.defaultsFrom base n i) (l.defaultsFrom base n i) :=
  defaultsFrom_agrees_of_le n le_rfl i

/-! ## The limit -/

/-- One more load makes no difference. -/
def Stable (l : Loader) (base : Registry) (n : Nat) : Prop :=
  ∀ i, l.types.Knows i → Agrees (l.defaultsFrom base (n + 1) i) (l.defaultsFrom base n i)

section

open Classical

/-- The interfaces whose defaults are settled with a number of loads. -/
noncomputable def settledNames (l : Loader) (base : Registry) (n : Nat) : Finset String :=
  l.types.interfaceNames.toFinset.filter fun name =>
    ∃ i, l.types.annotation? name = some i ∧ Settles (l.defaultsFrom base n i)

/-- An interface is among those settled at a level if and only if computing its defaults there never
runs out of levels. -/
lemma mem_settledNames (known : l.types.Knows i) (n : Nat) :
    i.name ∈ l.settledNames base n ↔ Settles (l.defaultsFrom base n i) := by
  rw [settledNames, Finset.mem_filter, List.mem_toFinset]
  constructor
  · rintro ⟨-, j, hj, settles⟩
    rw [known] at hj
    cases hj
    exact settles
  · exact fun settles => ⟨l.types.mem_interfaceNames known, i, known, settles⟩

/-- There are at most as many settled names as there are interfaces. -/
lemma card_settledNames_le (n : Nat) :
    (l.settledNames base n).card ≤ l.types.interfaceNames.length :=
  (Finset.card_filter_le _ _).trans (List.toFinset_card_le _)

/-- What is settled at a level is settled at the next. -/
lemma settledNames_mono (n : Nat) : l.settledNames base n ⊆ l.settledNames base (n + 1) := by
  intro name h
  obtain ⟨-, i, hi, -⟩ := Finset.mem_filter.1 h
  have named := l.types.name_of_annotation? hi
  have known := TypeLookup.knows_of_annotation? hi
  subst named
  have settles := (mem_settledNames known n).1 h
  have agrees : Agrees (l.defaultsFrom base n i) (l.defaultsFrom base (n + 1) i) :=
    defaultsFrom_agrees_of_le (n + 1) (Nat.le_succ n) i
  exact (mem_settledNames known (n + 1)).2 (agrees.settles (settles .empty))

/-- A load that settles nothing new makes no difference. -/
lemma stable_of_eq {n : Nat} (same : l.settledNames base n = l.settledNames base (n + 1)) :
    l.Stable base n := by
  intro i known r t _
  by_cases finished : Finished ReadError.Settled (l.defaultsFrom base (n + 1) i r)
  · have settles := (defaultsFrom_agrees_self (n + 1) i).settles finished
    have before := (mem_settledNames known n).1
      (same ▸ (mem_settledNames known (n + 1)).2 settles)
    have up : Agrees (l.defaultsFrom base n i) (l.defaultsFrom base (n + 1) i) :=
      defaultsFrom_agrees_of_le (n + 1) (Nat.le_succ n) i
    exact up.symm_of_settles before r t trivial
  · cases h : l.defaultsFrom base (n + 1) i r with
    | ok a r' =>
        rw [h] at finished
        exact absurd trivial finished
    | error e r' =>
        rw [h] at finished
        exact fun settled => absurd settled finished

/-- Each further load settles the defaults of one more interface, unless no load makes a difference
any more. -/
lemma settled_or_grows (n : Nat) :
    l.Stable base n ∨ n < (l.settledNames base (n + 1)).card := by
  induction n with
  | zero =>
      by_cases same : l.settledNames base 0 = l.settledNames base 1
      · exact Or.inl (stable_of_eq same)
      · exact Or.inr (Nat.zero_lt_of_lt
          (Finset.card_lt_card ((settledNames_mono 0).ssubset_of_ne same)))
  | succ n ih =>
      rcases ih with stable | grows
      · exact Or.inl fun i _ => defaultsFrom_succ_agrees stable i
      · by_cases same : l.settledNames base (n + 1) = l.settledNames base (n + 2)
        · exact Or.inl (stable_of_eq same)
        · have more := Finset.card_lt_card ((settledNames_mono (n + 1)).ssubset_of_ne same)
          exact Or.inr (by omega)

end

/-- As many loads as there are interfaces are enough. -/
lemma stable_length : l.Stable base l.types.interfaceNames.length := by
  rcases settled_or_grows l.types.interfaceNames.length with stable | grows
  · exact stable
  · exact absurd (card_settledNames_le _) (Nat.not_le_of_lt grows)

/-! ## Coherent registries -/

/-- The defaults of an interface as `base` determines them. -/
def settledDefaults (l : Loader) (base : Registry) : Interface → Load Annotation :=
  l.defaultsFrom base l.types.interfaceNames.length

/-- A registry that has what `base` has, and nothing but what is computed from it.  Entries of other
modules do not count. -/
structure Coherent (l : Loader) (base r : Registry) : Prop where
  keeps : ∀ {i a}, l.types.Knows i → base.get? i.name l.token = some a →
    r.get? i.name l.token = some a
  entries : ∀ {i a}, l.types.Knows i → r.get? i.name l.token = some a →
    Agrees (pure a) (l.settledDefaults base i)

/-- A registry is coherent with itself, since all that it has stands in the base. -/
lemma coherent_self (l : Loader) (base : Registry) : l.Coherent base base where
  keeps _ h := h
  entries _ h := by
    rw [settledDefaults, defaultsFrom_of_present h]
    exact Follows.pure _

namespace Coherent

lemma absent (coherent : l.Coherent base r) (known : l.types.Knows i)
    (h : r.get? i.name l.token = none) : base.get? i.name l.token = none := by
  cases hb : base.get? i.name l.token with
  | none => rfl
  | some a => rw [coherent.keeps known hb] at h; cases h

/-- Adding what is computed from the base leaves a coherent registry. -/
lemma insertNew (coherent : l.Coherent base r) (known : l.types.Knows i)
    (value : Agrees (pure a) (l.settledDefaults base i)) (h : r.get? i.name l.token = none) :
    l.Coherent base (r.insertNew i.name l.token a) where
  keeps := by
    intro j b known' hb
    have there := coherent.keeps known' hb
    rwa [Registry.get?_insertNew_of_ne]
    intro same
    rw [Prod.mk.injEq] at same
    rw [same.1, h] at there
    cases there
  entries := by
    intro j b known' hb
    rcases known.get?_insertNew known' h hb with ⟨rfl, rfl⟩ | hb
    · exact value
    · exact coherent.entries known' hb

/-- Storing what was computed gives back what was computed. -/
lemma populate (known : l.types.Knows i) {compute : Load Annotation} {r' : Registry}
    (absent : r.get? i.name l.token = none) (computed : compute r = .ok a r')
    (coherent : l.Coherent base r') (value : Agrees (pure a) (l.settledDefaults base i)) :
    ∃ r'', Registry.getOrPopulate i.name l.token compute r = .ok a r''
      ∧ l.Coherent base r'' := by
  rw [Registry.getOrPopulate_of_ok absent computed]
  cases h : r'.get? i.name l.token with
  | some b =>
      have same := value.pure_unique (coherent.entries known h)
      exact ⟨r', by rw [same], coherent⟩
  | none => exact ⟨_, rfl, coherent.insertNew known value h⟩

end Coherent

/-! ## Loading through the cache -/

/-- Defaults that the registry has are returned from it, and it stays as it was. -/
lemma defaultsWithin_of_present (h : r.get? i.name l.token = some a) (n : Nat) :
    l.defaultsWithin n i r = .ok a r := by
  cases n <;> rw [defaultsWithin, Registry.getOrPopulate_of_present h]

/-- With no load left, defaults that the registry lacks are taken for recursive. -/
lemma defaultsWithin_zero_of_absent (h : r.get? i.name l.token = none) :
    l.defaultsWithin 0 i r = .error (.recursiveDefault i.name) r := by
  have failed : (throw (.recursiveDefault i.name) : Load Annotation) r
      = .error (.recursiveDefault i.name) r := rfl
  rw [defaultsWithin, Registry.getOrPopulate_of_error h failed]

/-- What loads through a coherent cache is computed without it. -/
lemma defaultsWithin_follows (n : Nat) : ∀ i, l.types.Knows i →
    Follows (fun r _ => l.Coherent base r) (l.defaultsWithin n i) (l.settledDefaults base i) := by
  induction n with
  | zero =>
      intro i known r t coherent
      cases h : r.get? i.name l.token with
      | some a =>
          rw [defaultsWithin_of_present h]
          obtain ⟨t', ht⟩ := (coherent.entries known h).pure_at t
          exact ⟨t', ht, coherent⟩
      | none =>
          rw [defaultsWithin_zero_of_absent h]
          exact fun settled => absurd settled id
  | succ n ih =>
      intro i known r t coherent
      cases h : r.get? i.name l.token with
      | some a =>
          rw [defaultsWithin_of_present h]
          obtain ⟨t', ht⟩ := (coherent.entries known h).pure_at t
          exact ⟨t', ht, coherent⟩
      | none =>
          have compute := follows_decodeDefaults ih i.name i.elements (.empty i.name) r t coherent
          have level := defaultsFrom_of_absent (coherent.absent known h)
            l.types.interfaceNames.length
          have stable : l.Stable base l.types.interfaceNames.length := stable_length
          have down := stable i known
          rw [level] at down
          rw [defaultsWithin]
          cases hc : l.decodeDefaults (l.defaultsWithin n) i.name i.elements (.empty i.name) r with
          | ok a r' =>
              simp only [hc] at compute
              obtain ⟨t₁, ht₁, coherent'⟩ := compute
              have value := down.ok ht₁
              obtain ⟨r'', hr'', coherent''⟩ := coherent'.populate known h hc value
              obtain ⟨t', ht'⟩ := value.pure_at t
              rw [hr'']
              exact ⟨t', ht', coherent''⟩
          | error e r' =>
              rw [Registry.getOrPopulate_of_error h hc]
              simp only [hc] at compute
              intro settled
              obtain ⟨t₁, ht₁, coherent'⟩ := compute settled
              obtain ⟨t', ht'⟩ := down.error ht₁ settled t
              exact ⟨t', ht', coherent'⟩

/-- What is computed without a cache loads through a coherent one. -/
lemma follows_defaultsWithin (n : Nat) : n ≤ l.types.interfaceNames.length → ∀ i,
    l.types.Knows i → Follows (fun _ r => l.Coherent base r) (l.defaultsFrom base n i)
      (l.defaultsWithin n i) := by
  induction n with
  | zero =>
      intro _ i known t r coherent
      cases h : base.get? i.name l.token with
      | some a =>
          rw [defaultsFrom_of_present h, defaultsWithin_of_present (coherent.keeps known h)]
          exact ⟨r, rfl, coherent⟩
      | none =>
          rw [defaultsFrom, h]
          exact fun settled => absurd settled id
  | succ n ih =>
      intro few i known t r coherent
      have up : Agrees (l.defaultsFrom base (n + 1) i) (l.settledDefaults base i) :=
        defaultsFrom_agrees_of_le _ few i
      cases h : r.get? i.name l.token with
      | some b =>
          rw [defaultsWithin_of_present h]
          have entry := coherent.entries known h
          cases hd : l.defaultsFrom base (n + 1) i t with
          | ok a t' => exact ⟨r, by rw [entry.pure_unique (up.ok hd)], coherent⟩
          | error e t' =>
              intro settled
              obtain ⟨_, failed⟩ := up.error hd settled t
              obtain ⟨_, loaded⟩ := entry.pure_at t
              rw [failed] at loaded
              cases loaded
      | none =>
          have level := defaultsFrom_of_absent (coherent.absent known h) n
          have compute := follows_decodeDefaults (ih (Nat.le_of_succ_le few)) i.name i.elements
            (.empty i.name) t r coherent
          rw [← level] at compute
          rw [defaultsWithin]
          cases hd : l.defaultsFrom base (n + 1) i t with
          | ok a t' =>
              simp only [hd] at compute
              obtain ⟨r', hc, coherent'⟩ := compute
              exact coherent'.populate known h hc (up.ok hd)
          | error e t' =>
              simp only [hd] at compute
              intro settled
              obtain ⟨r', hc, coherent'⟩ := compute settled
              exact ⟨r', Registry.getOrPopulate_of_error h hc, coherent'⟩

/-- Defaults that load with one registry load with every registry that is coherent with it. -/
theorem defaultsFor_of_coherent {r₀ : Registry} (known : l.types.Knows i)
    (loaded : l.defaultsFor i base = .ok d r₀) (coherent : l.Coherent base r) :
    ∃ r', l.defaultsFor i r = .ok d r' ∧ l.Coherent base r' := by
  have down := defaultsWithin_follows l.types.interfaceNames.length i known base base
    (coherent_self l base)
  rw [defaultsFor] at loaded
  simp only [loaded] at down
  obtain ⟨t, ht, -⟩ := down
  have up := follows_defaultsWithin l.types.interfaceNames.length le_rfl i known base r coherent
  rw [settledDefaults] at ht
  simp only [ht] at up
  exact up

end Loader

end DocAnnotations
