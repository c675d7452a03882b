import DocAnnotations.Attribute.Decode
import Mathlib.Tactic.Common

/-!
# The registry of defaults

A registry has an entry for a name and a module, and several modules share it.

**Entries.**  The first lemmas say what is found after an entry was added, or after entries were
removed: an entry of its own under its own name and module, and under any other what was found
before.  Two interfaces that a lookup knows are told apart by their names
(`TypeLookup.Knows.eq_of_name`), so entries may be added interface by interface.

**Loading through the cache.**  `getOrPopulate_apply` is what `Registry.getOrPopulate` comes to: the
entry that is there, or else what is computed.  A computation that adds the entry itself, by a load
within the load, is not overwritten (`getOrPopulate_of_ok`).
-/

namespace DocAnnotations

open Attribute

/-- What is found among the entries whose keys were kept. -/
lemma lookup_filter {κ β : Type} [BEq κ] [LawfulBEq κ] (keep : κ → Bool) (k : κ) :
    ∀ entries : List (κ × β), (entries.filter fun e => keep e.1).lookup k
      = if keep k then entries.lookup k else none
  | [] => by simp
  | (j, b) :: entries => by
      have ih := lookup_filter keep k entries
      by_cases same : k = j
      · subst same
        by_cases kept : keep k = true
        · simp [kept]
        · simp [kept, ih]
      · have apart : (k == j) = false := beq_eq_false_iff_ne.2 same
        by_cases kept : keep j = true
        · simp [kept, List.lookup_cons, apart, ih]
        · simp [kept, List.lookup_cons, apart, ih]

namespace Registry

variable {r : Registry} {name other : String} {token : ModuleToken} {a : Annotation}

/-- What is added under a free name and module is found there. -/
lemma get?_insertNew_self (absent : r.get? name token = none) :
    (r.insertNew name token a).get? name token = some a := by
  unfold insertNew
  rw [absent]
  simp [get?]

/-- Adding under one name and module does not change what is found under others. -/
lemma get?_insertNew_of_ne {token' : ModuleToken} (h : (other, token') ≠ (name, token)) :
    (r.insertNew name token a).get? other token' = r.get? other token' := by
  unfold insertNew
  cases r.get? name token with
  | some b => rfl
  | none =>
      have : ((other, token') == (name, token)) = false := beq_eq_false_iff_ne.2 h
      simp [get?, List.lookup_cons, this]

/-- What is found after one interface is forgotten was found before. -/
lemma get?_of_invalidate {interface : String} {module_ : ModuleToken}
    (h : (r.invalidate interface module_).get? name token = some a) :
    r.get? name token = some a := by
  rw [get?, invalidate,
    lookup_filter fun k : String × ModuleToken => k != (interface, module_)] at h
  split_ifs at h
  exact h

lemma get?_of_invalidateModule {module_ : ModuleToken}
    (h : (r.invalidateModule module_).get? name token = some a) :
    r.get? name token = some a := by
  rw [get?, invalidateModule, lookup_filter fun k : String × ModuleToken => k.2 != module_] at h
  split_ifs at h
  exact h

variable {compute : Load Annotation} {r' : Registry} {e : ReadError}

/-- The first thing that is looked at is the entry that there is. -/
lemma getOrPopulate_apply : getOrPopulate name token compute r
    = (match r.get? name token with
      | some a => pure a
      | none => do
        let a ← compute
        match (← get).get? name token with
        | some present => return present
        | none =>
          modify fun r => r.insertNew name token a
          return a : Load Annotation) r :=
  rfl

/-- What the registry has is returned, whatever would be computed. -/
lemma getOrPopulate_of_present (present : r.get? name token = some a) :
    getOrPopulate name token compute r = .ok a r := by
  rw [getOrPopulate_apply, present]
  rfl

/-- Where computing fails, nothing is added to what the computation left. -/
lemma getOrPopulate_of_error (absent : r.get? name token = none)
    (failed : compute r = .error e r') : getOrPopulate name token compute r = .error e r' := by
  rw [getOrPopulate_apply, absent]
  simp only [Bind.bind, EStateM.bind, failed]

/-- What was computed is added, unless the computation itself added something under the name. -/
lemma getOrPopulate_of_ok (absent : r.get? name token = none) (computed : compute r = .ok a r') :
    getOrPopulate name token compute r = match r'.get? name token with
      | some b => .ok b r'
      | none => .ok a (r'.insertNew name token a) := by
  rw [getOrPopulate_apply, absent]
  simp only [Bind.bind, EStateM.bind, computed]
  change (match r'.get? name token with
    | some present => pure present
    | none => do
      modify fun r => r.insertNew name token a
      return a : Load Annotation) r' = _
  cases r'.get? name token with
  | some b => rfl
  | none => rfl

/-- What is known without computing is stored as it is. -/
lemma getOrPopulate_ofExcept (absent : r.get? name token = none) (x : Except ReadError Annotation) :
    getOrPopulate name token (MonadExcept.ofExcept x) r = match x with
      | .ok a => .ok a (r.insertNew name token a)
      | .error e => .error e r := by
  cases x with
  | error e =>
      have failed : (MonadExcept.ofExcept (.error e) : Load Annotation) r = .error e r := rfl
      rw [getOrPopulate_of_error absent failed]
  | ok a =>
      have computed : (MonadExcept.ofExcept (.ok a) : Load Annotation) r = .ok a r := rfl
      rw [getOrPopulate_of_ok absent computed, absent]

end Registry

/-- An interface is the only one of its name. -/
lemma TypeLookup.Knows.eq_of_name {types : TypeLookup} {i j : Interface} (hi : types.Knows i)
    (hj : types.Knows j) (same : j.name = i.name) : j = i := by
  rw [TypeLookup.Knows, same, hi] at hj
  exact (Option.some.inj hj).symm

/-- An entry that is found after one was added is this one or was there before. -/
lemma TypeLookup.Knows.get?_insertNew {types : TypeLookup} {i j : Interface} {r : Registry}
    {token : ModuleToken} {a b : Annotation} (hi : types.Knows i) (hj : types.Knows j)
    (absent : r.get? i.name token = none)
    (h : (r.insertNew i.name token a).get? j.name token = some b) :
    (j = i ∧ b = a) ∨ r.get? j.name token = some b := by
  by_cases same : j.name = i.name
  · have := hi.eq_of_name hj same
    subst this
    rw [Registry.get?_insertNew_self absent] at h
    exact Or.inl ⟨rfl, (Option.some.inj h).symm⟩
  · rw [Registry.get?_insertNew_of_ne (by simp [same])] at h
    exact Or.inr h

end DocAnnotations
