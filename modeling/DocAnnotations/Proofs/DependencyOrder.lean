import DocAnnotations.Proofs.TypeIndex

/-!
# Dependency order

Interfaces are visited depth first, and each is added behind all that it refers to.

**Visits.**  What a visit keeps is stated once, as `Extended`: the names done stay in an order in
which each follows what it refers to, and no name on the path is added, since visiting it again
closes a cycle.  Visits one after the other extend the names as one visit does (`Extended.trans`),
and a name is added behind its references (`Extended.snoc`).

The number of steps is bounded, and a visit that runs out of them adds nothing.  This never happens:
the names on a path are different, so there are at most as many as there are names at all
(`mem_of_path_full`).

**Loaded indexes.**  **`isDependencyOrder_of_ofSchema`**: the defaults of a loaded index were added
in such an order.
-/

namespace DocAnnotations

open Attribute

/-- An order without repetition in which each name stands behind all names that it refers to. -/
inductive IsDependencyOrder (references : String → List String) : List String → Prop
  | nil : IsDependencyOrder references []
  | snoc {done : List String} {name : String} (before : IsDependencyOrder references done)
      (new : name ∉ done) (behind : ∀ r ∈ references name, r ∈ done) :
      IsDependencyOrder references (done ++ [name])

variable {references : String → List String} {names path done done' done'' : List String}
variable {name : String}

namespace IsDependencyOrder

/-- What stands in front is such an order on its own. -/
lemma front (ordered : IsDependencyOrder references names) :
    ∀ {before after : List String}, names = before ++ after →
      IsDependencyOrder references before := by
  induction ordered with
  | nil =>
      intro before after same
      rw [(List.append_eq_nil_iff.1 same.symm).1]
      exact .nil
  | @snoc done name ordered new behind ih =>
      intro before after same
      rcases List.eq_nil_or_concat after with rfl | ⟨rest, last, rfl⟩
      · rw [← List.append_nil before, ← same]
        exact .snoc ordered new behind
      · rw [List.concat_eq_append, ← List.append_assoc] at same
        exact ih (List.append_inj_left' same rfl)

/-- The last name is new, and stands behind all that it refers to. -/
lemma last (ordered : IsDependencyOrder references (done ++ [name])) :
    name ∉ done ∧ ∀ r ∈ references name, r ∈ done := by
  generalize same : done ++ [name] = names at ordered
  cases ordered with
  | nil => exact absurd same (by simp)
  | snoc before new behind =>
      obtain ⟨rfl, single⟩ := List.append_inj' same rfl
      cases single
      exact ⟨new, behind⟩

/-- All that is referred to is there. -/
lemma closed (ordered : IsDependencyOrder references names) :
    ∀ n ∈ names, ∀ r ∈ references n, r ∈ names := by
  induction ordered with
  | nil => simp
  | snoc before new behind ih =>
      intro n mem r refers
      refine List.mem_append_left _ ?_
      rcases List.mem_append.1 mem with mem | mem
      · exact ih n mem r refers
      · exact behind r (List.mem_singleton.1 mem ▸ refers)

lemma nodup (ordered : IsDependencyOrder references names) : names.Nodup := by
  induction ordered with
  | nil => exact List.nodup_nil
  | snoc before new behind ih =>
      exact List.nodup_append.2 ⟨ih, List.nodup_singleton _, fun a mem b last same =>
        new (List.mem_singleton.1 last ▸ same ▸ mem)⟩

end IsDependencyOrder

/-- What visiting names does to the names done, when `path` led to them. -/
structure Extended (references : String → List String) (path done done' : List String) : Prop where
  ordered : IsDependencyOrder references done → IsDependencyOrder references done'
  keeps : done ⊆ done'
  apart : ∀ n ∈ path, n ∉ done → n ∉ done'

namespace Extended

lemma refl (path done : List String) : Extended references path done done :=
  ⟨id, List.Subset.refl _, fun _ _ => id⟩

/-- One visit after another does to the names done what both do in a row. -/
lemma trans (h : Extended references path done done') (h' : Extended references path done' done'') :
    Extended references path done done'' where
  ordered := h'.ordered ∘ h.ordered
  keeps := List.Subset.trans h.keeps h'.keeps
  apart n hn new := h'.apart n hn (h.apart n hn new)

/-- A name is added when all that it refers to was visited from it. -/
lemma snoc (h : Extended references (name :: path) done done') (new : name ∉ done)
    (free : name ∉ path) (behind : ∀ r ∈ references name, r ∈ done') :
    Extended references path done (done' ++ [name]) where
  ordered ordered := .snoc (h.ordered ordered) (h.apart name List.mem_cons_self new) behind
  keeps := List.Subset.trans h.keeps (List.subset_append_left _ _)
  apart n hn other there := by
    rcases List.mem_append.1 there with there | there
    · exact h.apart n (List.mem_cons_of_mem _ hn) other there
    · exact free (List.mem_singleton.1 there ▸ hn)

end Extended

/-- Several visits in a row. -/
lemma extended_foldlM {visit : List String → String → Except SchemaError (List String)} :
    ∀ {rs done done' : List String},
      (∀ r ∈ rs, ∀ done done', visit done r = .ok done' →
        Extended references path done done' ∧ r ∈ done') →
      rs.foldlM visit done = .ok done' →
      Extended references path done done' ∧ ∀ r ∈ rs, r ∈ done'
  | [], done, done', _, h => by
      cases Except.ok.inj h
      exact ⟨.refl _ _, by simp⟩
  | r :: rs, done, done', visits, h => by
      rw [List.foldlM_cons] at h
      obtain ⟨between, first, rest⟩ := bind_eq_ok_iff.1 h
      obtain ⟨here, there⟩ := visits r List.mem_cons_self done between first
      obtain ⟨after, all⟩ :=
        extended_foldlM (fun s hs => visits s (List.mem_cons_of_mem _ hs)) rest
      exact ⟨here.trans after, List.forall_mem_cons.2 ⟨after.keeps there, all⟩⟩

/-- A path of different names that is as long as there are names has them all. -/
lemma mem_of_path_full (nodup : path.Nodup) (listed : path ⊆ names)
    (long : names.length ≤ path.length) (mem : name ∈ names) : name ∈ path := by
  have perm := (nodup.subperm listed).perm_of_length_le long
  exact perm.mem_iff.2 mem

/-- A visit that succeeds has done its name, and extends what was done. -/
lemma extended_visitInterface (closed : ∀ n ∈ names, ∀ r ∈ references n, r ∈ names) :
    ∀ (bound : Nat) {path done done' : List String} {name : String}, path.Nodup → path ⊆ names →
      names.length ≤ bound + path.length → name ∈ names →
      visitInterface references bound path done name = .ok done' →
      Extended references path done done' ∧ name ∈ done'
  | bound, path, done, done', name, nodup, listed, enough, mem, h => by
      rw [visitInterface.eq_def] at h
      dsimp only at h
      split_ifs at h with there cycle
      · cases Except.ok.inj h
        exact ⟨.refl _ _, List.contains_iff_mem.1 there⟩
      · rw [List.contains_iff_mem] at there cycle
        cases bound with
        | zero => exact absurd (mem_of_path_full nodup listed (by omega) mem) cycle
        | succ bound =>
            obtain ⟨between, visited, h⟩ := bind_eq_ok_iff.1 h
            cases Except.ok.inj h
            have longer : names.length ≤ bound + (name :: path).length := by
              rw [List.length_cons]
              omega
            obtain ⟨extended, behind⟩ := extended_foldlM (fun r hr done done' visit =>
              extended_visitInterface closed bound (List.nodup_cons.2 ⟨cycle, nodup⟩)
                (List.cons_subset.2 ⟨mem, listed⟩) longer (closed name mem r hr) visit) visited
            exact ⟨extended.snoc there cycle behind, by simp⟩

/-- **A dependency order that is found is one**, and has all names. -/
theorem isDependencyOrder_of_ok (closed : ∀ n ∈ names, ∀ r ∈ references n, r ∈ names)
    {order : List String} (h : dependencyOrder references names = .ok order) :
    IsDependencyOrder references order ∧ ∀ n ∈ names, n ∈ order := by
  have visits : ∀ n ∈ names, ∀ done done',
      visitInterface references names.length [] done n = .ok done' →
      Extended references [] done done' ∧ n ∈ done' := fun n hn _ _ visit =>
    extended_visitInterface closed names.length List.nodup_nil (List.nil_subset _) (by simp) hn
      visit
  obtain ⟨extended, all⟩ := extended_foldlM visits h
  exact ⟨extended.ordered .nil, all⟩

/-! ## Loaded indexes -/

variable {schema : Schema} {index : TypeIndex}

/-- An interface refers to a name if one of its elements has a type with the name in it. -/
lemma TypeIndex.mem_references {name r : String} : r ∈ index.references name ↔
    ∃ i, index.annotation? name = some i ∧ ∃ e ∈ i.elements, e.type.referenced? = some r := by
  rw [TypeIndex.references]
  cases index.annotation? name with
  | none => simp
  | some i => simp [Interface.references]

/-- Interfaces refer to interfaces of the same index. -/
lemma TypeIndex.mem_names_of_mem_references (loaded : TypeIndex.ofSchema schema = .ok index)
    {name r : String} (h : r ∈ index.references name) :
    r ∈ index.annotations.map Interface.name := by
  obtain ⟨i, found, e, he, refers⟩ := TypeIndex.mem_references.1 h
  obtain ⟨-, declared⟩ := TypeIndex.element_of_mem loaded (index.mem_of_annotation? found) he
  exact TypeIndex.mem_of_declaresInterface loaded (declared r refers)

/-- The defaults of a loaded index were added in an order in which each interface follows those that
it refers to, and which has all interfaces. -/
theorem isDependencyOrder_of_ofSchema (loaded : TypeIndex.ofSchema schema = .ok index) :
    ∃ order, IsDependencyOrder index.references order ∧
      order.foldlM (addDefaults index.lookup schema.annotations) .empty = .ok index.defaults ∧
      ∀ i ∈ index.annotations, i.name ∈ order := by
  obtain ⟨-, order, -, sorted, added, -⟩ := TypeIndex.ofSchema_ok loaded
  have closed : ∀ n ∈ index.annotations.map Interface.name, ∀ r ∈ index.references n,
      r ∈ index.annotations.map Interface.name :=
    fun _ _ _ => TypeIndex.mem_names_of_mem_references loaded
  obtain ⟨ordered, all⟩ := isDependencyOrder_of_ok closed sorted
  exact ⟨order, ordered, added, fun i mem => all _ (List.mem_map_of_mem mem)⟩

end DocAnnotations
