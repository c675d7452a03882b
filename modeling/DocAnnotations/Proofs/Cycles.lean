import DocAnnotations.Proofs.DependencyOrder
import Mathlib.Data.List.Chain
import Mathlib.Logic.Relation

/-!
# Cycles of references

A depth-first search either puts all interfaces into a dependency order or comes back to a name on
its own path.  `Visits` is the search as a relation, without any bound on its steps: it has a
derivation only where the search ends, and at most one result (`Visits.unique`).

The names on a path are different, so a search never goes deeper than there are names; the bound of
`dependencyOrder` is therefore never reached, and what it finds is what the search comes to, for
every graph (`visits_dependencyOrder`).  The path leads from reference to reference all the time, so
what is reported when the search fails is a walk that closes (`Visits.isLasso`).

**`ordered_or_cyclic`** puts this together: interfaces have a dependency order if and only if no
interface contains itself.
-/

namespace DocAnnotations

variable {references : String → List String} {path done todo names : List String}
  {name : String} {x y : Except SchemaError (List String)}

/-! ## The search -/

/-- What becomes of the names done when several names are visited in a row.  `path` leads to these
names, its last step first. -/
inductive Visits (references : String → List String) :
    List String → List String → List String → Except SchemaError (List String) → Prop
  | nothing {path done : List String} : Visits references path done [] (.ok done)
  | again {path done todo : List String} {name : String} {x : Except SchemaError (List String)}
      (there : name ∈ done) (more : Visits references path done todo x) :
      Visits references path done (name :: todo) x
  | closes {path done todo : List String} {name : String} (new : name ∉ done)
      (passed : name ∈ path) :
      Visits references path done (name :: todo) (.error (.cyclicTypes (name :: path).reverse))
  | fails {path done todo : List String} {name : String} {e : SchemaError} (new : name ∉ done)
      (free : name ∉ path) (inside : Visits references (name :: path) done (references name)
        (.error e)) : Visits references path done (name :: todo) (.error e)
  | adds {path done todo done' : List String} {name : String}
      {x : Except SchemaError (List String)} (new : name ∉ done) (free : name ∉ path)
      (inside : Visits references (name :: path) done (references name) (.ok done'))
      (more : Visits references path (done' ++ [name]) todo x) :
      Visits references path done (name :: todo) x

namespace Visits

/-- A search has one result. -/
lemma unique (h : Visits references path done todo x) (h' : Visits references path done todo y) :
    x = y := by
  induction h generalizing y with
  | nothing =>
      cases h'
      rfl
  | again there more ih =>
      cases h' with
      | again _ more' => exact ih more'
      | closes new => exact absurd there new
      | fails new => exact absurd there new
      | adds new => exact absurd there new
  | closes new passed =>
      cases h' with
      | again there => exact absurd there new
      | closes => rfl
      | fails _ free => exact absurd passed free
      | adds _ free => exact absurd passed free
  | fails new free inside ih =>
      cases h' with
      | again there => exact absurd there new
      | closes _ passed => exact absurd passed free
      | fails _ _ inside' => exact ih inside'
      | adds _ _ inside' => cases ih inside'
  | adds new free inside more ih ih' =>
      cases h' with
      | again there => exact absurd there new
      | closes _ passed => exact absurd passed free
      | fails _ _ inside' => cases ih inside'
      | adds _ _ inside' more' =>
          cases ih inside'
          exact ih' more'

/-- A search adds no names but those that it can come to. -/
lemma subset (closed : ∀ n ∈ names, ∀ r ∈ references n, r ∈ names)
    (h : Visits references path done todo x) (listed : done ⊆ names) (mem : todo ⊆ names) :
    ∀ done', x = .ok done' → done' ⊆ names := by
  induction h with
  | nothing =>
      rintro _ ⟨⟩
      exact listed
  | again there more ih => exact ih listed (List.cons_subset.1 mem).2
  | closes => rintro _ ⟨⟩
  | fails => rintro _ ⟨⟩
  | adds new free inside more ih ih' =>
      obtain ⟨here, later⟩ := List.cons_subset.1 mem
      refine ih' (List.append_subset.2 ⟨?_, List.cons_subset.2 ⟨here, List.nil_subset _⟩⟩) later
      exact ih listed (fun r => closed _ here r) _ rfl

end Visits

/-! ## The bound -/

/-- A visit with a bound in front of further visits.  It is what the search comes to if the bound is
not reached, and if this holds of the visits from the name. -/
lemma visits_cons {bound : Nat} {f : List String → Except SchemaError (List String)}
    (full : bound = 0 → name ∈ path)
    (inside : ∀ b, bound = b + 1 → name ∉ path →
      Visits references (name :: path) done (references name) ((references name).foldlM
        (fun done r => visitInterface references b (name :: path) done r) done))
    (later : ∀ done, Visits references path done todo (f done)) :
    Visits references path done (name :: todo)
      (visitInterface references bound path done name >>= f) := by
  rw [visitInterface.eq_def]
  dsimp only
  split_ifs with there passed
  · exact .again (List.contains_iff_mem.1 there) (later done)
  · rw [List.contains_iff_mem] at there passed
    exact .closes there passed
  · rw [List.contains_iff_mem] at there passed
    cases bound with
    | zero => exact absurd (full rfl) passed
    | succ b =>
        have search := inside b rfl passed
        dsimp only
        cases ran : (references name).foldlM
          (fun done r => visitInterface references b (name :: path) done r) done with
        | error e =>
            rw [ran] at search
            exact .fails there passed search
        | ok done' =>
            rw [ran] at search
            exact .adds there passed search (later _)

/-- With as many steps as there are names that are not on the path, visits are what the search comes
to. -/
lemma visits_foldlM (closed : ∀ n ∈ names, ∀ r ∈ references n, r ∈ names) (bound : Nat) :
    ∀ {path : List String}, path.Nodup → path ⊆ names → names.length ≤ bound + path.length →
      ∀ {todo : List String}, todo ⊆ names → ∀ done, Visits references path done todo
        (todo.foldlM (fun done r => visitInterface references bound path done r) done) := by
  induction bound with
  | zero =>
      intro path nodup listed enough todo
      induction todo with
      | nil => exact fun _ _ => .nothing
      | cons name todo ih =>
          intro mem done
          obtain ⟨here, later⟩ := List.cons_subset.1 mem
          have full : name ∈ path := mem_of_path_full nodup listed (by omega) here
          exact visits_cons (fun _ => full) (fun _ zero => nomatch zero) (ih later)
  | succ bound inside =>
      intro path nodup listed enough todo
      induction todo with
      | nil => exact fun _ _ => .nothing
      | cons name todo ih =>
          intro mem done
          obtain ⟨here, later⟩ := List.cons_subset.1 mem
          have longer : names.length ≤ bound + (name :: path).length := by
            rw [List.length_cons]
            omega
          refine visits_cons (fun zero => nomatch zero) (fun b same free => ?_) (ih later)
          cases same
          exact inside (List.nodup_cons.2 ⟨free, nodup⟩) (List.cons_subset.2 ⟨here, listed⟩)
            longer (closed name here) done

/-- **The search ends**, and what it comes to is what `dependencyOrder` finds. -/
theorem visits_dependencyOrder (closed : ∀ n ∈ names, ∀ r ∈ references n, r ∈ names) :
    Visits references [] [] names (dependencyOrder references names) :=
  visits_foldlM closed names.length List.nodup_nil (List.nil_subset _) (by simp)
    (List.Subset.refl _) []

/-! ## Walks -/

/-- One name refers to another. -/
def Refers (references : String → List String) (a b : String) : Prop := b ∈ references a

/-- A walk from reference to reference that ends at a name which it has passed before. -/
structure IsLasso (references : String → List String) (walk : List String) : Prop where
  steps : walk.IsChain (Refers references)
  closes : ∃ front last, walk = front ++ [last] ∧ last ∈ front

/-- A path, its last step first, that a further step to a given name continues. -/
def LeadsTo (references : String → List String) (path : List String) (name : String) : Prop :=
  (name :: path).IsChain (flip (Refers references))

/-- A path that leads to a name leads on to what the name refers to. -/
lemma LeadsTo.step (h : LeadsTo references path name) {r : String} (refers : r ∈ references name) :
    LeadsTo references (name :: path) r :=
  List.isChain_cons_cons.2 ⟨refers, h⟩

/-- What a search reports when it fails is a walk that closes. -/
lemma Visits.isLasso (h : Visits references path done todo x)
    (leads : ∀ name ∈ todo, LeadsTo references path name) :
    ∀ e, x = .error e → ∃ walk, e = .cyclicTypes walk ∧ IsLasso references walk := by
  induction h with
  | nothing => rintro _ ⟨⟩
  | again there more ih => exact ih (List.forall_mem_cons.1 leads).2
  | @closes path done todo name new passed =>
      rintro _ ⟨⟩
      refine ⟨_, rfl, ?_, path.reverse, name, List.reverse_cons, List.mem_reverse.2 passed⟩
      exact List.isChain_reverse.2 (List.forall_mem_cons.1 leads).1
  | fails new free inside ih =>
      rintro _ ⟨⟩
      exact ih (fun r refers => (List.forall_mem_cons.1 leads).1.step refers) _ rfl
  | adds new free inside more ih ih' => exact ih' (List.forall_mem_cons.1 leads).2

/-- A walk that closes goes round a cycle. -/
lemma IsLasso.cyclic {walk : List String} (h : IsLasso references walk) :
    ∃ n, Relation.TransGen (Refers references) n n := by
  obtain ⟨front, last, rfl, passed⟩ := h.closes
  have far : (front ++ [last]).IsChain (Relation.TransGen (Refers references)) :=
    h.steps.imp fun _ _ => .single
  have apart := (List.pairwise_append.1 (List.isChain_iff_pairwise.1 far)).2.2
  exact ⟨last, apart last passed last (List.mem_singleton_self _)⟩

/-- Whatever names of a dependency order lead to is in it. -/
lemma IsDependencyOrder.mem_of_transGen (ordered : IsDependencyOrder references names)
    {a b : String} (mem : a ∈ names) (far : Relation.TransGen (Refers references) a b) :
    b ∈ names := by
  induction far with
  | single step => exact ordered.closed a mem _ step
  | tail _ step there => exact ordered.closed _ there _ step

/-- There are no cycles in a dependency order: all that the last name leads to is in front of it. -/
lemma IsDependencyOrder.acyclic (ordered : IsDependencyOrder references names) :
    ∀ n ∈ names, ¬ Relation.TransGen (Refers references) n n := by
  induction ordered with
  | nil => simp
  | @snoc done name before new behind ih =>
      intro n mem cycle
      rcases List.mem_append.1 mem with mem | mem
      · exact ih n mem cycle
      · rw [List.mem_singleton.1 mem] at cycle
        obtain ⟨r, first, rest⟩ := Relation.TransGen.head'_iff.1 cycle
        rcases Relation.reflTransGen_iff_eq_or_transGen.1 rest with rfl | rest
        · exact new (behind _ first)
        · exact new (before.mem_of_transGen (behind r first) rest)

/-- In a dependency order all that a name refers to stands in front of it. -/
lemma IsDependencyOrder.behind_of_split (ordered : IsDependencyOrder references names)
    {front back : List String} (split : names = front ++ name :: back) :
    ∀ r ∈ references name, r ∈ front := by
  rw [List.append_cons] at split
  exact (ordered.front split).last.2

/-! ## Interfaces -/

/-- **Dependency order and cycles.**  Interfaces that refer to declared ones only have a dependency
order if and only if none of them contains itself, directly or through others.  It has every
interface once, behind all that it refers to.  Otherwise the walk that is reported follows
references and ends where it has been before.  The search ends in any case, with what
`dependencyOrder` finds. -/
theorem ordered_or_cyclic (index : TypeIndex)
    (declared : ∀ i ∈ index.annotations, ∀ r ∈ i.references,
      r ∈ index.annotations.map Interface.name) :
    let names := index.annotations.map Interface.name
    ((∃ order, dependencyOrder index.references names = .ok order)
      ↔ ¬ ∃ n, Relation.TransGen (Refers index.references) n n)
    ∧ (∀ order, dependencyOrder index.references names = .ok order →
      order.Nodup ∧ (∀ n, n ∈ order ↔ n ∈ names) ∧
        ∀ front n back, order = front ++ n :: back → ∀ r, Refers index.references n r → r ∈ front)
    ∧ (∀ e, dependencyOrder index.references names = .error e →
      ∃ walk, e = .cyclicTypes walk ∧ IsLasso index.references walk)
    ∧ ∀ x, Visits index.references [] [] names x ↔ dependencyOrder index.references names = x := by
  intro names
  have refers : ∀ n r, Refers index.references n r → n ∈ names ∧ r ∈ names := by
    intro n r step
    obtain ⟨i, found, e, he, same⟩ := TypeIndex.mem_references.1 step
    have mem := index.mem_of_annotation? found
    exact ⟨List.mem_map.2 ⟨i, mem, index.name_of_annotation? found⟩,
      declared i mem r (List.mem_filterMap.2 ⟨e, he, same⟩)⟩
  have closed : ∀ n ∈ names, ∀ r ∈ index.references n, r ∈ names :=
    fun n _ r step => (refers n r step).2
  have search := visits_dependencyOrder closed
  have failed : ∀ e, dependencyOrder index.references names = .error e →
      ∃ walk, e = .cyclicTypes walk ∧ IsLasso index.references walk :=
    search.isLasso fun name _ => List.isChain_singleton name
  refine ⟨⟨?_, fun acyclic => ?_⟩, fun order found => ?_, failed, fun x => ⟨search.unique, ?_⟩⟩
  · rintro ⟨order, found⟩ ⟨n, cycle⟩
    obtain ⟨ordered, all⟩ := isDependencyOrder_of_ok closed found
    obtain ⟨r, first, -⟩ := Relation.TransGen.head'_iff.1 cycle
    exact ordered.acyclic n (all n (refers n r first).1) cycle
  · cases found : dependencyOrder index.references names with
    | ok order => exact ⟨order, rfl⟩
    | error e =>
        obtain ⟨walk, -, lasso⟩ := failed e found
        exact absurd lasso.cyclic acyclic
  · obtain ⟨ordered, all⟩ := isDependencyOrder_of_ok closed found
    have only := search.subset closed (List.nil_subset _) (List.Subset.refl _) order found
    exact ⟨ordered.nodup, fun n => ⟨fun mem => only mem, all n⟩,
      fun front n back split => ordered.behind_of_split split⟩
  · rintro rfl
    exact search

/-- An index of three interfaces: the first refers to the second through an array, and the second
and the third refer to each other. -/
def knotIndex : TypeIndex where
  annotations :=
    [⟨"p.A", [⟨"parts", .array (.interface "p.B"), "()[Lp/B;"⟩]⟩,
      ⟨"p.B", [⟨"n", .int, "()I"⟩, ⟨"next", .interface "p.C", "()Lp/C;"⟩]⟩,
      ⟨"p.C", [⟨"back", .interface "p.B", "()Lp/B;"⟩]⟩]
  enums := []
  classes := []
  defaults := .empty

/-- The search enters the cycle from outside, and reports the way to it as well. -/
theorem ordered_or_cyclic_knot :
    (∀ i ∈ knotIndex.annotations, ∀ r ∈ i.references,
      r ∈ knotIndex.annotations.map Interface.name)
    ∧ dependencyOrder knotIndex.references ["p.A", "p.B", "p.C"]
      = .error (.cyclicTypes ["p.A", "p.B", "p.C", "p.B"])
    ∧ IsLasso knotIndex.references ["p.A", "p.B", "p.C", "p.B"]
    ∧ ∃ n, Relation.TransGen (Refers knotIndex.references) n n := by
  have declared : ∀ i ∈ knotIndex.annotations, ∀ r ∈ i.references,
      r ∈ knotIndex.annotations.map Interface.name := by decide +kernel
  have failed : dependencyOrder knotIndex.references ["p.A", "p.B", "p.C"]
      = .error (.cyclicTypes ["p.A", "p.B", "p.C", "p.B"]) := by decide +kernel
  obtain ⟨found, -, reported, -⟩ := ordered_or_cyclic knotIndex declared
  obtain ⟨walk, same, lasso⟩ := reported _ failed
  cases same
  refine ⟨declared, failed, lasso, by_contra fun acyclic => ?_⟩
  obtain ⟨order, ordered⟩ := found.2 acyclic
  cases failed.symm.trans ordered

end DocAnnotations
