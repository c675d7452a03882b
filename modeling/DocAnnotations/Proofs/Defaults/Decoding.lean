import DocAnnotations.Proofs.Attribute.RoundTrip
import DocAnnotations.Proofs.Modules
import DocAnnotations.Proofs.Resolved

/-!
# Decoding stored defaults

Loading defaults decodes stored bytes, which could ask for other defaults.  They do not.

**Complete values.**  A resolved value has all the elements of its annotations, so reading it asks
for no defaults: it is `Standalone`, it comes to the same whatever answers there are and whatever
the registry has.  The stored defaults of a loaded index were all written from such values.

**Decoding stored defaults.**  Hence what the defaults of an interface come to depends on nothing
but the types and these defaults (`Loader.DecodesTo`), and comes to one thing only.

**Loading them.**  A registry that has nothing but defaults as they are decoded is `Computed`, and
every operation keeps it so.  **`Loader.comes_defaultsFor`**: from such registries defaults load as
they are decoded.  They may still not load, namely when one of them is nested more deeply than the
reader goes.
-/

namespace DocAnnotations

open Attribute

/-! ## Known results -/

section

variable {α : Type} {I : Registry → Prop} {P : α → Prop} {p : Load α} {x : Except ReadError α}

/-- A change made to errors is made to the error that a computation comes to. -/
lemma Comes.adaptExcept (h : Comes I p x) (g : ReadError → ReadError) :
    Comes I (p.adaptExcept g) (x.mapError g) := by
  intro r hr
  obtain ⟨r', hr', ran⟩ := h r hr
  refine ⟨r', hr', ?_⟩
  rw [EStateM.adaptExcept, ran]
  cases x <;> rfl

/-- A computation with a known result returns nothing else. -/
lemma Comes.ensures (h : Comes I p x) : Ensures I p fun a => x = .ok a := by
  intro r hr
  obtain ⟨r', hr', ran⟩ := h r hr
  rw [ran]
  cases x with
  | ok a => exact ⟨rfl, hr'⟩
  | error e => exact hr'

end

/-! ## Computations that ask for nothing -/

section

variable {α β : Type} {P : α → Prop} {Q : β → Prop}
  {p : (Interface → Load Annotation) → Load α}

/-- A value in `P`, or an error that does not come from a limit on the loads under way. -/
def SettledIn (P : α → Prop) : Except ReadError α → Prop
  | .ok a => P a
  | .error e => e.Settled

/-- Whatever answers it is given and whatever the registry has, a computation comes to the same. -/
def Standalone (p : (Interface → Load Annotation) → Load α) (P : α → Prop) : Prop :=
  ∃ x, SettledIn P x ∧ ∀ (I : Registry → Prop) (f : Interface → Load Annotation), Comes I (p f) x

namespace Standalone

lemma pure {a : α} (h : P a) : Standalone (fun _ => pure a) P :=
  ⟨.ok a, h, fun _ _ => Comes.pure a⟩

lemma throw {e : ReadError} (settled : e.Settled) : Standalone (fun _ => throw e) P :=
  ⟨.error e, settled, fun _ _ => Comes.throw e⟩

/-- What follows a computation that comes to the same comes to the same, if it does so from each
value. -/
lemma bind {q : α → (Interface → Load Annotation) → Load β} (first : Standalone p P)
    (next : ∀ a, P a → Standalone (q a) Q) : Standalone (fun f => p f >>= fun a => q a f) Q := by
  obtain ⟨x, settled, comes⟩ := first
  cases x with
  | ok a =>
      obtain ⟨y, settled', comes'⟩ := next a settled
      exact ⟨y, settled', fun I f => (comes I f).bind (comes' I f)⟩
  | error e => exact ⟨.error e, settled, fun I f => (comes I f).bind_error⟩

/-- A change made to errors that keeps them settled leaves a computation that comes to the same. -/
lemma adaptExcept (h : Standalone p P) (g : ReadError → ReadError)
    (keeps : ∀ e, e.Settled → (g e).Settled) : Standalone (fun f => (p f).adaptExcept g) P := by
  obtain ⟨x, settled, comes⟩ := h
  refine ⟨x.mapError g, ?_, fun I f => (comes I f).adaptExcept g⟩
  cases x with
  | ok a => exact settled
  | error e => exact keeps e settled

end Standalone

end

/-! ## Complete values -/

section

variable {types : TypeLookup} {i : Interface}

lemma standalone_rereadClass (c : ClassRef) :
    Standalone (fun _ => rereadClass types c) fun _ => True := by
  unfold rereadClass
  cases ClassRef.ofDescriptor? c.descriptor with
  | none => exact .throw trivial
  | some d =>
      dsimp only
      split_ifs
      · exact .pure trivial
      · exact .throw trivial

lemma standalone_rereadEnum (e : EnumRef) :
    Standalone (fun _ => rereadEnum types e) fun _ => True := by
  unfold rereadEnum
  cases objectName? (objectDescriptor e.typeName) with
  | none => exact .throw trivial
  | some typeName =>
      dsimp only
      cases types.enumeration? typeName with
      | none => exact .throw trivial
      | some found =>
          dsimp only
          split_ifs
          · exact .pure trivial
          · exact .throw trivial

/-- If rereading each value comes to the same, so does rereading all values of an array. -/
lemma standalone_rereadValues (left : Nat) : ∀ {vs : List Value},
    (∀ v ∈ vs, Standalone (fun f => reread types f left v) fun _ => True) →
    Standalone (fun f => rereadValues types f left vs) fun _ => True
  | [], _ => .pure trivial
  | v :: vs, h => by
      obtain ⟨first, rest⟩ := List.forall_mem_cons.1 h
      simp only [rereadValues]
      exact first.bind fun w _ => (standalone_rereadValues left rest).bind fun ws _ => .pure trivial

/-- Elements that are read again are as many as there were. -/
lemma standalone_rereadElements (left : Nat) : ∀ {es : List (String × Value)} {a : Annotation},
    (∀ p ∈ es, Standalone (fun f => reread types f left p.2) fun _ => True) →
    Standalone (fun f => rereadElements types f left i es a) fun b => b.size = a.size + es.length
  | [], a, _ => .pure rfl
  | (name, v) :: es, a, h => by
      obtain ⟨first, rest⟩ := List.forall_mem_cons.1 h
      simp only [rereadElements]
      refine first.bind fun w _ => ?_
      cases i.element? name with
      | none => exact .throw trivial
      | some e =>
          dsimp only
          split_ifs with wrong there
          · exact .throw trivial
          · exact .throw trivial
          · obtain ⟨x, settled, comes⟩ := standalone_rereadElements left (a := a.insert name w) rest
            refine ⟨x, ?_, comes⟩
            cases x with
            | ok b =>
                rw [SettledIn, Annotation.size_insert there] at settled
                rw [SettledIn, List.length_cons, settled]
                omega
            | error e => exact settled

/-- A resolved annotation has all its elements when it is read again, so nothing is asked for. -/
lemma standalone_rereadBody {a : Annotation} (once : types.DeclaresOnce)
    (resolved : types.Resolved (.nested a)) (inside : ∀ left, ∀ p ∈ a.elements,
      Standalone (fun f => reread types f left p.2) fun _ => True) :
    ∀ left, Standalone (fun f => rereadBody types f left a) fun _ => True
  | 0 => by
      cases a
      exact .throw trivial
  | left + 1 => by
      obtain ⟨i, found, -, has, -⟩ := resolved
      have many : ¬ a.Lacks i :=
        not_lacks_of_contains (once i (TypeLookup.knows_of_annotation? found))
          fun e he => (has e.name).2 ⟨e, he, rfl⟩
      simp only [rereadBody_succ left found]
      refine (standalone_rereadElements left (inside left)).bind fun b size => ?_
      have enough : ¬ b.size < i.elements.length := by
        rw [size, Nat.not_lt]
        exact Nat.le_trans (Nat.not_lt.1 many) (Nat.le_add_left _ _)
      simp only [if_neg enough]
      exact .pure trivial

/-- **Reading a resolved value asks for nothing.** -/
theorem standalone_reread (once : types.DeclaresOnce) {v : Value}
    (h : v.Everywhere types.Resolved) :
    ∀ left, Standalone (fun f => reread types f left v) fun _ => True := by
  induction v using Value.treeInduction with
  | classRef c =>
      intro left
      simp only [reread]
      exact (standalone_rereadClass c).bind fun d _ => .pure trivial
  | enum e =>
      intro left
      simp only [reread]
      exact (standalone_rereadEnum e).bind fun d _ => .pure trivial
  | nested a ih =>
      intro left
      obtain ⟨here, inside⟩ := everywhere_nested.1 h
      simp only [reread]
      exact (standalone_rereadBody once here (fun left p hp => ih p hp (inside p hp) left)
        left).bind fun b _ => .pure trivial
  | array vs ih =>
      intro left
      obtain ⟨-, inside⟩ := everywhere_array.1 h
      cases left with
      | zero => exact .throw trivial
      | succ left =>
          simp only [reread]
          exact (standalone_rereadValues left fun v hv => ih v hv (inside v hv) left).bind
            fun ws _ => .pure trivial
  | _ => exact fun left => .pure trivial

end

/-! ## Decoding stored defaults -/

namespace Loader

/-- What the defaults of an interface come to when they are decoded, whatever answers are given for
other interfaces and whatever the registry has. -/
def DecodesTo (l : Loader) (i : Interface) (x : Except ReadError Annotation) : Prop :=
  ∀ (I : Registry → Prop) (f : Interface → Load Annotation),
    Comes I (l.decodeDefaults f i.name i.elements (.empty i.name)) x

/-- A registry with nothing but defaults as they are decoded. -/
def Computed (l : Loader) (r : Registry) : Prop :=
  ∀ i a, l.types.Knows i → r.get? i.name l.token = some a → l.DecodesTo i (.ok a)

variable {l l' : Loader} {i : Interface} {r : Registry} {x : Except ReadError Annotation}

/-- Where all defaults were written from resolved values, decoding them asks for nothing. -/
lemma standalone_decodeDefaults (once : l.types.DeclaresOnce) (stores : l.Stores l.types.Resolved)
    (interface : String) : ∀ (elements : List Element) (a : Annotation),
    Standalone (fun f => l.decodeDefaults f interface elements a) fun _ => True
  | [], a => .pure trivial
  | e :: elements, a => by
      simp only [decodeDefaults]
      cases stored : l.defaults interface e.name with
      | none => exact standalone_decodeDefaults once stores interface elements a
      | some bytes =>
          obtain ⟨v, written, resolved⟩ := stores interface e.name bytes stored
          have read : ∀ f : Interface → Load Annotation,
              readAll (readValue l.types f nestingLimit) bytes = reread l.types f nestingLimit v :=
            fun f => readAll_of_readsAs (readsAs_readValue v nestingLimit written)
          simp only [read]
          refine ((standalone_reread once resolved nestingLimit).adaptExcept
            (.invalidDefault interface e.name) fun _ => id).bind fun w _ => ?_
          split_ifs
          · exact standalone_decodeDefaults once stores interface elements _
          · exact .throw trivial

/-- If all stored defaults are resolved values, the defaults of each interface come to something, an
annotation or a settled error. -/
lemma exists_decodesTo (once : l.types.DeclaresOnce) (stores : l.Stores l.types.Resolved)
    (i : Interface) : ∃ x, SettledIn (fun _ => True) x ∧ l.DecodesTo i x :=
  standalone_decodeDefaults once stores i.name i.elements (.empty i.name)

/-- Decoding looks at nothing but the types and the defaults of the interface itself. -/
lemma DecodesTo.congr (h : l.DecodesTo i x) (types : l'.types = l.types)
    (defaults : ∀ e, l'.defaults i.name e = l.defaults i.name e) : l'.DecodesTo i x := by
  have same : ∀ (f : Interface → Load Annotation) (elements : List Element) (a : Annotation),
      l'.decodeDefaults f i.name elements a = l.decodeDefaults f i.name elements a := by
    intro f elements
    induction elements with
    | nil => exact fun a => rfl
    | cons e elements ih =>
        intro a
        simp only [decodeDefaults, types, defaults, ih]
  exact fun I f => same f i.elements _ ▸ h I f

/-- The defaults of an interface come to one thing only. -/
lemma DecodesTo.unique {y : Except ReadError Annotation} (h : l.DecodesTo i x)
    (h' : l.DecodesTo i y) : x = y := by
  obtain ⟨r, -, ran⟩ := h (fun _ => True) l.defaultsFor .empty trivial
  obtain ⟨r', -, ran'⟩ := h' (fun _ => True) l.defaultsFor .empty trivial
  rw [ran] at ran'
  cases x <;> cases y <;> cases ran' <;> rfl

/-- Decoding leaves the registry as it is. -/
lemma DecodesTo.decodeDefaults_eq (h : l.DecodesTo i x) (f : Interface → Load Annotation) :
    l.decodeDefaults f i.name i.elements (.empty i.name) = MonadExcept.ofExcept x := by
  funext r
  obtain ⟨r', rfl, ran⟩ := h (· = r) f r rfl
  rw [ran]
  cases x <;> rfl

/-! ## Loading them -/

lemma computed_empty : l.Computed .empty := fun _ _ _ h => by cases h

/-- Adding defaults as they are decoded leaves a registry with nothing else. -/
lemma Computed.insertNew {d : Annotation} (computed : l.Computed r) (known : l.types.Knows i)
    (absent : r.get? i.name l.token = none) (h : l.DecodesTo i (.ok d)) :
    l.Computed (r.insertNew i.name l.token d) := by
  intro j a known' found
  rcases known.get?_insertNew known' absent found with ⟨rfl, rfl⟩ | found
  · exact h
  · exact computed j a known' found

/-- Loading takes what is there, or decodes and stores. -/
lemma DecodesTo.defaultsFor_eq (known : l.types.Knows i) (h : l.DecodesTo i x) :
    l.defaultsFor i = Registry.getOrPopulate i.name l.token (MonadExcept.ofExcept x) := by
  -- There is at least one interface, so at least one load may be under way.
  obtain ⟨n, many⟩ := Nat.exists_eq_succ_of_ne_zero
    (List.length_pos_of_mem (l.types.mem_interfaceNames known)).ne'
  rw [defaultsFor, many, defaultsWithin, h.decodeDefaults_eq]

/-- Defaults load as they are decoded. -/
lemma comes_defaultsFor (known : l.types.Knows i) (h : l.DecodesTo i x) :
    Comes l.Computed (l.defaultsFor i) x := by
  intro r computed
  rw [h.defaultsFor_eq known]
  cases present : r.get? i.name l.token with
  | some a =>
      rw [Registry.getOrPopulate_of_present present, h.unique (computed i a known present)]
      exact ⟨r, computed, rfl⟩
  | none =>
      rw [Registry.getOrPopulate_ofExcept present]
      cases x with
      | error e => exact ⟨r, computed, rfl⟩
      | ok d => exact ⟨_, computed.insertNew known present h, rfl⟩

/-- Registries with nothing but defaults as they are decoded cannot be told apart. -/
lemma answersSame_of_decodes (decodes : ∀ i, l.types.Knows i → ∃ x, l.DecodesTo i x) :
    l.AnswersSame fun r t => l.Computed r ∧ l.Computed t := by
  intro i known
  obtain ⟨x, h⟩ := decodes i known
  refine .of_results fun r t ⟨computed, computed'⟩ => ?_
  obtain ⟨r', next, ran⟩ := comes_defaultsFor known h r computed
  obtain ⟨t', next', ran'⟩ := comes_defaultsFor known h t computed'
  cases x with
  | ok a => exact .inl ⟨a, r', t', ran, ran', next, next'⟩
  | error e => exact .inr ⟨e, r', t', ran, ran', next, next'⟩

/-- No operation adds anything else. -/
lemma computed_after (decodes : ∀ i, l.types.Knows i → ∃ x, l.DecodesTo i x)
    (computed : l.Computed r) (op : Operation) : l.Computed (op.after l r) := by
  cases removes : op.removes with
  | true =>
      intro i a known found
      rcases op.get?_after_of_removes (l := l) (r := r) l.token i.name removes
        with same | ⟨-, none⟩
      · exact computed i a known (same ▸ found)
      · rw [none] at found
        cases found
  | false =>
      exact (Operation.same (answersSame_of_decodes decodes) ⟨computed, computed⟩ op removes).2.1

/-- Whatever operations were done, the registry has nothing but defaults as they are decoded. -/
lemma computed_registryAfter (decodes : ∀ i, l.types.Knows i → ∃ x, l.DecodesTo i x)
    (operations : List Operation) : l.Computed (l.registryAfter operations) := by
  have step : ∀ r, l.Computed r → l.Computed (operations.foldl (Operation.after l) r) := by
    induction operations with
    | nil => exact fun r computed => computed
    | cons op operations ih => exact fun r computed => ih _ (computed_after decodes computed op)
  exact step .empty computed_empty

end Loader

/-- What the defaults of an interface of a loaded index come to depends on nothing else. -/
lemma exists_decodesTo_of_ofSchema {schema : Schema} {index : TypeIndex}
    (loaded : TypeIndex.ofSchema schema = .ok index) (token : ModuleToken) (i : Interface) :
    ∃ x, SettledIn (fun _ => True) x ∧ (index.loader token).DecodesTo i x :=
  Loader.exists_decodesTo (l := index.loader token) (TypeIndex.declaresOnce loaded)
    (stores_of_ofSchema loaded (suits_resolved loaded)) i

/-- In a loaded index the defaults of each interface come to something that does not depend on the
registry. -/
lemma decodes_of_ofSchema {schema : Schema} {index : TypeIndex}
    (loaded : TypeIndex.ofSchema schema = .ok index) (token : ModuleToken) :
    ∀ i, (index.loader token).types.Knows i → ∃ x, (index.loader token).DecodesTo i x :=
  fun i _ => (exists_decodesTo_of_ofSchema loaded token i).imp fun _ => And.right

end DocAnnotations
