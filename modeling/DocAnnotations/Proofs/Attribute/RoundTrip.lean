import DocAnnotations.Proofs.Attribute.Filling
import DocAnnotations.Proofs.Attribute.Reread
import DocAnnotations.Proofs.Defaults.Coherence
import DocAnnotations.Proofs.TypeIndex

/-!
# Round trip

What is written of a well-typed value is read back as the value with everything filled in that is
missing and has a default, or refused because arrays and annotations are nested too deeply in it;
which of the two depends on the depth alone.

**Computations with a known result.**  `Comes I p x` says that a computation comes to `x` from every
registry with the invariant `I`, and keeps it.  `Comes.bind_levels` puts two parts together that
need levels of nesting: what is left must be enough for the deeper of them.

**Reading again.**  `comesBack` goes through a well-typed value and says what becomes of it when it
is read again: the value completed by the readers' merges, if there are levels enough for it.

**`decode_written`** puts this together with what `Filling` says of the merges.  It covers one
annotation and the annotations of a member, from any registry, whenever the defaults of all
annotations load in which something is missing.
-/

namespace DocAnnotations

open Attribute

/-- The defaults of an annotation load if something is missing in it; nothing is asked of other
values. -/
def Loader.LoadsDefaults (l : Loader) (r : Registry) (D : Interface → Annotation) : Value → Prop
  | .nested a => ∀ i, l.types.annotation? a.typeName = some i → a.Misses i →
    ∃ r', l.defaultsFor i r = .ok (D i) r'
  | _ => True

/-! ## Computations with a known result -/

section

variable {α β : Type} {I : Registry → Prop} {p : Load α} {f : α → Load β}

/-- From every registry with the invariant a computation comes to the given result, and keeps the
invariant. -/
def Comes (I : Registry → Prop) (p : Load α) (x : Except ReadError α) : Prop :=
  ∀ r, I r → ∃ r', I r' ∧ p r = match x with
    | .ok a => .ok a r'
    | .error e => .error e r'

namespace Comes

lemma pure (a : α) : Comes I (pure a) (.ok a) := fun r h => ⟨r, h, rfl⟩

lemma throw (e : ReadError) : Comes I (throw e : Load α) (.error e) := fun r h => ⟨r, h, rfl⟩

/-- After a computation that comes to a value, another comes to what it comes to from that value. -/
lemma bind {a : α} {x : Except ReadError β} (hp : Comes I p (.ok a)) (hf : Comes I (f a) x) :
    Comes I (p >>= f) x := by
  intro r h
  obtain ⟨r', h', hp⟩ := hp r h
  obtain ⟨r'', h'', hf⟩ := hf r' h'
  exact ⟨r'', h'', by simp only [Bind.bind, EStateM.bind, hp]; exact hf⟩

/-- After a computation that comes to an error nothing else is computed. -/
lemma bind_error {e : ReadError} (hp : Comes I p (.error e)) :
    Comes I (p >>= f) (.error e) := by
  intro r h
  obtain ⟨r', h', hp⟩ := hp r h
  exact ⟨r', h', by simp only [Bind.bind, EStateM.bind, hp]⟩

end Comes

end

/-! ## Reading well-typed values again -/

section

variable {types : TypeLookup} {defaultsFor : Interface → Load Annotation}
variable {I : Registry → Prop} {D : Interface → Annotation}

/-- A class that descriptors can name and the index has is reread as itself. -/
lemma rereadClass_of_admits {c : ClassRef} (h : types.Admits (.classRef c)) :
    rereadClass types c = pure c := by
  obtain ⟨few, void, loadable⟩ := h
  have back := ofDescriptor?_descriptor few (fun h => (loadable h).1) void
  rw [rereadClass, back]
  refine if_pos ?_
  cases primitive : c.isPrimitive with
  | true => rfl
  | false => exact (loadable primitive).2

/-- A constant of an enum that descriptors can name and the index has is reread as itself. -/
lemma rereadEnum_of_admits {e : EnumRef} (h : types.Admits (.enum e)) :
    rereadEnum types e = pure e := by
  obtain ⟨plain, found, hfound, constant⟩ := h
  rw [rereadEnum, objectName?_objectDescriptor plain]
  dsimp only
  rw [hfound]
  exact if_pos constant

/-- What becomes of something that needs a number of levels where another number is left. -/
def withinLevels {α : Type} (needed left : Nat) (a : α) : Except ReadError α :=
  if needed ≤ left then .ok a else .error (.tooDeep nestingLimit)

lemma withinLevels_of_le {α : Type} {needed left : Nat} (h : needed ≤ left) (a : α) :
    withinLevels needed left a = .ok a := if_pos h

/-- What needs more levels than are left is refused, with the limit in the error. -/
lemma withinLevels_of_lt {α : Type} {needed left : Nat} (h : left < needed) (a : α) :
    withinLevels needed left a = .error (.tooDeep nestingLimit) := if_neg (Nat.not_le.2 h)

/-- What opens an array or annotation needs one level more, and finds one more left. -/
lemma withinLevels_succ {α : Type} (needed left : Nat) (a : α) :
    withinLevels (needed + 1) (left + 1) a = withinLevels needed left a := by
  simp [withinLevels]

/-- Two parts in a row need what the deeper of them needs. -/
lemma Comes.bind_levels {α β : Type} {p : Load α} {f : α → Load β} {first rest left : Nat} {a : α}
    {b : β} (hp : Comes I p (withinLevels first left a))
    (hf : Comes I (f a) (withinLevels rest left b)) :
    Comes I (p >>= f) (withinLevels (max first rest) left b) := by
  by_cases h : first ≤ left
  · rw [withinLevels_of_le h] at hp
    have same : withinLevels (max first rest) left b = withinLevels rest left b := by
      simp [withinLevels, h]
    exact same ▸ hp.bind hf
  · have deep := Nat.not_le.1 h
    rw [withinLevels_of_lt deep] at hp
    rw [withinLevels_of_lt (lt_max_of_lt_left deep)]
    exact hp.bind_error

/-- A last step that only wraps the result needs no level. -/
lemma Comes.map_levels {α β : Type} {p : Load α} {needed left : Nat} {a : α} (f : α → β)
    (hp : Comes I p (withinLevels needed left a)) :
    Comes I (do return f (← p)) (withinLevels needed left (f a)) := by
  have wrapped : Comes I (Pure.pure (f a)) (withinLevels 0 left (f a)) := by
    rw [withinLevels_of_le (Nat.zero_le left)]
    exact Comes.pure (f a)
  have step := hp.bind_levels (f := fun a => Pure.pure (f a)) wrapped
  rwa [Nat.max_zero] at step

/-- A value comes back completed, if there are levels enough for it. -/
def ComesBack (types : TypeLookup) (defaultsFor : Interface → Load Annotation)
    (I : Registry → Prop) (D : Interface → Annotation) (v : Value) : Prop :=
  ∀ left, Comes I (reread types defaultsFor left v)
    (withinLevels v.depth left (v.completedWith types D))

/-- If each value of an array comes back, they all do, with as many levels as the deepest of them
needs. -/
lemma comes_rereadValues (left : Nat) : ∀ {vs : List Value},
    (∀ v ∈ vs, ComesBack types defaultsFor I D v) →
    Comes I (rereadValues types defaultsFor left vs)
      (withinLevels (valuesDepth vs) left (completedValues types D vs))
  | [], _ => by
      rw [valuesDepth, withinLevels_of_le (Nat.zero_le _)]
      exact Comes.pure _
  | v :: vs, h => by
      obtain ⟨first, rest⟩ := List.forall_mem_cons.1 h
      rw [rereadValues, valuesDepth, completedValues]
      refine (first left).bind_levels ?_
      exact (comes_rereadValues left rest).map_levels fun ws => v.completedWith types D :: ws

/-- Elements come back in their order behind those already there.  Their names are behind all names
that are there, so each is new and goes to the end. -/
lemma comes_rereadElements (left : Nat) {i : Interface} (typeName : String) :
    ∀ {es : List (String × Value)} (own : List (String × Value)),
    (∀ p ∈ es, ComesBack types defaultsFor I D p.2) →
    (∀ p ∈ es, ∃ e, i.element? p.1 = some e ∧ p.2.conforms e.type = true) →
    es.Pairwise (fun p q => p.1 < q.1) → (∀ p ∈ own, ∀ q ∈ es, p.1 < q.1) →
    Comes I (rereadElements types defaultsFor left i es ⟨typeName, own⟩)
      (withinLevels (elementsDepth es) left ⟨typeName, own ++ completedElements types D es⟩)
  | [], own, _, _, _, _ => by
      rw [elementsDepth, withinLevels_of_le (Nat.zero_le _), completedElements, List.append_nil]
      exact Comes.pure _
  | (name, v) :: es, own, back, declared, ordered, behind => by
      obtain ⟨first, rest⟩ := List.forall_mem_cons.1 back
      obtain ⟨⟨e, known, typed⟩, others⟩ := List.forall_mem_cons.1 declared
      obtain ⟨new, appended, ahead⟩ :=
        Annotation.insert_behind typeName behind ordered (v.completedWith types D)
      have step :=
        comes_rereadElements left typeName _ rest others (List.pairwise_cons.1 ordered).2 ahead
      rw [rereadElements, elementsDepth, completedElements]
      refine (first left).bind_levels ?_
      rw [List.append_assoc] at step
      simpa [known, conforms_completedWith, typed, new, appended] using step

/-- If the values of an annotation come back and its defaults load where it lacks elements, the
annotation comes back completed. -/
lemma comes_rereadBody {a : Annotation} (admitted : types.Admits (.nested a))
    (loads : ∀ i, types.annotation? a.typeName = some i → a.Lacks i →
      Comes I (defaultsFor i) (.ok (D i)))
    (back : ∀ p ∈ a.elements, ComesBack types defaultsFor I D p.2) (left : Nat) :
    Comes I (rereadBody types defaultsFor left a)
      (withinLevels a.depth left (a.completedWith types D)) := by
  obtain ⟨ordered, i, found, declared⟩ := admitted
  cases left with
  | zero =>
      have deep : 0 < a.depth := Nat.zero_lt_succ _
      rw [withinLevels_of_lt deep]
      cases a
      exact Comes.throw _
  | succ left =>
      have elements := comes_rereadElements left a.typeName [] back declared ordered (by simp)
      have size : (completedElements types D a.elements).length = a.elements.length :=
        length_completedElements a.elements
      rw [rereadBody_succ left found, Annotation.depth, withinLevels_succ, ← Nat.max_zero
        (elementsDepth a.elements), Annotation.completedWith, Annotation.filledFrom]
      simp only [found]
      refine elements.bind_levels ?_
      rw [withinLevels_of_le (Nat.zero_le left), List.nil_append]
      by_cases lacks : a.Lacks i
      · have short : (completedElements types D a.elements).length < i.elements.length :=
          size ▸ lacks
        rw [if_pos (show Annotation.size ⟨a.typeName, _⟩ < _ from short),
          if_pos (show Annotation.Lacks ⟨a.typeName, _⟩ i from short)]
        exact (loads i found lacks).bind (Comes.pure _)
      · have long : ¬ (completedElements types D a.elements).length < i.elements.length :=
          size ▸ lacks
        rw [if_neg (show ¬ Annotation.size ⟨a.typeName, _⟩ < _ from long),
          if_neg (show ¬ Annotation.Lacks ⟨a.typeName, _⟩ i from long)]
        exact Comes.pure _

/-- A well-typed value comes back completed, if its defaults load and there are levels enough. -/
lemma comesBack {v : Value} (typed : v.WellTyped types)
    (loads : v.Everywhere fun v => ∀ a, v = .nested a → ∀ i,
      types.annotation? a.typeName = some i → a.Lacks i → Comes I (defaultsFor i) (.ok (D i))) :
    ComesBack types defaultsFor I D v := by
  induction v using Value.treeInduction with
  | classRef c =>
      intro left
      have same : rereadClass types c = pure c := rereadClass_of_admits typed
      rw [reread, same]
      exact Comes.pure _
  | enum e =>
      intro left
      have same : rereadEnum types e = pure e := rereadEnum_of_admits typed
      rw [reread, same]
      exact Comes.pure _
  | nested a ih =>
      intro left
      obtain ⟨admitted, inside⟩ := everywhere_nested.1 typed
      obtain ⟨here, loads⟩ := everywhere_nested.1 loads
      have back := comes_rereadBody admitted (here a rfl)
        (fun p hp => ih p hp (inside p hp) (loads p hp)) left
      rw [reread, depth_nested, completedWith_nested]
      exact back.map_levels Value.nested
  | array vs ih =>
      intro left
      obtain ⟨-, inside⟩ := everywhere_array.1 typed
      obtain ⟨-, loads⟩ := everywhere_array.1 loads
      rw [Value.depth, Value.completedWith]
      cases left with
      | zero =>
          rw [withinLevels_of_lt (Nat.zero_lt_succ _)]
          exact Comes.throw _
      | succ left =>
          rw [withinLevels_succ, reread]
          exact (comes_rereadValues left fun v hv =>
            ih v hv (inside v hv) (loads v hv)).map_levels Value.array
  | _ =>
      intro left
      exact fun r h => ⟨r, h, rfl⟩

/-- No defaults of a complete annotation are ever asked for, so any answer to the question will
do. -/
lemma TypeLookup.Complete.asksForNone {v : Value} (admitted : types.Admits v)
    (complete : types.Complete v) (a : Annotation) (h : v = .nested a) (i : Interface)
    (found : types.annotation? a.typeName = some i) (lacks : a.Lacks i) :
    Comes I (defaultsFor i) (.ok (D i)) := by
  subst h
  exact absurd ((lacks_iff admitted found).1 lacks) (complete i found)

/-- A well-typed value that is complete comes back as it is. -/
lemma comesBack_of_complete {v : Value} (typed : v.WellTyped types)
    (complete : v.Everywhere types.Complete) (left : Nat) :
    Comes I (reread types defaultsFor left v) (withinLevels v.depth left v) := by
  have back : ComesBack types defaultsFor I (fun i => .empty i.name) v :=
    comesBack typed ((typed.and complete).mono fun _ h => h.2.asksForNone h.1)
  have here := back left
  rwa [completedWith_of_filled (filled_of_complete typed complete)] at here

end

/-! ## Whole attributes -/

variable {l : Loader} {r : Registry} {D : Interface → Annotation}

/-- Defaults that load once load again while an attribute is read. -/
lemma Loader.LoadsDefaults.comes {v : Value} (admitted : l.types.Admits v)
    (loads : l.LoadsDefaults r D v) (a : Annotation) (h : v = .nested a) (i : Interface)
    (found : l.types.annotation? a.typeName = some i) (lacks : a.Lacks i) :
    Comes (l.Coherent r) (l.defaultsFor i) (.ok (D i)) := by
  subst h
  obtain ⟨r', loaded⟩ := loads i found ((lacks_iff admitted found).1 lacks)
  intro s coherent
  obtain ⟨s', again, coherent'⟩ :=
    l.defaultsFor_of_coherent (TypeLookup.knows_of_annotation? found) loaded coherent
  exact ⟨s', coherent', again⟩

/-- A well-typed annotation comes back completed, where the defaults that it asks for come. -/
lemma comes_rereadTopLevel_of_comes {I : Registry → Prop} {a : Annotation}
    (typed : (Value.nested a).WellTyped l.types)
    (loads : (Value.nested a).Everywhere fun v => ∀ a, v = .nested a → ∀ i,
      l.types.annotation? a.typeName = some i → a.Lacks i → Comes I (l.defaultsFor i) (.ok (D i))) :
    Comes I (rereadBody l.types l.defaultsFor nestingLimit a)
      (withinLevels a.depth nestingLimit (a.completedWith l.types D)) := by
  obtain ⟨admitted, inside⟩ := everywhere_nested.1 typed
  obtain ⟨here, loads⟩ := everywhere_nested.1 loads
  exact comes_rereadBody admitted (here a rfl)
    (fun p hp => comesBack (inside p hp) (loads p hp)) nestingLimit

/-- A well-typed annotation whose defaults load comes back completed, unless it needs more than all
levels. -/
lemma comes_rereadTopLevel {a : Annotation} (typed : (Value.nested a).WellTyped l.types)
    (loads : (Value.nested a).Everywhere (l.LoadsDefaults r D)) :
    Comes (l.Coherent r) (rereadBody l.types l.defaultsFor nestingLimit a)
      (withinLevels a.depth nestingLimit (a.completedWith l.types D)) :=
  comes_rereadTopLevel_of_comes typed ((typed.and loads).mono fun _ h => h.2.comes h.1)

/-- A complete annotation asks for no defaults, so it comes back as it is with every registry. -/
lemma comes_rereadTopLevel_of_complete {a : Annotation}
    (typed : (Value.nested a).WellTyped l.types)
    (complete : (Value.nested a).Everywhere l.types.Complete) :
    Comes (· = r) (rereadBody l.types l.defaultsFor nestingLimit a)
      (withinLevels a.depth nestingLimit a) := by
  have back : Comes (· = r) (rereadBody l.types l.defaultsFor nestingLimit a)
      (withinLevels a.depth nestingLimit (a.completedWith l.types fun i => .empty i.name)) :=
    comes_rereadTopLevel_of_comes typed
      ((typed.and complete).mono fun _ h => h.2.asksForNone h.1)
  rwa [completedWith_eq_self (filled_of_complete typed complete)] at back

/-- The depth of the deepest of several annotations. -/
def deepest : List Annotation → Nat
  | [] => 0
  | a :: annotations => max a.depth (deepest annotations)

/-- The deepest of some annotations is within a number of levels if and only if each of them is. -/
lemma deepest_le_iff {n : Nat} : ∀ {annotations : List Annotation},
    deepest annotations ≤ n ↔ ∀ a ∈ annotations, a.depth ≤ n
  | [] => by simp [deepest]
  | a :: annotations => by
      rw [deepest, max_le_iff, List.forall_mem_cons, deepest_le_iff]

/-- If each annotation of a member comes back, they all do, with as many levels as the deepest of
them needs. -/
lemma comes_rereadAnnotations {I : Registry → Prop} {f : Annotation → Annotation} :
    ∀ {annotations : List Annotation}, (∀ a ∈ annotations,
      Comes I (rereadBody l.types l.defaultsFor nestingLimit a)
        (withinLevels a.depth nestingLimit (f a))) →
    Comes I (rereadAnnotations l.types l.defaultsFor nestingLimit annotations)
      (withinLevels (deepest annotations) nestingLimit (annotations.map f))
  | [], _ => by
      rw [deepest, withinLevels_of_le (Nat.zero_le _)]
      exact Comes.pure _
  | a :: annotations, h => by
      obtain ⟨first, rest⟩ := List.forall_mem_cons.1 h
      rw [rereadAnnotations, deepest, List.map_cons]
      exact first.bind_levels ((comes_rereadAnnotations rest).map_levels fun bs => f a :: bs)

lemma withinLevels_apply {α : Type} {needed left : Nat} {a : α} {s : Registry} :
    (match withinLevels needed left a with
      | .ok a => .ok a s
      | .error e => .error e s)
      = if needed ≤ left then EStateM.Result.ok a s else .error (.tooDeep nestingLimit) s := by
  unfold withinLevels
  split_ifs <;> rfl

/-- Complete annotations of a member are read back as they are, unless one is nested too deeply, and
the registry stays as it was. -/
lemma decodeMember_of_complete {annotations : List Annotation} {bytes : List UInt8}
    (typed : ∀ a ∈ annotations, (Value.nested a).WellTyped l.types)
    (complete : ∀ a ∈ annotations, (Value.nested a).Everywhere l.types.Complete)
    (written : memberBytes annotations = .ok bytes) (r : Registry) :
    l.decodeMember bytes r = if ∀ a ∈ annotations, a.depth ≤ nestingLimit
      then .ok annotations r else .error (.tooDeep nestingLimit) r := by
  have back := comes_rereadAnnotations (f := id) fun a ha =>
    comes_rereadTopLevel_of_complete (r := r) (typed a ha) (complete a ha)
  obtain ⟨r', rfl, h⟩ := back r rfl
  rw [Loader.decodeMember, readAll_readMember _ _ written, h, withinLevels_apply, List.map_id]
  simp only [deepest_le_iff]

/-- **Round trip with completion.**  Let a well-typed annotation be written, and let the defaults of
all annotations in it load in which something is missing.  If arrays and annotations are not nested
too deeply in it, it is read back as its one completion: at every depth explicit elements keep their
values, missing elements have those of the defaults where there are any, and nothing else is
changed.  If they are, it is refused.  An annotation in which nothing is missing is read back as it
is, without any defaults.  The annotations of a member are each read back in the same way. -/
theorem decode_written (l : Loader) (r : Registry) (D : Interface → Annotation) :
    (∀ (a : Annotation) (bytes : List UInt8), (Value.nested a).WellTyped l.types →
      (Value.nested a).Everywhere (l.LoadsDefaults r D) → annotationBytes a = .ok bytes →
      (a.depth ≤ nestingLimit →
        ∃ b r', l.decode bytes r = .ok b r' ∧ a.CompletesOnlyTo l.types D b)
      ∧ (nestingLimit < a.depth → ∃ r', l.decode bytes r = .error (.tooDeep nestingLimit) r'))
    ∧ (∀ (a : Annotation) (bytes : List UInt8), (Value.nested a).WellTyped l.types →
      (Value.nested a).Everywhere l.types.Complete → annotationBytes a = .ok bytes →
      l.decode bytes r = if a.depth ≤ nestingLimit then .ok a r
        else .error (.tooDeep nestingLimit) r)
    ∧ (∀ (annotations : List Annotation) (bytes : List UInt8),
      (∀ a ∈ annotations, (Value.nested a).WellTyped l.types
        ∧ (Value.nested a).Everywhere (l.LoadsDefaults r D)) →
      memberBytes annotations = .ok bytes →
      ((∀ a ∈ annotations, a.depth ≤ nestingLimit) →
        ∃ bs r', l.decodeMember bytes r = .ok bs r'
          ∧ List.Forall₂ (fun a b => a.CompletesOnlyTo l.types D b) annotations bs)
      ∧ ((∃ a ∈ annotations, nestingLimit < a.depth) →
        ∃ r', l.decodeMember bytes r = .error (.tooDeep nestingLimit) r')) := by
  refine ⟨?_, ?_, ?_⟩
  · intro a bytes typed loads written
    obtain ⟨r', -, h⟩ := comes_rereadTopLevel typed loads r (l.coherent_self r)
    have read : l.decode bytes r = if a.depth ≤ nestingLimit then .ok (a.completedWith l.types D) r'
        else .error (.tooDeep nestingLimit) r' := by
      rw [Loader.decode, readAll_readTopLevel _ _ written, h, withinLevels_apply]
    constructor
    · intro shallow
      exact ⟨_, r', read.trans (if_pos shallow), completesOnlyTo_completedWith typed⟩
    · intro deep
      exact ⟨r', read.trans (if_neg (Nat.not_le.2 deep))⟩
  · intro a bytes typed complete written
    obtain ⟨r', rfl, h⟩ := comes_rereadTopLevel_of_complete (r := r) typed complete r rfl
    rw [Loader.decode, readAll_readTopLevel _ _ written, h, withinLevels_apply]
  · intro annotations bytes all written
    have back := comes_rereadAnnotations (f := fun a => a.completedWith l.types D) fun a ha =>
      comes_rereadTopLevel (all a ha).1 (all a ha).2
    obtain ⟨r', -, h⟩ := back r (l.coherent_self r)
    have read : l.decodeMember bytes r = if ∀ a ∈ annotations, a.depth ≤ nestingLimit
        then .ok (annotations.map fun a => a.completedWith l.types D) r'
        else .error (.tooDeep nestingLimit) r' := by
      rw [Loader.decodeMember, readAll_readMember _ _ written, h, withinLevels_apply]
      simp only [deepest_le_iff]
    constructor
    · intro shallow
      refine ⟨_, r', read.trans (if_pos shallow), List.forall₂_map_right_iff.2 ?_⟩
      exact List.forall₂_same.2 fun a ha => completesOnlyTo_completedWith (all a ha).1
    · rintro ⟨a, ha, deep⟩
      exact ⟨r', read.trans (if_neg fun all => Nat.not_le.2 deep (all a ha))⟩

/-! ## Shapes with and without defaults -/

/-- A shape without its keys and its mark, at a point with the given elements. -/
def shapeAt (elements : List (String × Value)) : Annotation :=
  ⟨"p.Shape", [("at", .nested ⟨"p.Point", elements⟩)]⟩

/-- The defaults that load with an empty registry. -/
def Loader.freshDefaults (l : Loader) (i : Interface) : Annotation :=
  (returned (l.defaultsFor i .empty)).getD (.empty i.name)

lemma wellTyped_shapeAt {elements : List (String × Value)}
    (point : (Value.nested ⟨"p.Point", elements⟩).WellTyped sampleIndex.lookup) :
    (Value.nested (shapeAt elements)).WellTyped sampleIndex.lookup :=
  everywhere_nested.2 ⟨⟨List.pairwise_singleton _ _, _, rfl,
    List.forall_mem_singleton.2 ⟨_, rfl, rfl⟩⟩, List.forall_mem_singleton.2 point⟩

/-- All defaults load that the sample index has, whatever is missing. -/
lemma loadsDefaults_sampleIndex (v : Value) : v.Everywhere
    ((sampleIndex.loader ⟨0⟩).LoadsDefaults .empty (sampleIndex.loader ⟨0⟩).freshDefaults) := by
  have all : ∀ i ∈ sampleIndex.annotations,
      (returned ((sampleIndex.loader ⟨0⟩).defaultsFor i .empty)).isSome = true := by
    decide +kernel
  have here : ∀ a, (sampleIndex.loader ⟨0⟩).LoadsDefaults .empty
      (sampleIndex.loader ⟨0⟩).freshDefaults (.nested a) := by
    intro a i found _
    obtain ⟨d, loaded⟩ :=
      Option.isSome_iff_exists.1 (all i (sampleIndex.mem_of_annotation? found))
    rw [Loader.freshDefaults, loaded]
    exact exists_of_returned loaded
  induction v using Value.treeInduction with
  | nested a ih => exact everywhere_nested.2 ⟨here a, ih⟩
  | array vs ih => exact everywhere_array.2 ⟨trivial, ih⟩
  | _ => trivial

/-- A shape at the place 1, where 7 is the default, keeps this place when it is read back, has the
default keys, and still has no mark and no unit, for which there are no defaults.  In a member
behind it, a shape at a point that has only a unit takes the default place at its own depth. -/
theorem decode_written_shapeAt :
    let l := sampleIndex.loader ⟨0⟩
    let placed := shapeAt [("x", .int 1)]
    let unplaced := shapeAt [("unit", .enum ⟨"p.Unit", "CM"⟩)]
    let placedWhole : List UInt8 :=
      [64, 0, 7, 112, 46, 83, 104, 97, 112, 101, 0, 2, 0, 2, 97, 116, 64, 0, 7, 112, 46, 80, 111,
        105, 110, 116, 0, 1, 0, 1, 120, 73, 0, 0, 0, 1, 0, 4, 107, 101, 121, 115, 91, 0, 1, 99, 0,
        1, 73]
    let unplacedWhole : List UInt8 :=
      [64, 0, 7, 112, 46, 83, 104, 97, 112, 101, 0, 2, 0, 2, 97, 116, 64, 0, 7, 112, 46, 80, 111,
        105, 110, 116, 0, 2, 0, 4, 117, 110, 105, 116, 101, 0, 8, 76, 112, 47, 85, 110, 105, 116,
        59, 0, 2, 67, 77, 0, 1, 120, 73, 0, 0, 0, 7, 0, 4, 107, 101, 121, 115, 91, 0, 1, 99, 0, 1,
        73]
    (∃ bytes b r, annotationBytes placed = .ok bytes ∧ l.decode bytes .empty = .ok b r
      ∧ annotationBytes b = .ok placedWhole)
    ∧ ∃ bytes bs r, memberBytes [placed, unplaced] = .ok bytes
      ∧ l.decodeMember bytes .empty = .ok bs r
      ∧ memberBytes bs = .ok ([0, 2] ++ placedWhole ++ unplacedWhole) := by
  intro l placed unplaced placedWhole unplacedWhole
  have point : (Value.nested ⟨"p.Point", [("x", .int 1)]⟩).WellTyped sampleIndex.lookup :=
    everywhere_nested.2 ⟨⟨List.pairwise_singleton _ _, _, rfl,
      List.forall_mem_singleton.2 ⟨_, rfl, rfl⟩⟩, List.forall_mem_singleton.2 trivial⟩
  have other : (Value.nested ⟨"p.Point", [("unit", .enum ⟨"p.Unit", "CM"⟩)]⟩).WellTyped
      sampleIndex.lookup :=
    everywhere_nested.2 ⟨⟨List.pairwise_singleton _ _, _, rfl,
      List.forall_mem_singleton.2 ⟨_, rfl, rfl⟩⟩,
      List.forall_mem_singleton.2 ⟨by decide, _, rfl, rfl⟩⟩
  have typed := wellTyped_shapeAt point
  have typed' := wellTyped_shapeAt other
  obtain ⟨single, -, member⟩ := decode_written l .empty l.freshDefaults
  constructor
  · have written : annotationBytes placed = .ok
        [64, 0, 7, 112, 46, 83, 104, 97, 112, 101, 0, 1, 0, 2, 97, 116, 64, 0, 7, 112, 46, 80, 111,
          105, 110, 116, 0, 1, 0, 1, 120, 73, 0, 0, 0, 1] := by
      decide +kernel
    obtain ⟨b, r, read, only⟩ :=
      (single placed _ typed (loadsDefaults_sampleIndex _) written).1 (by decide)
    cases only.eq_completedWith typed
    exact ⟨_, _, r, written, read, by decide +kernel⟩
  · have written : memberBytes [placed, unplaced] = .ok
        [0, 2, 64, 0, 7, 112, 46, 83, 104, 97, 112, 101, 0, 1, 0, 2, 97, 116, 64, 0, 7, 112, 46, 80,
          111, 105, 110, 116, 0, 1, 0, 1, 120, 73, 0, 0, 0, 1, 64, 0, 7, 112, 46, 83, 104, 97, 112,
          101, 0, 1, 0, 2, 97, 116, 64, 0, 7, 112, 46, 80, 111, 105, 110, 116, 0, 1, 0, 4, 117, 110,
          105, 116, 101, 0, 8, 76, 112, 47, 85, 110, 105, 116, 59, 0, 2, 67, 77] := by
      decide +kernel
    have all : ∀ a ∈ [placed, unplaced], (Value.nested a).WellTyped l.types
        ∧ (Value.nested a).Everywhere (l.LoadsDefaults .empty l.freshDefaults) :=
      List.forall_mem_cons.2 ⟨⟨typed, loadsDefaults_sampleIndex _⟩,
        List.forall_mem_singleton.2 ⟨typed', loadsDefaults_sampleIndex _⟩⟩
    obtain ⟨bs, r, read, only⟩ := (member _ _ all written).1 (by decide)
    rcases only with _ | ⟨first, _ | ⟨second, _ | _⟩⟩
    cases first.eq_completedWith typed
    cases second.eq_completedWith typed'
    exact ⟨_, _, r, written, read, by decide +kernel⟩

end DocAnnotations
