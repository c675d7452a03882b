import DocAnnotations.Proofs.Attribute.LaidOut
import DocAnnotations.Proofs.Attribute.Reordered
import DocAnnotations.Proofs.Modules

/-!
# Where elements come from

The value of an element in an annotation that was read comes from a pair in the bytes of the
annotation or, where no pair has the name of the element, from the bytes of its default.

**Pairs.**  `Layout.Adds` says what reading pairs one after the other does to an annotation.

**Origins.**  `Loader.LaysOut` is the relation of an annotation's bytes to those of its elements,
both as they are laid out, and `Loader.Origin` says of a value that it has come from a layout in
this way, and the annotations inside it as well, to any depth.

**Registries in use.**  **`origin_of_decodeMember`**: whatever modules have used a registry, the
annotations that are read have come from the layouts of their bytes.  What a cached entry holds was
read from the source of defaults before, and is the same that would be read now.
-/

namespace DocAnnotations.Attribute.Layout

open Annotation (contains get?_insert)

/-! ## Pairs -/

/-- The pairs of an annotation. -/
def pairs : Layout → List (Chunk × Layout)
  | nested _ pairs => pairs
  | _ => []

/-- Some pair of the annotation has the name. -/
def Names (t : Layout) (name : String) : Prop := ∃ p ∈ t.pairs, p.1.text? = some name

variable {types : TypeLookup} {D : Interface → Option Annotation} {left : Nat} {i : Interface}

/-- What pairs add to an annotation: exactly the elements that they name, each with the value that
its pair is read as. -/
structure Adds (value? : Layout → Option Value) (pairs : List (Chunk × Layout))
    (a b : Annotation) : Prop where
  typeName : b.typeName = a.typeName
  keeps : ∀ {name v}, a.get? name = some v → b.get? name = some v
  gives : ∀ p ∈ pairs, ∃ name v, p.1.text? = some name ∧ value? p.2 = some v
    ∧ b.get? name = some v
  only : ∀ {name v}, b.get? name = some v →
    a.get? name = some v ∨ ∃ p ∈ pairs, p.1.text? = some name

/-- Reading pairs one after the other adds each of them to the annotation, under a name that was
free. -/
lemma adds_of_elements? : ∀ {pairs : List (Chunk × Layout)} {a b : Annotation},
    elements? types D left i pairs a = some b → Adds (value? types D left) pairs a b
  | [], a, b, h => by
      rw [elements?] at h
      cases h
      exact ⟨rfl, id, List.forall_mem_nil _, .inl⟩
  | p :: pairs, a, c, h => by
      rw [elements?_cons, addPair?] at h
      obtain ⟨b, added, others⟩ := Option.bind_eq_some_iff.1 h
      obtain ⟨name, named, added⟩ := Option.bind_eq_some_iff.1 added
      obtain ⟨v, read, added⟩ := Option.bind_eq_some_iff.1 added
      obtain ⟨-, new, rfl⟩ := added?_eq_some.1 added
      have rest := adds_of_elements? others
      have stays : ∀ {other w}, a.get? other = some w →
          (a.insert name v).get? other = some w := by
        intro other w found
        rw [get?_insert]
        split_ifs with same
        · rw [contains, same, found] at new
          cases new
        · exact found
      refine ⟨rest.typeName, fun found => rest.keeps (stays found), ?_, ?_⟩
      · refine List.forall_mem_cons.2 ⟨⟨name, v, named, read, rest.keeps ?_⟩, rest.gives⟩
        rw [get?_insert, if_pos rfl]
      · intro other w found
        rcases rest.only found with before | ⟨q, mem, same⟩
        · rw [get?_insert] at before
          split_ifs at before with same
          · exact .inr ⟨p, List.mem_cons_self, same ▸ named⟩
          · exact .inl before
        · exact .inr ⟨q, List.mem_cons_of_mem _ mem, same⟩

/-- A pair is the only one with its name. -/
lemma Adds.value?_eq {value? : Layout → Option Value} {pairs : List (Chunk × Layout)}
    {a b : Annotation} (adds : Adds value? pairs a b) {p : Chunk × Layout} (mem : p ∈ pairs)
    {name : String} {v : Value} (named : p.1.text? = some name) (found : b.get? name = some v) :
    value? p.2 = some v := by
  obtain ⟨other, w, named', read, found'⟩ := adds.gives p mem
  rw [named] at named'
  cases named'
  rw [found] at found'
  rwa [Option.some.inj found']

end DocAnnotations.Attribute.Layout

namespace DocAnnotations

open Attribute
open Annotation (contains get?_insert get?_empty)

variable {l : Loader} {base r : Registry} {i : Interface} {d : Annotation} {t u : Layout}

/-! ## Origins -/

namespace Loader

/-- Where an annotation is laid out as `t`, the value of an element of it is laid out like this: as
the pair with the name of the element says or, if there is none, as the default of the element. -/
inductive LaysOut (l : Loader) (t : Layout) (interface element : String) : Layout → Prop
  | pair {p : Chunk × Layout} (mem : p ∈ t.pairs) (named : p.1.text? = some element) :
    LaysOut l t interface element p.2
  | default {u : Layout} (omitted : ¬ t.Names element) (fits : u.Fits)
    (stored : l.defaults interface element = some u.bytes) : LaysOut l t interface element u

/-- A value has come from what is laid out as `t`.  An annotation has exactly the elements of which
it can be said how they are laid out, all those among them that its bytes name, and all its elements
have come from their layouts. -/
inductive Origin (l : Loader) : Layout → Value → Prop
  | plain {t : Layout} {v : Value} (plain : ∀ a, v ≠ .nested a) : Origin l t v
  | nested {t : Layout} {a : Annotation}
    (given : ∀ name, a.contains name = true → ∃ u, l.LaysOut t a.typeName name u)
    (named : ∀ name, t.Names name → a.contains name = true)
    (inside : ∀ name v u, a.get? name = some v → l.LaysOut t a.typeName name u → Origin l u v) :
    Origin l t (.nested a)

/-- Defaults of an interface that have come from the source of defaults. -/
def FromSource (l : Loader) (i : Interface) (d : Annotation) : Prop :=
  ∀ name v, d.get? name = some v →
    (∃ u : Layout, u.Fits ∧ l.defaults i.name name = some u.bytes) ∧
      ∀ u : Layout, u.Fits → l.defaults i.name name = some u.bytes → l.Origin u v

/-- Answers that have come from the source of defaults. -/
def AnswersFromSource (l : Loader) (D : Interface → Option Annotation) : Prop :=
  ∀ i d, l.types.Knows i → D i = some d → l.FromSource i d

variable {D : Interface → Option Annotation} {left : Nat}

/-- An annotation that was put together from pairs and completed from the source of defaults. -/
lemma origin_completed {typeName : Chunk} {pairs : List (Chunk × Layout)} {a : Annotation}
    (own : ∀ {name v}, a.get? name = some v → (Layout.nested typeName pairs).Names name)
    (named : ∀ {name}, (Layout.nested typeName pairs).Names name → a.contains name = true)
    (inside : ∀ {p name v}, p ∈ pairs → p.1.text? = some name → a.get? name = some v →
      l.Origin p.2 v)
    (same : a.typeName = i.name) (source : l.FromSource i d) :
    l.Origin (.nested typeName pairs) (.nested (completed a d)) := by
  have fromDefaults : ∀ {name v}, ¬ (Layout.nested typeName pairs).Names name →
      (completed a d).get? name = some v → d.get? name = some v := by
    intro name v omitted found
    rw [get?_completed, Option.or_eq_some_iff] at found
    exact (found.resolve_left fun found => omitted (own found)).2
  have fromPairs : ∀ {name v}, (Layout.nested typeName pairs).Names name →
      (completed a d).get? name = some v → a.get? name = some v := by
    intro name v names found
    obtain ⟨w, there⟩ := Option.isSome_iff_exists.1 (named names)
    rw [get?_completed, there, Option.some_or] at found
    rw [there, found]
  refine .nested (fun name has => ?_) (fun name names => ?_) (fun name v u found laid => ?_)
  · rw [typeName_completed, same]
    by_cases names : (Layout.nested typeName pairs).Names name
    · obtain ⟨p, mem, named⟩ := names
      exact ⟨p.2, .pair mem named⟩
    · obtain ⟨v, found⟩ := Option.isSome_iff_exists.1 has
      obtain ⟨u, fits, stored⟩ := (source name v (fromDefaults names found)).1
      exact ⟨u, .default names fits stored⟩
  · have there := named names
    rw [contains] at there ⊢
    rw [get?_completed, Option.isSome_or, there, Bool.true_or]
  · rw [typeName_completed, same] at laid
    cases laid with
    | pair mem named => exact inside mem named (fromPairs ⟨_, mem, named⟩ found)
    | default omitted fits stored =>
        exact (source name v (fromDefaults omitted found)).2 _ fits stored

variable (answers : l.AnswersFromSource D)

include answers

/-- An annotation that is read from some pairs has its elements from them or from the defaults. -/
lemma origin_of_body? {typeName : Chunk} {pairs : List (Chunk × Layout)}
    (inside : ∀ p ∈ pairs, ∀ v, p.2.value? l.types D left = some v → l.Origin p.2 v)
    {b : Annotation} (read : body? l.types D typeName
      (fun i a => Layout.elements? l.types D left i pairs a) = some b) :
    l.Origin (.nested typeName pairs) (.nested b) := by
  obtain ⟨name, -, read⟩ := Option.bind_eq_some_iff.1 read
  obtain ⟨i, found, read⟩ := Option.bind_eq_some_iff.1 read
  obtain ⟨a, added, read⟩ := Option.bind_eq_some_iff.1 read
  have adds := Layout.adds_of_elements? added
  have same : a.typeName = i.name :=
    adds.typeName.trans (l.types.name_of_annotation? found).symm
  have origin : ∀ {d}, l.FromSource i d →
      l.Origin (.nested typeName pairs) (.nested (completed a d)) := by
    refine origin_completed (fun found => (adds.only found).resolve_left ?_) ?_ ?_ same
    · simp [get?_empty]
    · rintro n ⟨p, mem, named⟩
      obtain ⟨_, v, named', -, found⟩ := adds.gives p mem
      rw [named] at named'
      cases named'
      rw [contains, found, Option.isSome_some]
    · exact fun mem named found => inside _ mem _ (adds.value?_eq mem named found)
  split_ifs at read
  · obtain ⟨d, answered, read⟩ := Option.bind_eq_some_iff.1 read
    cases read
    exact origin (answers i d (TypeLookup.knows_of_annotation? found) answered)
  · cases read
    -- Nothing is lacking, which is to be completed from nothing.
    exact origin (d := .empty i.name) fun name v found => absurd found (by simp [get?_empty])

/-- A value has come from the layout that it is read from. -/
theorem origin_of_value? (fits : t.Fits) :
    ∀ left v, t.value? l.types D left = some v → l.Origin t v := by
  induction fits with
  | word tag payload wide =>
      intro left v read
      refine .plain fun a same => ?_
      rw [Layout.value?, same] at read
      cases tag <;> simp [Tag.word?] at read
  | string | classRef | enum =>
      intro left v read
      refine .plain fun a same => ?_
      rw [Layout.value?, same] at read
      simp at read
  | nested few inside ih =>
      rintro (_ | left) v read
      · rw [Layout.value?] at read
        cases read
      · rw [Layout.value?] at read
        obtain ⟨b, put, rfl⟩ := Option.map_eq_some_iff.1 read
        exact origin_of_body? answers (fun p mem => ih p mem left) put
  | array few inside ih =>
      rintro (_ | left) v read
      · rw [Layout.value?] at read
        cases read
      · refine .plain fun a same => ?_
        rw [Layout.value?, same] at read
        simp at read

/-- An annotation that stands by itself has the same origin as one that is nested. -/
lemma origin_of_annotation? (fits : t.Fits) {a : Annotation}
    (read : t.annotation? l.types D = some a) : l.Origin t (.nested a) := by
  cases fits with
  | nested few inside =>
      rw [Layout.annotation?] at read
      exact origin_of_body? answers
        (fun p mem => origin_of_value? answers (inside p mem) _) read
  | _ =>
      rw [Layout.annotation?] at read
      · cases read
      · simp

/-- Each annotation of a member has its origin in the layout in its own place. -/
lemma origins_of_annotations? : ∀ {items : List Layout} {annotations : List Annotation},
    (∀ t ∈ items, t.Fits) → Layout.annotations? l.types D items = some annotations →
      List.Forall₂ (fun t a => l.Origin t (.nested a)) items annotations
  | [], annotations, _, read => by
      rw [Layout.annotations?] at read
      cases read
      exact .nil
  | t :: items, annotations, fits, read => by
      rw [Layout.annotations?] at read
      obtain ⟨a, first, read⟩ := Option.bind_eq_some_iff.1 read
      obtain ⟨others, rest, rfl⟩ := Option.map_eq_some_iff.1 read
      obtain ⟨here, there⟩ := List.forall_mem_cons.1 fits
      exact .cons (origin_of_annotation? answers here first) (origins_of_annotations? there rest)

omit answers

/-! ## Defaults -/

/-- What a computation returns, it returns from some registry. -/
lemma ensures_returned {α : Type} (p : Load α) :
    Ensures (fun _ => True) p fun a => ∃ s, returned (p s) = some a := by
  intro s _
  cases ran : p s with
  | ok a s' => exact ⟨⟨s, by rw [ran]; rfl⟩, trivial⟩
  | error e s' => trivial

/-- Every default that was decoded was read from the bytes of a default. -/
lemma ensures_decodeDefaults_read (f : Interface → Load Annotation) (interface : String) :
    ∀ (elements : List Element) (a : Annotation),
    Ensures (fun _ => True) (l.decodeDefaults f interface elements a) fun d =>
      ∀ name v, d.get? name = some v → a.get? name = some v ∨
        ∃ bytes s, l.defaults interface name = some bytes ∧
          returned (readAll (readValue l.types f nestingLimit) bytes s) = some v
  | [], a => Ensures.pure fun _ _ => .inl
  | e :: elements, a => by
      rw [decodeDefaults]
      cases stored : l.defaults interface e.name with
      | none => exact ensures_decodeDefaults_read f interface elements a
      | some bytes =>
          refine ((ensures_returned _).adaptExcept _).bind fun w ran => ?_
          obtain ⟨s, read⟩ := ran
          split_ifs
          · refine (ensures_decodeDefaults_read f interface elements _).weaken fun d all => ?_
            intro name v found
            rcases all name v found with found | later
            · rw [get?_insert] at found
              split_ifs at found with same
              · cases found
                exact .inr ⟨bytes, s, same ▸ stored, read⟩
              · exact .inl found
            · exact .inr later
          · exact Ensures.throw _

/-- What agrees with itself is the same answer in every registry. -/
lemma makes_of_agrees {p : Load Annotation} (agrees : Agrees p p) :
    Makes (fun _ => True) (Read.ofLoad p) [] (returned (p .empty)) := by
  cases ran : p .empty with
  | ok d s =>
      intro offset rest r _
      obtain ⟨r', ran'⟩ := (agrees.ok ran).pure_at r
      exact ⟨r', by simp [Read.ofLoad, ran'], trivial⟩
  | error e s =>
      intro offset rest r _
      cases ran' : p r with
      | ok d r' =>
          obtain ⟨_, ran''⟩ := (agrees.ok ran').pure_at .empty
          rw [ran] at ran''
          cases ran''
      | error e' r' => exact ⟨e', ⟨offset, rest, r'⟩, by simp [Read.ofLoad, ran']⟩

/-- Defaults that were decoded have come from the source of defaults, if the answers have that were
given on the way. -/
lemma fromSource_of_decodeDefaults {f : Interface → Load Annotation}
    (answers : Answers (fun _ => True) l.types f D) (source : l.AnswersFromSource D)
    {s s' : Registry}
    (ran : l.decodeDefaults f i.name i.elements (.empty i.name) s = .ok d s') :
    l.FromSource i d := by
  have all := ((ensures_decodeDefaults_read f i.name i.elements _).ok trivial ran).1
  intro name v found
  obtain ⟨bytes, t, stored, read⟩ := (all name v found).resolve_left (by simp [get?_empty])
  obtain ⟨t', ran'⟩ := exists_of_returned read
  obtain ⟨u, fits, rfl⟩ := (takesLayout_readValue nestingLimit).of_readAll ran'
  refine ⟨⟨u, fits, stored⟩, fun w fits' stored' => ?_⟩
  rw [stored] at stored'
  rw [Option.some.inj stored'] at read
  have made := (makes_readValue answers fits' nestingLimit).returned_readAll (r := t) trivial
  exact origin_of_value? source fits' nestingLimit v (made.symm.trans read)

/-- Every entry of the module has come from the source of defaults. -/
def EntriesFromSource (l : Loader) (r : Registry) : Prop :=
  ∀ i a, l.types.Knows i → r.get? i.name l.token = some a → l.FromSource i a

lemma entriesFromSource_empty : l.EntriesFromSource .empty := fun _ _ _ h => nomatch h

/-- The defaults of an interface as they are computed from `base`. -/
def answerFrom? (l : Loader) (base : Registry) (n : Nat) (i : Interface) : Option Annotation :=
  returned (l.defaultsFrom base n i .empty)

/-- Defaults that are computed anew from such entries have come from the source as well. -/
lemma answersFromSource_answerFrom? (entries : l.EntriesFromSource base) (n : Nat) :
    l.AnswersFromSource (l.answerFrom? base n) := by
  induction n with
  | zero =>
      intro i d known answered
      rw [answerFrom?, defaultsFrom] at answered
      cases cached : base.get? i.name l.token with
      | some a =>
          rw [cached] at answered
          cases answered
          exact entries i d known cached
      | none =>
          rw [cached] at answered
          cases answered
  | succ n ih =>
      intro i d known answered
      rw [answerFrom?] at answered
      cases cached : base.get? i.name l.token with
      | some a =>
          rw [defaultsFrom_of_present cached] at answered
          cases answered
          exact entries i d known cached
      | none =>
          rw [defaultsFrom_of_absent cached] at answered
          obtain ⟨s, ran⟩ := exists_of_returned answered
          have answers : Answers (fun _ => True) l.types (l.defaultsFrom base n)
              (l.answerFrom? base n) := fun i _ => makes_of_agrees (defaultsFrom_agrees_self n i)
          exact fromSource_of_decodeDefaults answers ih ran

/-- An entry that is computed from such entries. -/
lemma fromSource_of_agrees (entries : l.EntriesFromSource base) (known : l.types.Knows i)
    (value : Agrees (pure d) (l.settledDefaults base i)) : l.FromSource i d := by
  obtain ⟨s, ran⟩ := value.pure_at .empty
  refine answersFromSource_answerFrom? entries l.types.interfaceNames.length i d known ?_
  rw [settledDefaults] at ran
  rw [answerFrom?, ran]
  rfl

/-- The defaults that a loader has with a registry. -/
lemma answersFromSource_answer? (entries : l.EntriesFromSource r) :
    l.AnswersFromSource (l.answer? r) := by
  intro i d known answered
  obtain ⟨r', loaded⟩ := exists_of_returned answered
  have down := defaultsWithin_follows l.types.interfaceNames.length i known r .empty
    (l.coherent_self r)
  rw [defaultsFor] at loaded
  simp only [loaded] at down
  obtain ⟨t, computed, -⟩ := down
  exact fromSource_of_agrees entries known ((defaultsFrom_agrees_self _ i).ok computed)

end Loader

/-! ## Registries in use -/

/-- One registry, with an invariant. -/
def Kept (I : Registry → Prop) (r t : Registry) : Prop := r = t ∧ I r

/-- A computation that keeps an invariant leaves equal registries equal, and with the invariant. -/
lemma sameFrom_kept {ε α : Type} {I : Registry → Prop} {p : WithRegistry ε α}
    (keeps : ∀ r, I r → I (leftBy p r)) : SameFrom (Kept I) p := by
  refine .of_results ?_
  rintro r _ ⟨rfl, holds⟩
  have left := keeps r holds
  rw [leftBy] at left
  cases ran : p r with
  | ok a r' =>
      rw [ran] at left
      exact .inl ⟨a, r', r', rfl, rfl, rfl, left⟩
  | error e r' =>
      rw [ran] at left
      exact .inr ⟨e, r', r', rfl, rfl, rfl, left⟩

namespace Loader

/-- Loading defaults leaves a coherent registry, also where it fails. -/
lemma sameFrom_defaultsWithin_coherent (n : Nat) : ∀ i, l.types.Knows i →
    SameFrom (Kept (l.Coherent base)) (l.defaultsWithin n i) := by
  induction n with
  | zero =>
      refine fun i known => sameFrom_kept fun r coherent => ?_
      rw [leftBy]
      cases cached : r.get? i.name l.token with
      | some a => rwa [defaultsWithin_of_present cached]
      | none => rwa [defaultsWithin_zero_of_absent cached]
  | succ n ih =>
      refine fun i known => sameFrom_kept fun r coherent => ?_
      rw [leftBy]
      cases cached : r.get? i.name l.token with
      | some a => rwa [defaultsWithin_of_present cached]
      | none =>
          have computes : SameFrom (Kept (l.Coherent base))
              (l.decodeDefaults (l.defaultsWithin n) i.name i.elements (.empty i.name)) :=
            ⟨followsUpTo_decodeDefaults (fun _ => trivial) (fun i known => (ih i known).follows)
              _ _ _⟩
          rcases computes.results ⟨rfl, coherent⟩ with
            ⟨a, r', _, ran, -, -, coherent'⟩ | ⟨e, r', _, ran, -, -, coherent'⟩
          · have follows := defaultsWithin_follows (n + 1) i known r r coherent
            rw [defaultsWithin, Registry.getOrPopulate_of_ok cached ran] at follows ⊢
            cases later : r'.get? i.name l.token with
            | some b => exact coherent'
            | none =>
                simp only [later] at follows
                obtain ⟨_, -, next⟩ := follows
                exact next
          · rwa [defaultsWithin, Registry.getOrPopulate_of_error cached ran]

/-- After any operation that removes nothing the registry is coherent with the one before it. -/
lemma coherent_after (op : Operation) (uses : op.removes = false) :
    l.Coherent r (op.after l r) := by
  have answers : l.AnswersSame (Kept (l.Coherent r)) := sameFrom_defaultsWithin_coherent _
  exact (Operation.same answers ⟨rfl, l.coherent_self r⟩ op uses).2.2

/-- Entries that are added by an operation have come from the source of defaults, too. -/
lemma EntriesFromSource.after (entries : l.EntriesFromSource r) (op : Operation)
    (uses : op.removes = false) : l.EntriesFromSource (op.after l r) :=
  fun _ _ known found => fromSource_of_agrees entries known
    ((coherent_after op uses).entries known found)

end Loader

/-- The attribute of a member, taken apart into the layouts of its annotations. -/
structure Attribute.IsLaidOut (bytes : List UInt8) (items : List Layout) : Prop where
  few : items.length < UInt16.size
  fits : ∀ t ∈ items, t.Fits
  same : Layout.memberBytes items = bytes

namespace Modules

variable {M : Modules} {token : ModuleToken}

/-- Whatever the modules did before, the entries that one of them finds come from its own source. -/
lemma entriesFromSource_registryAfter (M : Modules) (token : ModuleToken)
    (steps : List (ModuleToken × Operation)) :
    (M.loader token).EntriesFromSource (M.registryAfter steps) := by
  refine registryAfter_induction Loader.entriesFromSource_empty (fun fewer entries => ?_)
    (fun op uses entries => entries.after op uses) steps
  intro i a known found
  rw [M.token_loader] at found
  refine entries i a known ?_
  rw [M.token_loader]
  exact fewer i.name a found

/-- **Where decoded annotations come from.**  Whatever modules have used the registry, the
annotations that are read from the bytes of some layouts have come from these layouts. -/
theorem origin_of_decodeMember {steps : List (ModuleToken × Operation)} {bytes : List UInt8}
    {items : List Layout} (laid : IsLaidOut bytes items) {annotations : List Annotation}
    {r' : Registry} (ran : (M.loader token).decodeMember bytes (M.registryAfter steps)
      = .ok annotations r') :
    List.Forall₂ (fun t a => (M.loader token).Origin t (.nested a)) items annotations := by
  have source := Loader.answersFromSource_answer? (entriesFromSource_registryAfter M token steps)
  have made := (makes_readMember ((M.loader token).answers (M.registryAfter steps)) laid.few
    laid.fits).returned_readAll ((M.loader token).coherent_self _)
  rw [laid.same, ← Loader.decodeMember, ran] at made
  exact Loader.origins_of_annotations? source laid.fits made.symm

end Modules

end DocAnnotations
