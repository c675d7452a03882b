import DocAnnotations.Proofs.Defaults.Final
import DocAnnotations.Proofs.Defaults.Grounded

/-!
# What becomes of a declared default

A schema declares defaults as literals, and an index stores bytes.

**The value of a default.**  `Schema.Default` is the declaration, and `Loader.LiteralIs` says which
value the literal has when nothing is loaded, one at most.  `Loader.Supplies` says that the bytes
which are stored for an element are those of a value.

**Decoding the defaults of an interface.**  Decoding the bytes gives the value back, unless it is
nested more deeply than the reader goes.  **`decodesTo_or_tooDeep`** puts this together for an
interface: its defaults decode to an annotation that has, under the name of every element with a
default, the value of its literal; or the first default that is nested too deeply is refused.

**Loaded indexes.**  The index of a schema supplies the values of the literals in it, and nothing
else (`supplies_of_default`, `default_of_stored`).
-/

namespace DocAnnotations

open Attribute

/-! ## The value of a default -/

/-- What the literal of a default comes to when nothing is loaded. -/
def Loader.LiteralIs (l : Loader) (i : Interface) (e : Element) (literal : String) (v : Value) :
    Prop :=
  ∃ node r, Node.parse literal = .ok node ∧
    resolveValue l i.name e.name node e.type .empty = .ok v r

/-- A schema declares a default for an element, and its literal comes to a value. -/
def Schema.Default (schema : Schema) (l : Loader) (i : Interface) (e : Element) (v : Value) :
    Prop :=
  ∃ d ∈ schema.annotations, d.name = i.name ∧ ∃ e' ∈ d.elements, e'.name = e.name ∧
    ∃ literal, e'.default = some literal ∧ l.LiteralIs i e literal v

/-- A value that the stored default of an element was written from, and that is read back unless it
is too deep. -/
structure Loader.Supplies (l : Loader) (i : Interface) (e : Element) (v : Value) : Prop where
  stored : ∃ bytes, l.defaults i.name e.name = some bytes ∧ valueBytes v = .ok bytes
  typed : v.conforms e.type = true
  unchanged : v.Everywhere l.types.Unchanged

variable {l : Loader} {i : Interface} {e : Element} {v w : Value} {literal : String}
  {bytes : List UInt8}

/-- A literal is one value at most, as resolution is a function and nothing is loaded. -/
lemma Loader.LiteralIs.unique (h : l.LiteralIs i e literal v) (h' : l.LiteralIs i e literal w) :
    v = w := by
  obtain ⟨node, r, parsed, ran⟩ := h
  obtain ⟨node', r', parsed', ran'⟩ := h'
  cases parsed.symm.trans parsed'
  cases ran.symm.trans ran'
  rfl

/-- The bytes of a value that is read back are those of no other such value. -/
lemma Loader.Supplies.unique (once : l.types.DeclaresOnce) (h : l.Supplies i e v)
    (h' : l.Supplies i e w) : v = w := by
  obtain ⟨bytes, stored, written⟩ := h.stored
  obtain ⟨bytes', stored', written'⟩ := h'.stored
  cases stored.symm.trans stored'
  -- With as many levels as the deeper of them needs, the reader makes both of the bytes.
  have back : ∀ u : Value, u.Everywhere l.types.Unchanged → valueBytes u = .ok bytes →
      u.depth ≤ max v.depth w.depth → ∃ r,
        readAll (readValue l.types l.defaultsFor (max v.depth w.depth)) bytes .empty = .ok u r := by
    intro u unchanged written enough
    obtain ⟨r, -, ran⟩ := comes_reread_of_unchanged (I := fun _ => True) (f := l.defaultsFor) once
      unchanged (max v.depth w.depth) .empty trivial
    rw [withinLevels_of_le enough] at ran
    exact ⟨r, by rw [readAll_of_readsAs (readsAs_readValue u _ written)]; exact ran⟩
  obtain ⟨r, ran⟩ := back v h.unchanged written (Nat.le_max_left _ _)
  obtain ⟨r', ran'⟩ := back w h'.unchanged written' (Nat.le_max_right _ _)
  cases ran.symm.trans ran'
  rfl

/-! ## Decoding the defaults of an interface -/

/-- A stored default is decoded to its value, unless that is too deep. -/
lemma Loader.Supplies.comes {I : Registry → Prop} {f : Interface → Load Annotation}
    (once : l.types.DeclaresOnce) (h : l.Supplies i e v) (stored : l.defaults i.name e.name
      = some bytes) : Comes I (readAll (readValue l.types f nestingLimit) bytes)
        (withinLevels v.depth nestingLimit v) := by
  obtain ⟨bytes', stored', written⟩ := h.stored
  cases stored.symm.trans stored'
  rw [readAll_of_readsAs (readsAs_readValue v nestingLimit written)]
  exact comes_reread_of_unchanged once h.unchanged nestingLimit

section

variable {I : Registry → Prop} {f : Interface → Load Annotation} {elements : List Element}
  {a : Annotation}

/-- An element without a stored default is passed over. -/
lemma Loader.decodeDefaults_of_none (stored : l.defaults i.name e.name = none) :
    l.decodeDefaults f i.name (e :: elements) a = l.decodeDefaults f i.name elements a := by
  rw [decodeDefaults, stored]

/-- The value of a stored default goes to its element, and the decoding of the others goes on with
it. -/
lemma Loader.Supplies.decodeDefaults (once : l.types.DeclaresOnce) (h : l.Supplies i e v)
    (enough : v.depth ≤ nestingLimit) {x : Except ReadError Annotation}
    (rest : Comes I (l.decodeDefaults f i.name elements (a.insert e.name v)) x) :
    Comes I (l.decodeDefaults f i.name (e :: elements) a) x := by
  obtain ⟨bytes, stored, -⟩ := h.stored
  have item := (h.comes (I := I) (f := f) once stored).adaptExcept
    (.invalidDefault i.name e.name)
  rw [withinLevels_of_le enough] at item
  simp only [Loader.decodeDefaults, stored]
  refine item.bind ?_
  rwa [if_pos h.typed]

/-- A stored default that is nested too deeply ends the decoding, with an error that names its
element. -/
lemma Loader.Supplies.decodeDefaults_tooDeep (once : l.types.DeclaresOnce) (h : l.Supplies i e v)
    (deep : nestingLimit < v.depth) : Comes I (l.decodeDefaults f i.name (e :: elements) a)
      (.error (.invalidDefault i.name e.name (.tooDeep nestingLimit))) := by
  obtain ⟨bytes, stored, -⟩ := h.stored
  have item := (h.comes (I := I) (f := f) once stored).adaptExcept
    (.invalidDefault i.name e.name)
  rw [withinLevels_of_lt deep] at item
  simp only [Loader.decodeDefaults, stored]
  exact item.bind_error

end

/-- Defaults are decoded in declared order, up to the first that is too deep.  Elements are declared
once, so that no value is put in the place of another. -/
lemma Loader.decodes_or_tooDeep (once : l.types.DeclaresOnce) : ∀ (elements : List Element)
    (a : Annotation), (elements.map Element.name).Nodup →
    (∀ e ∈ elements, (l.defaults i.name e.name).isSome → ∃ v, l.Supplies i e v) →
    (∃ d, (∀ (I : Registry → Prop) (f : Interface → Load Annotation),
        Comes I (l.decodeDefaults f i.name elements a) (.ok d))
      ∧ (∀ e ∈ elements, ∀ v, l.Supplies i e v → v.depth ≤ nestingLimit ∧ d.get? e.name = some v)
      ∧ ∀ name ∉ elements.map Element.name, d.get? name = a.get? name) ∨
    ∃ e ∈ elements, ∃ v, l.Supplies i e v ∧ nestingLimit < v.depth ∧
      ∀ (I : Registry → Prop) (f : Interface → Load Annotation),
        Comes I (l.decodeDefaults f i.name elements a)
          (.error (.invalidDefault i.name e.name (.tooDeep nestingLimit)))
  | [], a, _, _ => .inl ⟨a, fun _ _ => .pure a, by simp, fun _ _ => rfl⟩
  | e :: elements, a, nodup, supplied => by
      rw [List.map_cons, List.nodup_cons] at nodup
      obtain ⟨here, others⟩ := List.forall_mem_cons.1 supplied
      have rest := fun a => decodes_or_tooDeep once elements a nodup.2 others
      by_cases given : ∃ v, l.Supplies i e v
      · obtain ⟨v, supplies⟩ := given
        by_cases enough : v.depth ≤ nestingLimit
        · rcases rest (a.insert e.name v) with
            ⟨d, comes, values, frame⟩ | ⟨e', mem, w, supplies', deep, comes⟩
          · have own : d.get? e.name = some v := by
              rw [frame e.name nodup.1, Annotation.get?_insert, if_pos rfl]
            refine .inl ⟨d, fun I f => supplies.decodeDefaults once enough (comes I f),
              List.forall_mem_cons.2 ⟨fun w supplies' => ?_, values⟩, fun name out => ?_⟩
            · cases supplies.unique once supplies'
              exact ⟨enough, own⟩
            · rw [List.map_cons, List.mem_cons, not_or] at out
              rw [frame name out.2, Annotation.get?_insert, if_neg (Ne.symm out.1)]
          · exact .inr ⟨e', List.mem_cons_of_mem _ mem, w, supplies', deep,
              fun I f => supplies.decodeDefaults once enough (comes I f)⟩
        · have deep := Nat.not_le.1 enough
          exact .inr ⟨e, List.mem_cons_self, v, supplies, deep,
            fun I f => supplies.decodeDefaults_tooDeep once deep⟩
      · have stored : l.defaults i.name e.name = none :=
          Option.not_isSome_iff_eq_none.1 fun some => given (here some)
        simp only [decodeDefaults_of_none stored]
        rcases rest a with ⟨d, comes, values, frame⟩ | ⟨e', mem, v, supplies, deep, comes⟩
        · exact .inl ⟨d, comes,
            List.forall_mem_cons.2 ⟨fun v supplies => (given ⟨v, supplies⟩).elim, values⟩,
            fun name out => frame name fun mem => out (List.mem_cons_of_mem _ mem)⟩
        · exact .inr ⟨e', List.mem_cons_of_mem _ mem, v, supplies, deep, comes⟩

/-- **The defaults of an interface.**  Either they decode to an annotation with the value of each
default under the name of its element, or one of them is refused because it is too deep. -/
theorem Loader.decodesTo_or_tooDeep (once : l.types.DeclaresOnce) (known : l.types.Knows i)
    (supplied : ∀ e ∈ i.elements, (l.defaults i.name e.name).isSome → ∃ v, l.Supplies i e v) :
    (∃ d, l.DecodesTo i (.ok d) ∧ ∀ e ∈ i.elements, ∀ v, l.Supplies i e v →
      v.depth ≤ nestingLimit ∧ d.get? e.name = some v) ∨
    ∃ e ∈ i.elements, ∃ v, l.Supplies i e v ∧ nestingLimit < v.depth ∧
      l.DecodesTo i (.error (.invalidDefault i.name e.name (.tooDeep nestingLimit))) := by
  rcases decodes_or_tooDeep once i.elements (.empty i.name) (once i known) supplied with
    ⟨d, comes, values, -⟩ | deep
  · exact .inl ⟨d, comes, values⟩
  · exact .inr deep

/-! ## Loaded indexes -/

section

variable {schema : Schema} {index : TypeIndex} (loaded : TypeIndex.ofSchema schema = .ok index)
  (plain : index.lookup.PlainNames) (token : ModuleToken)

include loaded plain

/-- What a schema declares is stored in its index: the value that the literal comes to, which is
grounded. -/
lemma supplies_of_declared (known : index.lookup.Knows i) (mem : e ∈ i.elements)
    {d : InterfaceDeclaration} (declared : d ∈ schema.annotations) (named : d.name = i.name)
    {e' : ElementDeclaration} (mem' : e' ∈ d.elements) (same : e'.name = e.name)
    (default : e'.default = some literal) :
    ∃ v, (index.loader token).LiteralIs i e literal v ∧ v.Everywhere (index.loader token).Grounded
      ∧ (index.loader token).Supplies i e v := by
  have once := TypeIndex.declaresOnce loaded
  obtain ⟨j, compiled, finals⟩ := exists_compilesTo loaded token declared
  have found := finals.found
  rw [named] at found
  cases found.symm.trans known
  have known' : i.element? e'.name = some e := by
    rw [same]
    exact Interface.element?_of_mem (once i known) mem
  obtain ⟨bytes, there, node, v, r, parsed, ran, written⟩ :=
    finals.each e' mem' literal e default known'
  have stored : index.defaults.get? i.name e.name = some bytes := by
    rw [← named, ← same]
    exact (finals.stored _ _).2 there
  have keeps := (stores_grounded_of_ofSchema loaded plain token).keepsWith once index.findsLoadable
    plain
  obtain ⟨⟨typed, grounded⟩, -⟩ := (ensures_resolveValue keeps i.name e.name node e.type).ok
    ⟨Loader.holds_empty, Loader.computed_empty⟩ ran
  exact ⟨v, ⟨node, r, parsed, ran⟩, grounded, ⟨bytes, stored, written⟩, typed,
    grounded.mono fun _ here => here.1⟩

/-- The values of declared defaults are those that were stored. -/
lemma supplies_of_default (known : index.lookup.Knows i) (mem : e ∈ i.elements)
    (default : schema.Default (index.loader token) i e v) :
    (index.loader token).Supplies i e v := by
  obtain ⟨d, declared, named, e', mem', same, literal, has, is⟩ := default
  obtain ⟨w, is', -, supplies⟩ :=
    supplies_of_declared loaded plain token known mem declared named mem' same has
  cases is.unique is'
  exact supplies

/-- Nothing is stored but what the schema declares. -/
lemma default_of_stored (known : index.lookup.Knows i) (mem : e ∈ i.elements)
    (stored : (index.defaults.get? i.name e.name).isSome) :
    ∃ v, schema.Default (index.loader token) i e v ∧ (index.loader token).Supplies i e v := by
  obtain ⟨bytes, found⟩ := Option.isSome_iff_exists.1 stored
  obtain ⟨d, declared, named, e', mem', same, literal, default⟩ :=
    exists_declared_of_stored loaded found
  obtain ⟨v, is, -, supplies⟩ :=
    supplies_of_declared loaded plain token known mem declared named mem' same default
  exact ⟨v, ⟨d, declared, named, e', mem', same, literal, default, is⟩, supplies⟩

omit plain in
/-- The elements of a declared interface are found in the index. -/
lemma exists_element_of_declared {d : InterfaceDeclaration} (declared : d ∈ schema.annotations)
    {e : ElementDeclaration} (mem : e ∈ d.elements) {i : Interface}
    (found : index.annotation? d.name = some i) :
    ∃ element ∈ i.elements, element.name = e.name := by
  obtain ⟨j, compiled, finals⟩ := exists_compilesTo loaded ⟨0⟩ declared
  cases found.symm.trans finals.found
  obtain ⟨element, known, -⟩ := finals.element? (TypeIndex.declaresOnce loaded) mem
  exact ⟨element, Interface.mem_of_element? known⟩

end

end DocAnnotations
