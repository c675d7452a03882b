import DocAnnotations.Proofs.Attribute.Faults
import DocAnnotations.Proofs.Cycles
import DocAnnotations.Proofs.Defaults.Final
import DocAnnotations.Proofs.Defaults.Grounded

/-!
# Loading defaults does not recurse

Decoding completes annotations from defaults, and loading defaults decodes; nothing in the two
functions keeps them from calling each other without end.  What does is in the stored bytes.  An
interface reaches others through the types of its elements, and never itself, since references have
no cycles.  Its defaults were resolved for these types, so they hold annotations of such interfaces
only, and each of them has all of its elements (`TypeIndex.HoldsComplete`).  There is nothing to
complete in them.

**`defaults_nonrecursive`**: decoding the defaults of an interface comes to the same whatever stands
for loading those of others, so that one step of loading is all of it; and with every registry,
literals and bytes come to an end.
-/

namespace DocAnnotations

open Attribute

/-! ## What defaults hold -/

/-- A value in a default of an interface, at any depth.  If it is an annotation, it has exactly the
elements that its own interface declares, and that is reached from the interface of the default,
step by step, and is another. -/
def TypeIndex.HoldsComplete (index : TypeIndex) (interface : String) (v : Value) : Prop :=
  ∀ a, v = .nested a →
    (∃ i, index.annotation? a.typeName = some i
      ∧ ∀ name, a.contains name = true ↔ ∃ e ∈ i.elements, e.name = name)
    ∧ Relation.TransGen (Refers index.references) interface a.typeName ∧ a.typeName ≠ interface

variable {schema : Schema} {index : TypeIndex}

/-- No interface of a loaded index reaches itself. -/
lemma TypeIndex.acyclic_of_ofSchema (loaded : TypeIndex.ofSchema schema = .ok index)
    {i : Interface} {name : String} (found : index.annotation? name = some i) :
    ¬ Relation.TransGen (Refers index.references) name name := by
  obtain ⟨order, ordered, -, all⟩ := isDependencyOrder_of_ofSchema loaded
  have listed := all i (index.mem_of_annotation? found)
  rw [index.name_of_annotation? found] at listed
  exact ordered.acyclic name listed

/-- Every stored default is what some literal for its element comes to. -/
lemma exists_defaultIs_of_stored (loaded : TypeIndex.ofSchema schema = .ok index)
    (token : ModuleToken) {interface element : String} {bytes : List UInt8}
    (stored : index.defaults.get? interface element = some bytes) :
    ∃ i e literal, index.annotation? interface = some i ∧ i.element? element = some e
      ∧ (index.loader token).DefaultIs i e literal bytes := by
  obtain ⟨d, declared, rfl, e', mem, rfl, literal, default⟩ :=
    exists_declared_of_stored loaded stored
  obtain ⟨i, compiled, finals⟩ := exists_compilesTo loaded token declared
  obtain ⟨e, known, -⟩ := finals.element? (TypeIndex.declaresOnce loaded) mem
  obtain ⟨bytes', there, final⟩ := finals.each e' mem literal e default known
  cases stored.symm.trans ((finals.stored _ _).2 there)
  exact ⟨i, e, literal, finals.found, known, final⟩

/-- The value of a default has the type of its element, and holds complete annotations only. -/
lemma holdsComplete_of_defaultIs (loaded : TypeIndex.ofSchema schema = .ok index)
    (token : ModuleToken) {interface literal : String} {i : Interface} {e : Element}
    {bytes : List UInt8} (found : index.annotation? interface = some i) (mem : e ∈ i.elements)
    (is : (index.loader token).DefaultIs i e literal bytes) :
    ∃ v, valueBytes v = .ok bytes ∧ v.conforms e.type = true
      ∧ v.Everywhere (index.HoldsComplete interface) := by
  obtain ⟨node, v, r, -, ran, written⟩ := is
  have keeps : (index.loader token).Keeps index.lookup.Resolved :=
    keeps_of_ofSchema loaded (suits_resolved loaded) token
  obtain ⟨⟨typed, resolved⟩, -⟩ := (ensures_resolveValue keeps.keepsWith i.name e.name node
    e.type).ok Loader.holds_empty ran
  have reached : v.Everywhere fun w => ∀ a, w = .nested a →
      Relation.TransGen (Refers index.references) interface a.typeName := by
    refine named_of_conforms index.lookup ?_ typed ?_ resolved
    · exact fun name far j found e mem r refers =>
        far.tail (TypeIndex.mem_references.2 ⟨j, found, e, mem, refers⟩)
    · exact fun r refers => .single (TypeIndex.mem_references.2 ⟨i, found, e, mem, refers⟩)
  refine ⟨v, written, typed, (resolved.and reached).mono ?_⟩
  rintro _ ⟨complete, far⟩ a rfl
  obtain ⟨j, found', -, has, -⟩ := complete
  refine ⟨⟨j, found', has⟩, far a rfl, fun same => ?_⟩
  exact TypeIndex.acyclic_of_ofSchema loaded found (same ▸ far a rfl)

/-! ## Loading -/

/-- No error that is not about defaults comes from a limit on the loads under way. -/
lemma admitsOwn_settled : AdmitsOwn ReadError.Settled := by
  intro e own
  cases e <;> trivial

/-- **Loading defaults never recurses.**  Over a loaded index with its own defaults, every stored
default was written from a value of the type of its element, in which annotations have all elements
of their interfaces, and only others that its own interface reaches.  Decoding the defaults of an
interface comes to the same, and leaves the registry alone, whatever function `f` stands for loading
the defaults of others, and so does loading them.  With every registry, compiling a literal and
decoding bytes end, never for a limit on the loads under way. -/
theorem defaults_nonrecursive (loaded : TypeIndex.ofSchema schema = .ok index)
    (token : ModuleToken) :
    let l := index.loader token
    (∀ interface element bytes, index.defaults.get? interface element = some bytes →
      ∃ i e v, index.annotation? interface = some i ∧ i.element? element = some e
        ∧ valueBytes v = .ok bytes ∧ v.conforms e.type = true
        ∧ v.Everywhere (index.HoldsComplete interface)) ∧
    (∀ i, l.types.Knows i → ∃ x, (∀ e, x = .error e → e.Settled) ∧
      ∀ f, l.decodeDefaults f i.name i.elements (.empty i.name) = MonadExcept.ofExcept x
        ∧ Registry.getOrPopulate i.name l.token
            (l.decodeDefaults f i.name i.elements (.empty i.name)) = l.defaultsFor i) ∧
    (∀ text, Finishes CompileError.Settled (compileLiteral l text)) ∧
    ∀ bytes, Finishes ReadError.Settled (l.decode bytes)
      ∧ Finishes ReadError.Settled (l.decodeValue bytes)
      ∧ Finishes ReadError.Settled (l.decodeMember bytes) := by
  intro l
  have ends : l.DefaultsEnd := defaultsEnd_of_ofSchema loaded token
  refine ⟨fun interface element bytes stored => ?_, fun i known => ?_, ends.compileLiteral,
    fun bytes => ⟨finishes_decode admitsOwn_settled ends bytes,
      finishes_decodeValue admitsOwn_settled ends bytes,
      finishes_decodeMember admitsOwn_settled ends bytes⟩⟩
  · obtain ⟨i, e, literal, found, known, is⟩ := exists_defaultIs_of_stored loaded token stored
    obtain ⟨v, written, typed, holds⟩ := holdsComplete_of_defaultIs loaded token found
      (Interface.mem_of_element? known).1 is
    exact ⟨i, e, v, found, known, written, typed, holds⟩
  · obtain ⟨x, settled, decodes⟩ := exists_decodesTo_of_ofSchema loaded token i
    refine ⟨x, fun e same => ?_, fun f => ⟨decodes.decodeDefaults_eq f, ?_⟩⟩
    · subst same
      exact settled
    · rw [decodes.decodeDefaults_eq, decodes.defaultsFor_eq known]

/-- The default of the outer interface holds an annotation of the inner one, which has a default of
its own and has it already. -/
theorem defaults_nonrecursive_nestedSchema :
    TypeIndex.ofSchema nestedSchema = .ok nestedIndex
    ∧ nestedIndex.defaults.get? "p.A" "at"
      = some [64, 0, 3, 112, 46, 66, 0, 1, 0, 1, 120, 73, 0, 0, 0, 7]
    ∧ (∃ v, valueBytes v = .ok [64, 0, 3, 112, 46, 66, 0, 1, 0, 1, 120, 73, 0, 0, 0, 7]
      ∧ v.Everywhere (nestedIndex.HoldsComplete "p.A"))
    ∧ ∀ text, Finishes CompileError.Settled (compileLiteral (nestedIndex.loader ⟨0⟩) text) := by
  have loaded : TypeIndex.ofSchema nestedSchema = .ok nestedIndex := by decide +kernel
  have stored : nestedIndex.defaults.get? "p.A" "at"
      = some [64, 0, 3, 112, 46, 66, 0, 1, 0, 1, 120, 73, 0, 0, 0, 7] := by decide +kernel
  obtain ⟨holds, -, literals, -⟩ := defaults_nonrecursive loaded ⟨0⟩
  obtain ⟨i, e, v, -, -, written, -, complete⟩ := holds _ _ _ stored
  exact ⟨loaded, stored, ⟨v, written, complete⟩, literals⟩

end DocAnnotations
