import DocAnnotations.Proofs.Attribute.Faults
import DocAnnotations.Proofs.Defaults.Declared

/-!
# Defaults that are refused

When a schema is loaded, its defaults are resolved and written, but only those that others need are
ever read.  Resolving and writing know no limit of nesting; the reader does.  So an index may hold a
default that it refuses to decode, and then nothing that needs the defaults of its interface works.

`Schema.TooDeepFor` says that a default of an interface has a literal with such a value, and
`Schema.Refuses` that some error of reading is about one.

**`refused_only_if_too_deep`**: there is no other reason.  Over a loaded index the defaults of an
interface load unless one of them is nested more deeply than the reader goes, no literal fails for
want of defaults otherwise, and no decoding of any bytes fails because of a default otherwise.
-/

namespace DocAnnotations

open Attribute

/-- An error about a declared default of an interface that is nested more deeply than the reader
goes. -/
def Schema.TooDeepFor (schema : Schema) (l : Loader) (i : Interface) (cause : ReadError) : Prop :=
  ∃ e ∈ i.elements, ∃ v, schema.Default l i e v ∧ nestingLimit < v.depth
    ∧ cause = .invalidDefault i.name e.name (.tooDeep nestingLimit)

/-- An error about a declared default of some interface. -/
def Schema.Refuses (schema : Schema) (l : Loader) (cause : ReadError) : Prop :=
  ∃ i, l.types.Knows i ∧ schema.TooDeepFor l i cause

variable {schema : Schema} {index : TypeIndex}

section

variable (loaded : TypeIndex.ofSchema schema = .ok index) (plain : index.lookup.PlainNames)
  (token : ModuleToken) {i : Interface}

include loaded plain

/-- The defaults of an interface load, unless one of them is refused. -/
lemma decodesTo_of_ofSchema (known : index.lookup.Knows i) :
    (∃ d, (index.loader token).DecodesTo i (.ok d) ∧ ∀ e ∈ i.elements, ∀ v,
      schema.Default (index.loader token) i e v → v.depth ≤ nestingLimit) ∨
    ∃ cause, (index.loader token).DecodesTo i (.error cause)
      ∧ schema.TooDeepFor (index.loader token) i cause := by
  rcases Loader.decodesTo_or_tooDeep (l := index.loader token) (TypeIndex.declaresOnce loaded) known
      fun e mem stored => (default_of_stored loaded plain token known mem stored).imp
        fun _ => And.right with ⟨d, decodes, values⟩ | ⟨e, mem, v, supplies, deep, decodes⟩
  · exact .inl ⟨d, decodes, fun e mem v default =>
      (values e mem v (supplies_of_default loaded plain token known mem default)).1⟩
  · obtain ⟨bytes, stored, -⟩ := supplies.stored
    obtain ⟨w, default, supplies'⟩ := default_of_stored loaded plain token known mem
      (Option.isSome_iff_exists.2 ⟨bytes, stored⟩)
    cases supplies.unique (TypeIndex.declaresOnce loaded) supplies'
    exact .inr ⟨_, decodes, e, mem, v, default, deep, rfl⟩

/-- Loading defaults has no errors but about refused ones. -/
lemma failsIn_of_ofSchema : (index.loader token).FailsIn (schema.Refuses (index.loader token)) := by
  intro i known
  rcases decodesTo_of_ofSchema loaded plain token known with ⟨d, decodes, -⟩ | ⟨_, decodes, deep⟩
  · exact finishes_defaultsFor known decodes nofun
  · refine finishes_defaultsFor known decodes ?_
    rintro _ ⟨⟩
    exact ⟨i, known, deep⟩

end

/-- **Defaults load unless they are nested too deeply.**  Over a loaded index with plain type names,
and after any operations: the literal of every declared default has a value; the defaults of an
interface load if and only if none of these values is nested more deeply than the reader goes, and
otherwise one that is comes with the error; no literal fails for defaults that do not load, and no
decoding for one that is invalid, except with the error of a declared default that is nested too
deeply. -/
theorem refused_only_if_too_deep (loaded : TypeIndex.ofSchema schema = .ok index)
    (plain : ∀ name ∈ schema.typeNames, PlainName name) (token : ModuleToken)
    (operations : List Operation) :
    let l := index.loader token
    let r := l.registryAfter operations
    (∀ d ∈ schema.annotations, ∃ i, index.annotation? d.name = some i ∧
      ∀ e ∈ d.elements, e.default.isSome → ∃ element ∈ i.elements, element.name = e.name ∧
        ∃ v, schema.Default l i element v) ∧
    (∀ i, l.types.Knows i →
      ((∃ defaults r', l.defaultsFor i r = .ok defaults r') ∧
        ∀ e ∈ i.elements, ∀ v, schema.Default l i e v → v.depth ≤ nestingLimit) ∨
      ∃ cause r', l.defaultsFor i r = .error cause r' ∧ schema.TooDeepFor l i cause) ∧
    (∀ text e r' cause, compileLiteral l text r = .error (.resolve e) r' →
      e.fault = .defaultsUnavailable cause → schema.Refuses l cause) ∧
    ∀ bytes cause r', l.decodeValue bytes r = .error cause r' ∨ l.decode bytes r = .error cause r'
      ∨ l.decodeMember bytes r = .error cause r' → cause.Own ∨ schema.Refuses l cause := by
  intro l r
  have names := plainNames_of_ofSchema loaded plain
  have decodes : ∀ i, l.types.Knows i → ∃ x, l.DecodesTo i x :=
    decodes_of_ofSchema loaded token
  have computed : l.Computed r := Loader.computed_registryAfter decodes operations
  have fails := failsIn_of_ofSchema loaded names token
  refine ⟨fun d declared => ?_, fun i known => ?_, fun text e r' cause ran fault => ?_,
    fun bytes cause r' ran => ?_⟩
  · obtain ⟨i, found, -⟩ := TypeIndex.annotation?_of_declared loaded declared
    have known : l.types.Knows i := TypeLookup.knows_of_annotation? found
    have named : d.name = i.name := (index.name_of_annotation? found).symm
    refine ⟨i, found, fun e mem has => ?_⟩
    obtain ⟨literal, default⟩ := Option.isSome_iff_exists.1 has
    obtain ⟨element, mem', same⟩ := exists_element_of_declared loaded declared mem found
    obtain ⟨v, is, -, -⟩ := supplies_of_declared loaded names token known mem' declared named mem
      same.symm default
    exact ⟨element, mem', same, v, d, declared, named, e, mem, same.symm, literal, default, is⟩
  · rcases decodesTo_of_ofSchema loaded names token known with
      ⟨a, decodes, shallow⟩ | ⟨cause, decodes, deep⟩
    · obtain ⟨r', -, ran⟩ := Loader.comes_defaultsFor known decodes r computed
      exact .inl ⟨⟨a, r', ran⟩, shallow⟩
    · obtain ⟨r', -, ran⟩ := Loader.comes_defaultsFor known decodes r computed
      exact .inr ⟨cause, r', ran, deep⟩
  · have finished := finishes_compileLiteral fails text r
    rw [ran] at finished
    exact finished e rfl cause fault
  · have fails' : l.FailsIn fun cause => cause.Own ∨ schema.Refuses l cause :=
      fun i known => (fails i known).mono fun _ => .inr
    have own : AdmitsOwn fun cause => cause.Own ∨ schema.Refuses l cause := fun _ => .inl
    rcases ran with ran | ran | ran
    · exact (finishes_decodeValue own fails' bytes).error ran
    · exact (finishes_decode own fails' bytes).error ran
    · exact (finishes_decodeMember own fails' bytes).error ran

/-- The defaults of both interfaces load, so no literal fails for want of defaults. -/
theorem refused_only_if_too_deep_nestedSchema :
    let l := nestedIndex.loader ⟨0⟩
    TypeIndex.ofSchema nestedSchema = .ok nestedIndex
    ∧ (∀ i ∈ nestedIndex.annotations, ∃ defaults r', l.defaultsFor i .empty = .ok defaults r')
    ∧ ∀ text e r' cause, compileLiteral l text .empty = .error (.resolve e) r' →
      e.fault ≠ .defaultsUnavailable cause := by
  intro l
  have loaded : TypeIndex.ofSchema nestedSchema = .ok nestedIndex := by decide +kernel
  have all : ∀ i ∈ nestedIndex.annotations, (returned (l.defaultsFor i .empty)).isSome = true := by
    decide +kernel
  have succeeds : ∀ i ∈ nestedIndex.annotations,
      ∃ defaults r', l.defaultsFor i .empty = .ok defaults r' := fun i mem => by
    obtain ⟨defaults, ran⟩ := Option.isSome_iff_exists.1 (all i mem)
    exact ⟨defaults, exists_of_returned ran⟩
  obtain ⟨-, loads, literals, -⟩ := refused_only_if_too_deep loaded (by decide) ⟨0⟩ []
  refine ⟨loaded, succeeds, fun text e r' cause ran fault => ?_⟩
  obtain ⟨i, known, e, mem, v, default, deep, -⟩ := literals text e r' cause ran fault
  rcases loads i known with ⟨-, shallow⟩ | ⟨cause, r', failed, -⟩
  · exact absurd (shallow e mem v default) (Nat.not_le.2 deep)
  · obtain ⟨defaults, r'', ran⟩ := succeeds i (nestedIndex.mem_of_annotation? known)
    cases failed.symm.trans ran

end DocAnnotations
