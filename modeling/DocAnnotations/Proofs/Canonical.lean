import DocAnnotations.Proofs.Attribute.Measures
import DocAnnotations.Proofs.Defaults.Decoding

/-!
# Reading, writing and reading again

Bytes may spell a value in many ways: with elements in any order, without those that have a default,
with descriptors that go on behind their end.  Whatever has been read of them is `Canonical` for its
loader.  Its texts came from texts that fit two bytes, and so do their descriptors; its names are
plain; and defaults that were added once change nothing when they are added again.

Only completion can make a value that does not fit: the elements of an interface may be too many to
be counted in two bytes, or have names that are too long, and a default is stored under its name
without the name being written.

**`decoded_canonical`**: such elements apart, a value that was read can be written, and where they
keep it from being written, the error says that a count of elements or an element name is too long.
What is written is read as the value, by any loader for the same index, unless arrays and
annotations are nested too deeply in it or it names an array of `void`.
-/

namespace DocAnnotations

open Attribute

/-- An annotation whose elements can be counted in two bytes and have names that fit two bytes;
nothing is asked of other values. -/
def Value.FitsElements : Value → Prop
  | .nested a => a.elements.length < UInt16.size ∧ ∀ p ∈ a.elements, FitsText p.1
  | _ => True

/-- No array of `void`; nothing is asked of other values. -/
def Value.NoVoidArray : Value → Prop
  | .classRef c => c.name = "void" → c.dimensions = 0
  | _ => True

instance : DecidablePred Value.NoVoidArray
  | .classRef c => inferInstanceAs (Decidable (c.name = "void" → c.dimensions = 0))
  | .byte _ | .short _ | .int _ | .long _ | .float _ | .double _ | .boolean _ | .char _ | .string _
  | .enum _ | .nested _ | .array _ => .isTrue trivial

variable {l : Loader} {P : Value → Prop} {A : Interface → Annotation → Prop} {i : Interface}
  {d : Annotation} {v : Value}

namespace Loader

/-! ## Canonical values -/

/-- What is known of all values that a loader reads, beyond that they are there.  Of the elements of
an annotation it is not known whether they fit. -/
def Canonical (l : Loader) : Value → Prop
  | .char c => c.toNat < UInt16.size
  | .string s => FitsText s
  | .classRef c => FitsText c.descriptor ∧ c.dimensions ≤ maxDimensions
    ∧ (c.isPrimitive = false → PlainName c.name ∧ l.types.isClass c.name = true)
  | .enum e => FitsText (objectDescriptor e.typeName) ∧ FitsText e.constant
    ∧ l.types.Admits (.enum e)
  | .nested a => FitsText a.typeName ∧ l.types.Admits (.nested a)
    ∧ ∀ i, l.types.annotation? a.typeName = some i → a.Lacks i →
      ∃ d, l.DecodesTo i (.ok d) ∧ completed a d = a
  | .array vs => vs.length < UInt16.size
  | _ => True

/-- A value that was read as a single one, from a text or a number that fits, is canonical. -/
lemma canonical_of_single (h : l.types.Single v) : l.Canonical v := by
  cases h with
  | char unit => exact unit.1
  | string fits => exact fits
  | @classRef descriptor c fits names known =>
      obtain ⟨few, plain, size⟩ := of_ofDescriptor? names
      refine ⟨Nat.lt_of_le_of_lt size fits, few, fun object => ⟨plain object, ?_⟩⟩
      exact known.resolve_left (by simp [object])
  | enum fits names short known constant =>
      obtain ⟨plain, size⟩ := of_objectName? names
      exact ⟨Nat.lt_of_le_of_lt size fits, short, plain, _, known, constant⟩
  | _ => trivial

/-- What was completed from the defaults of its interface has nothing to take from them any more. -/
lemma accepts_canonical (l : Loader) :
    l.Accepts (fun i d => l.DecodesTo i (.ok d)) l.Canonical where
  single := canonical_of_single
  array few := few
  whole fits found good enough := by
    refine ⟨fits, ⟨good.ordered, _, found, good.declared⟩, fun j found' lacks => ?_⟩
    cases found.symm.trans found'
    exact absurd lacks enough
  filled {a d i} fits found good decodes defaults := by
    have all := good.completed defaults
    rw [Canonical, TypeLookup.Admits, typeName_completed]
    refine ⟨fits, ⟨all.ordered, i, found, all.declared⟩, fun j found' _ => ?_⟩
    cases found.symm.trans found'
    exact ⟨d, decodes, completed_completed a d⟩

/-- Defaults that are decoded without any answers are read like other values. -/
lemma DecodesTo.good (h : l.DecodesTo i (.ok d)) (nodup : (i.elements.map Element.name).Nodup)
    (accepts : l.Accepts A P) : l.GoodDefaults P i d := by
  have answers : l.AnswersWith (fun _ => True) A P fun i => throw (.recursiveDefault i.name) :=
    fun _ _ => Ensures.throw _
  have reads := (ensures_readValue accepts answers nestingLimit).readAll (I := fun _ => True)
  have good := ensures_decodeDefaults (fun _ bytes _ => reads bytes) nodup i.elements []
    (.empty i.name) rfl (goodFor_empty i)
  obtain ⟨r, -, ran⟩ := h (fun _ => True) (fun i => throw (.recursiveDefault i.name)) .empty trivial
  exact (good.ok trivial ran).1

/-- With defaults as they are decoded, whatever is read is canonical. -/
lemma answersWith_canonical (once : l.types.DeclaresOnce)
    (decodes : ∀ i, l.types.Knows i → ∃ x, l.DecodesTo i x) :
    l.AnswersWith l.Computed (fun i d => l.DecodesTo i (.ok d)) l.Canonical l.defaultsFor := by
  intro i known
  obtain ⟨x, h⟩ := decodes i known
  refine (comes_defaultsFor known h).ensures.weaken ?_
  rintro d rfl
  exact ⟨h, h.good (once i known) l.accepts_canonical⟩

/-! ## Writing them -/

/-- Nothing but the elements of an annotation can keep a canonical value from being written. -/
lemma Canonical.fits_iff (canonical : l.Canonical v) : v.Fits ↔ v.FitsElements := by
  cases v with
  | char c => exact iff_of_true canonical trivial
  | string s => exact iff_of_true canonical trivial
  | classRef c => exact iff_of_true canonical.1 trivial
  | enum e => exact iff_of_true ⟨canonical.1, canonical.2.1⟩ trivial
  | nested a => exact and_iff_right canonical.1
  | array vs => exact iff_of_true canonical trivial
  | _ => exact Iff.rfl

/-- All measures of a canonical value fit, apart from the numbers and the names of the elements of
its annotations. -/
lemma fits_or_ofElements (canonical : v.Everywhere l.Canonical) :
    ∀ m ∈ v.measures, m.Fits ∨ ∃ n, m = .length .elementCount n ∨ m = .length .elementName n := by
  induction v using Value.treeInduction with
  | char c => exact List.forall_mem_singleton.2 (.inl canonical)
  | string s => exact List.forall_mem_singleton.2 (.inl canonical)
  | classRef c => exact List.forall_mem_singleton.2 (.inl canonical.1)
  | enum e =>
      exact List.forall_mem_cons.2
        ⟨.inl canonical.1, List.forall_mem_singleton.2 (.inl canonical.2.1)⟩
  | nested a ih =>
      obtain ⟨typeName, elements⟩ := a
      obtain ⟨⟨named, -⟩, inside⟩ := everywhere_nested.1 canonical
      rw [Value.measures, elementsMeasures_eq]
      refine List.forall_mem_cons.2 ⟨.inl named, List.forall_mem_cons.2 ⟨.inr ⟨_, .inl rfl⟩, ?_⟩⟩
      intro m hm
      obtain ⟨p, hp, hm⟩ := List.mem_flatMap.1 hm
      rcases List.mem_cons.1 hm with rfl | hm
      · exact .inr ⟨_, .inr rfl⟩
      · exact ih p hp (inside p hp) m hm
  | array vs ih =>
      obtain ⟨few, inside⟩ := everywhere_array.1 canonical
      rw [Value.measures, valuesMeasures_eq]
      refine List.forall_mem_cons.2 ⟨.inl few, fun m hm => ?_⟩
      obtain ⟨v, hv, hm⟩ := List.mem_flatMap.1 hm
      exact ih v hv (inside v hv) m hm
  | _ => exact List.forall_mem_nil _

/-- The first measure of a canonical value that does not fit is a length, of the elements of an
annotation or of the name of one. -/
lemma tooLong_of_firstMisfit (canonical : v.Everywhere l.Canonical) {e : EncodeError}
    (misfit : FirstMisfit v.measures e) :
    ∃ n, e = .tooLong .elementCount n ∨ e = .tooLong .elementName n := by
  obtain ⟨front, m, back, all, -, large, rfl⟩ := misfit
  have here : m ∈ v.measures := all ▸ List.mem_append_right _ List.mem_cons_self
  obtain ⟨n, rfl | rfl⟩ := (fits_or_ofElements canonical m here).resolve_left large
  · exact ⟨n, .inl rfl⟩
  · exact ⟨n, .inr rfl⟩

/-! ## Reading them again -/

/-- The defaults of an interface as they are decoded. -/
lemma freshDefaults_of_decodesTo (known : l.types.Knows i) (h : l.DecodesTo i (.ok d)) :
    l.freshDefaults i = d := by
  obtain ⟨r, -, ran⟩ := comes_defaultsFor known h .empty computed_empty
  rw [freshDefaults, ran]
  rfl

/-- To a canonical value nothing is added: its annotations lack nothing, or their defaults are all
in them already. -/
lemma Canonical.filled (canonical : l.Canonical v) : l.types.Filled l.freshDefaults v := by
  cases v with
  | nested a =>
      obtain ⟨-, -, same⟩ := canonical
      rw [TypeLookup.Filled, Annotation.filledFrom]
      cases found : l.types.annotation? a.typeName with
      | none => rfl
      | some i =>
          dsimp only
          split_ifs with lacks
          · obtain ⟨d, decodes, same⟩ := same i found lacks
            rw [freshDefaults_of_decodesTo (TypeLookup.knows_of_annotation? found) decodes, same]
          · rfl
  | _ => trivial

/-- Where a canonical annotation lacks elements, loading the defaults of its interface comes to what
it was completed with. -/
lemma Canonical.comes (canonical : l.Canonical v) (a : Annotation) (h : v = .nested a)
    (i : Interface) (found : l.types.annotation? a.typeName = some i) (lacks : a.Lacks i) :
    Comes l.Computed (l.defaultsFor i) (.ok (l.freshDefaults i)) := by
  subst h
  obtain ⟨-, -, same⟩ := canonical
  obtain ⟨d, decodes, -⟩ := same i found lacks
  have known := TypeLookup.knows_of_annotation? found
  rw [freshDefaults_of_decodesTo known decodes]
  exact comes_defaultsFor known decodes

/-- A canonical value is well-typed, apart from arrays of void. -/
lemma Canonical.admits (canonical : l.Canonical v) (noVoid : v.NoVoidArray) :
    l.types.Admits v := by
  cases v with
  | classRef c => exact ⟨canonical.2.1, noVoid, canonical.2.2⟩
  | enum e => exact canonical.2.2
  | nested a => exact canonical.2.1
  | _ => trivial

end Loader

section

variable {a : Annotation}

/-- A canonical value is read back as it is, if arrays and annotations are not nested too deeply. -/
lemma comes_reread_of_canonical (canonical : v.Everywhere l.Canonical)
    (noVoid : v.Everywhere Value.NoVoidArray) (left : Nat) :
    Comes l.Computed (reread l.types l.defaultsFor left v) (withinLevels v.depth left v) := by
  have typed : v.WellTyped l.types :=
    (canonical.and noVoid).mono fun _ h => h.1.admits h.2
  have back := comesBack typed (canonical.mono fun _ h => h.comes) left
  rwa [completedWith_of_filled (canonical.mono fun _ h => h.filled)] at back

/-- A canonical annotation without arrays of void comes back as itself, unless it needs more than
all levels. -/
lemma comes_rereadTopLevel_of_canonical (canonical : (Value.nested a).Everywhere l.Canonical)
    (noVoid : (Value.nested a).Everywhere Value.NoVoidArray) :
    Comes l.Computed (rereadBody l.types l.defaultsFor nestingLimit a)
      (withinLevels a.depth nestingLimit a) := by
  have typed : (Value.nested a).WellTyped l.types :=
    (canonical.and noVoid).mono fun _ h => h.1.admits h.2
  have back := comes_rereadTopLevel_of_comes typed (canonical.mono fun _ h => h.comes)
  rwa [completedWith_eq_self (canonical.mono fun _ h => h.filled)] at back

end

/-! ## Reading, writing, reading -/

/-- **What was read is canonical.**  Over a loaded index and after any operations, let a value be
read from any bytes.  It can be written if and only if all annotations in it have elements that can
be counted and names that fit; if it cannot, the error says that the number of elements or the name
of one is too long.  If it is written, is not nested too deeply and names no array of `void`, then
the written bytes are read as the same value, bit for bit, after any other operations. -/
theorem decoded_canonical {schema : Schema} {index : TypeIndex}
    (loaded : TypeIndex.ofSchema schema = .ok index) (token : ModuleToken)
    (operations others : List Operation) (bytes : List UInt8) :
    let l := index.loader token
    let r := l.registryAfter operations
    let s := l.registryAfter others
    (∀ a r', l.decode bytes r = .ok a r' →
      ((∃ written, annotationBytes a = .ok written) ↔
        (Value.nested a).Everywhere Value.FitsElements)
      ∧ (∀ e, annotationBytes a = .error e →
        ∃ n, e = .tooLong .elementCount n ∨ e = .tooLong .elementName n)
      ∧ ∀ written, annotationBytes a = .ok written → a.depth ≤ nestingLimit →
        (Value.nested a).Everywhere Value.NoVoidArray → ∃ s', l.decode written s = .ok a s')
    ∧ ∀ v r', l.decodeValue bytes r = .ok v r' →
      ((∃ written, valueBytes v = .ok written) ↔ v.Everywhere Value.FitsElements)
      ∧ (∀ e, valueBytes v = .error e →
        ∃ n, e = .tooLong .elementCount n ∨ e = .tooLong .elementName n)
      ∧ ∀ written, valueBytes v = .ok written → v.depth ≤ nestingLimit →
        v.Everywhere Value.NoVoidArray → ∃ s', l.decodeValue written s = .ok v s' := by
  intro l r s
  have decodes : ∀ i, l.types.Knows i → ∃ x, l.DecodesTo i x := decodes_of_ofSchema loaded token
  have before : l.Computed r := Loader.computed_registryAfter decodes operations
  have later : l.Computed s := Loader.computed_registryAfter decodes others
  have accepts := l.accepts_canonical
  have answers := Loader.answersWith_canonical (TypeIndex.declaresOnce loaded) decodes
  refine ⟨fun a r' ran => ?_, fun v r' ran => ?_⟩
  · obtain ⟨canonical, -⟩ := (Loader.ensures_decode accepts answers bytes).ok before ran
    refine ⟨exists_annotationBytes_iff.trans (canonical.congr fun _ h => h.fits_iff), ?_, ?_⟩
    · intro e refused
      exact Loader.tooLong_of_firstMisfit canonical (annotationBytes_eq_error_iff.1 refused)
    intro written hwritten shallow noVoid
    obtain ⟨s', -, back⟩ := comes_rereadTopLevel_of_canonical canonical noVoid s later
    rw [withinLevels_of_le shallow] at back
    exact ⟨s', by rw [Loader.decode, readAll_readTopLevel _ _ hwritten, back]⟩
  · obtain ⟨canonical, -⟩ := (Loader.ensures_decodeValue accepts answers bytes).ok before ran
    refine ⟨exists_valueBytes_iff.trans (canonical.congr fun _ h => h.fits_iff), ?_, ?_⟩
    · intro e refused
      exact Loader.tooLong_of_firstMisfit canonical (valueBytes_eq_error_iff.1 refused)
    intro written hwritten shallow noVoid
    obtain ⟨s', -, back⟩ := comes_reread_of_canonical canonical noVoid nestingLimit s later
    rw [withinLevels_of_le shallow] at back
    have read := readAll_of_readsAs
      (readsAs_readValue v nestingLimit hwritten : ReadsAs (readValue l.types l.defaultsFor _) _ _)
    exact ⟨s', by rw [Loader.decodeValue, read, back]⟩

/-- A shape whose mark stands before its place, at a point without its place, which is also the
default; the descriptor of the unit goes on behind its end.  It is written with everything in place,
and read from that as it was. -/
theorem decoded_canonical_sampleShape :
    let l := sampleIndex.loader ⟨0⟩
    let spelled : List UInt8 :=
      [64, 0, 7, 112, 46, 83, 104, 97, 112, 101, 0, 2, 0, 4, 109, 97, 114, 107, 67, 0, 120, 0, 2,
        97, 116, 64, 0, 7, 112, 46, 80, 111, 105, 110, 116, 0, 1, 0, 4, 117, 110, 105, 116, 101, 0,
        9, 76, 112, 47, 85, 110, 105, 116, 59, 33, 0, 2, 67, 77]
    let written : List UInt8 :=
      [64, 0, 7, 112, 46, 83, 104, 97, 112, 101, 0, 3, 0, 2, 97, 116, 64, 0, 7, 112, 46, 80, 111,
        105, 110, 116, 0, 2, 0, 4, 117, 110, 105, 116, 101, 0, 8, 76, 112, 47, 85, 110, 105, 116,
        59, 0, 2, 67, 77, 0, 1, 120, 73, 0, 0, 0, 7, 0, 4, 107, 101, 121, 115, 91, 0, 1, 99, 0, 1,
        73, 0, 4, 109, 97, 114, 107, 67, 0, 120]
    ∃ a r s, l.decode spelled .empty = .ok a r ∧ annotationBytes a = .ok written
      ∧ l.decode written .empty = .ok a s := by
  intro l spelled written
  have read : (returned (l.decode spelled .empty)).any (fun a =>
      decide (annotationBytes a = .ok written) && decide (a.depth ≤ nestingLimit)
        && decide ((Value.nested a).Everywhere Value.NoVoidArray)) = true := by
    decide +kernel
  obtain ⟨a, decoded, checks⟩ := (Option.any_eq_true _ _).1 read
  simp only [Bool.and_eq_true, decide_eq_true_eq] at checks
  obtain ⟨⟨hwritten, shallow⟩, noVoid⟩ := checks
  obtain ⟨r, ran⟩ := exists_of_returned decoded
  obtain ⟨-, -, again⟩ := (decoded_canonical ofSchema_sampleSchema ⟨0⟩ [] [] spelled).1 a r ran
  obtain ⟨s, back⟩ := again written hwritten shallow noVoid
  exact ⟨a, r, s, ran, hwritten, back⟩

/-! ## Names that do not fit -/

/-- A schema of an interface with one element, which has a default, and one without elements. -/
def wideSchema (name : String) : Schema :=
  ⟨[⟨"p.A", [⟨name, "()I", some "1"⟩]⟩, ⟨"p.B", []⟩], [], []⟩

/-- The interface with one element. -/
def wideInterface (name : String) : Interface := ⟨"p.A", [⟨name, .int, "()I"⟩]⟩

/-- The index of the schema. -/
def wideIndex (name : String) : TypeIndex :=
  ⟨[wideInterface name, ⟨"p.B", []⟩], [], [], ⟨[(("p.A", name), [73, 0, 0, 0, 1])]⟩⟩

lemma compileDefault_one (l : Loader) (i : Interface) (name : String) (r : Registry) :
    compileDefault l i ⟨name, .int, "()I"⟩ "1" r = .ok [73, 0, 0, 0, 1] r := by
  rfl

lemma declareElements_wideSchema (name : String) (isEnum isAnnotation : String → Bool) :
    declareElements isEnum isAnnotation "p.A" [] [⟨name, "()I", some "1"⟩]
      = .ok [⟨name, .int, "()I"⟩] := by
  have descriptor : elementReturnType "()I" = .ok ⟨0, .keyword "int"⟩ := rfl
  have type : elementType? isEnum isAnnotation ⟨0, .keyword "int"⟩ = some .int := rfl
  simp [declareElements, descriptor, type]

lemma addDefaults_wideSchema (name : String) {types : TypeLookup}
    (found : types.annotation? "p.A" = some (wideInterface name)) :
    addDefaults types (wideSchema name).annotations .empty "p.A"
      = .ok (wideIndex name).defaults := by
  have declared : ((wideSchema name).annotations.find? fun d => d.name == "p.A")
      = some ⟨"p.A", [⟨name, "()I", some "1"⟩]⟩ := rfl
  have known : (wideInterface name).element? name = some ⟨name, .int, "()I"⟩ := by
    simp [Interface.element?, wideInterface]
  simp only [addDefaults, found, declared, compileDefaults, known, EStateM.run, Bind.bind,
    EStateM.bind, EStateM.adaptExcept, compileDefault_one]
  rfl

/-- Whatever the name of the element is, the schema is loaded. -/
lemma ofSchema_wideSchema (name : String) :
    TypeIndex.ofSchema (wideSchema name) = .ok (wideIndex name) := by
  let bare : TypeIndex := { wideIndex name with defaults := .empty }
  have distinct : firstDuplicate? [] ["p.A", "p.B"] = none := rfl
  have empty : ∀ isEnum isAnnotation, declareElements isEnum isAnnotation "p.B" [] [] = .ok [] :=
    fun _ _ => rfl
  have rising : ¬ "p.B" < "p.A" := by decide
  have order : dependencyOrder bare.references ["p.A", "p.B"] = .ok ["p.A", "p.B"] := rfl
  simp only [TypeIndex.ofSchema, wideSchema, List.map_cons, List.map_nil, List.cons_append,
    List.nil_append, distinct, List.mapM_cons, List.mapM_nil, declareElements_wideSchema, empty,
    Bind.bind, Except.bind, pure, Except.pure, sortedBy, List.foldr_cons, List.foldr_nil, insertBy,
    if_neg rising]
  change dependencyOrder bare.references ["p.A", "p.B"] >>= (fun order =>
    order.foldlM (addDefaults bare.lookup (wideSchema name).annotations) .empty >>=
      fun defaults => .ok { bare with defaults }) = _
  rw [order]
  change (addDefaults bare.lookup (wideSchema name).annotations .empty "p.A" >>= fun table =>
    addDefaults bare.lookup (wideSchema name).annotations table "p.B" >>= pure)
      >>= (fun defaults => .ok { bare with defaults }) = _
  rw [addDefaults_wideSchema name rfl]
  rfl

/-- The annotation that is nothing but defaults. -/
def wideDefaults (name : String) : Annotation := ⟨"p.A", [(name, .int 1)]⟩

lemma decodesTo_wideInterface (name : String) (token : ModuleToken) :
    ((wideIndex name).loader token).DecodesTo (wideInterface name) (.ok (wideDefaults name)) := by
  intro I f r hr
  refine ⟨r, hr, ?_⟩
  have stored : ((wideIndex name).loader token).defaults "p.A" name = some [73, 0, 0, 0, 1] := by
    simp [TypeIndex.loader, wideIndex, DefaultsTable.get?]
  simp only [wideInterface, Loader.decodeDefaults, stored]
  rfl

/-- From the name of the interface alone, an annotation with the default of the one element is
decoded. -/
lemma decode_wideIndex (name : String) (token : ModuleToken) :
    ∃ r, ((wideIndex name).loader token).decode [64, 0, 3, 112, 46, 65, 0, 0] .empty
      = .ok (wideDefaults name) r := by
  let l := (wideIndex name).loader token
  have found : l.types.annotation? "p.A" = some (wideInterface name) := rfl
  have written : annotationBytes (.empty "p.A") = .ok [64, 0, 3, 112, 46, 65, 0, 0] := by
    decide +kernel
  have loads : ∀ i, l.types.annotation? "p.A" = some i → Annotation.Lacks (.empty "p.A") i →
      Comes l.Computed (l.defaultsFor i) (.ok (wideDefaults name)) := by
    intro i found' _
    cases found.symm.trans found'
    exact Loader.comes_defaultsFor found (decodesTo_wideInterface name token)
  have ordered := Annotation.ordered_empty "p.A"
  have back := comes_rereadBody (D := fun _ => wideDefaults name)
    ⟨ordered, _, found, nofun⟩ loads nofun nestingLimit
  obtain ⟨r, -, ran⟩ := back .empty Loader.computed_empty
  exact ⟨r, by rw [Loader.decode, readAll_readTopLevel _ _ written, ran]; rfl⟩

/-- An annotation with a name of an element that does not fit is refused for that name. -/
lemma annotationBytes_wideDefaults {name : String} (long : ¬ FitsText name) :
    annotationBytes (wideDefaults name) = .error (.tooLong .elementName name.utf8ByteSize) := by
  have failed : textBytes .elementName name = .error (.tooLong .elementName name.utf8ByteSize) := by
    rw [FitsText] at long
    rw [textBytes, lengthBytes, if_neg long]
    rfl
  have typeName : textBytes .annotationName "p.A" = .ok [0, 3, 112, 46, 65] := by decide +kernel
  simp only [wideDefaults, annotationBytes, elementsBytes, typeName, failed, Bind.bind,
    Except.bind]
  rfl

/-- A name of a given length. -/
def nameOfLength (n : Nat) : String := String.ofList (List.replicate n 'x')

/-- The name has as many bytes as it has letters. -/
lemma utf8ByteSize_nameOfLength (n : Nat) : (nameOfLength n).utf8ByteSize = n := by
  rw [nameOfLength, String.utf8ByteSize_ofList, utf8Len_replicate rfl]

/-- A name of as many bytes as two bytes cannot count. -/
def longName : String := nameOfLength UInt16.size

lemma utf8ByteSize_longName : longName.utf8ByteSize = UInt16.size :=
  utf8ByteSize_nameOfLength UInt16.size

/-- An annotation can be read that cannot be written: the name of its only element is too long, and
was not written in the bytes because the element is a default. -/
theorem decoded_not_writable_longName :
    TypeIndex.ofSchema (wideSchema longName) = .ok (wideIndex longName) ∧
      ∃ a r, ((wideIndex longName).loader ⟨0⟩).decode [64, 0, 3, 112, 46, 65, 0, 0] .empty = .ok a r
        ∧ annotationBytes a = .error (.tooLong .elementName 65536) := by
  have long : ¬ FitsText longName := by
    rw [FitsText, utf8ByteSize_longName]
    exact Nat.lt_irrefl _
  have failed := annotationBytes_wideDefaults long
  rw [utf8ByteSize_longName] at failed
  obtain ⟨r, ran⟩ := decode_wideIndex longName ⟨0⟩
  exact ⟨ofSchema_wideSchema longName, _, r, ran, failed⟩

end DocAnnotations
