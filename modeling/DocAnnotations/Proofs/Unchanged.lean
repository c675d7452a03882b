import DocAnnotations.Proofs.Attribute.RoundTrip
import DocAnnotations.Proofs.Resolved

/-!
# Values that come back unchanged

A value that is well-typed and complete at every depth is read back as it was written, unless it is
nested more deeply than the reader goes.

**Resolved values.**  Resolved values are complete, because resolution leaves no declared element
without a value (`complete_of_resolved`).  They are well-typed where the names of types have no
characters with a meaning in descriptors (`TypeLookup.PlainNames`).

**Loaded indexes.**  So a loader over a loaded index with such names and its own defaults keeps what
comes back unchanged (`suits_unchanged`), and what it writes can be read with any registry
(`decodeMember_of_unchanged`).
-/

namespace DocAnnotations

open Attribute
open Annotation (contains)

/-- A part of a value that resolution may return, and that descriptors can name. -/
def TypeLookup.Unchanged (types : TypeLookup) (v : Value) : Prop :=
  types.Resolved v ∧ types.Admits v

/-- The names of classes and enums can be told from their descriptors. -/
structure TypeLookup.PlainNames (types : TypeLookup) : Prop where
  classes : ∀ {name}, types.isClass name = true → PlainName name
  enums : ∀ {name found}, types.enumeration? name = some found → PlainName name

variable {types : TypeLookup} {l : Loader}

/-- Resolved annotations have all elements that there are. -/
lemma complete_of_resolved (once : types.DeclaresOnce)
    {v : Value} (h : types.Resolved v) : types.Complete v := by
  cases v with
  | nested a =>
      obtain ⟨i, found, -, has, -⟩ := h
      intro j found'
      cases Option.some.inj (found.symm.trans found')
      have nodup := once i (TypeLookup.knows_of_annotation? found)
      rintro (⟨e, he, absent⟩ | repeated)
      · have there := (has e.name).2 ⟨e, he, rfl⟩
        simp [contains, absent] at there
      · exact repeated nodup
  | _ => trivial

/-- Resolution puts together only values that come back unchanged. -/
lemma assembled_unchanged (plain : types.PlainNames) : types.Assembled types.Unchanged where
  literal h := by
    refine ⟨assembled_resolved.literal h, ?_⟩
    cases h with
    | classRef exists_ few void =>
        refine ⟨few, void, fun notPrimitive => ?_⟩
        rw [notPrimitive] at exists_
        have known := exists_.resolve_left (by decide)
        exact ⟨plain.classes known, known⟩
    | enum exists_ constant => exact ⟨plain.enums exists_, _, exists_, constant⟩
    | _ => trivial
  array vs := ⟨assembled_resolved.array vs, trivial⟩
  nested found ordered declared has :=
    ⟨assembled_resolved.nested found ordered declared has, ordered, _, found, declared⟩

/-- What comes back unchanged is well-typed and complete. -/
lemma unchanged_everywhere (once : types.DeclaresOnce)
    {v : Value} (h : v.Everywhere types.Unchanged) :
    v.WellTyped types ∧ v.Everywhere types.Complete :=
  ⟨h.mono fun _ => And.right, h.mono fun _ here => complete_of_resolved once here.1⟩

/-- A value that comes back unchanged does so, unless it is refused. -/
lemma comes_reread_of_unchanged {I : Registry → Prop} {f : Interface → Load Annotation}
    (once : types.DeclaresOnce) {v : Value} (h : v.Everywhere types.Unchanged) (left : Nat) :
    Comes I (reread types f left v) (withinLevels v.depth left v) :=
  comesBack_of_complete (unchanged_everywhere once h).1 (unchanged_everywhere once h).2 left

/-- Every property that is at least as strong survives being written and read again. -/
lemma survives_of_unchanged {P : Value → Prop} (once : types.DeclaresOnce)
    (unchanged : ∀ v, P v → types.Unchanged v) : types.Survives P := by
  intro J f v h s hs
  obtain ⟨s', rfl, read⟩ :=
    comes_reread_of_unchanged (I := (· = s)) (f := f) once (h.mono unchanged) nestingLimit s rfl
  rw [read, withinLevels_apply]
  split_ifs
  · exact ⟨h, hs⟩
  · exact hs

variable {schema : Schema} {index : TypeIndex}

/-- If all names of a schema are plain, so are those of the index that is loaded from it. -/
lemma plainNames_of_ofSchema (loaded : TypeIndex.ofSchema schema = .ok index)
    (plain : ∀ name ∈ schema.typeNames, PlainName name) : index.lookup.PlainNames where
  classes known := by
    have platform : ∀ name ∈ platformClasses, PlainName name := by
      decide +kernel
    exact (TypeIndex.mem_of_isClass loaded known).elim (plain _) (platform _)
  enums found := plain _ (TypeIndex.mem_of_enumeration? loaded found)

/-- In a loaded index with plain names, what resolution returns comes back unchanged if the defaults
do. -/
lemma suits_unchanged (loaded : TypeIndex.ofSchema schema = .ok index)
    (plain : ∀ name ∈ schema.typeNames, PlainName name) :
    index.lookup.Suits index.lookup.Unchanged where
  once := TypeIndex.declaresOnce loaded
  finds := index.findsLoadable
  assembled := assembled_unchanged (plainNames_of_ofSchema loaded plain)
  survives := survives_of_unchanged (TypeIndex.declaresOnce loaded) fun _ h => h

/-- Annotations that come back unchanged are read with any registry, which stays as it is; they are
refused if and only if one of them is nested too deeply. -/
lemma decodeMember_of_unchanged (once : l.types.DeclaresOnce) {annotations : List Annotation}
    {bytes : List UInt8}
    (unchanged : ∀ a ∈ annotations, (Value.nested a).Everywhere l.types.Unchanged)
    (written : memberBytes annotations = .ok bytes) (r : Registry) :
    l.decodeMember bytes r = if ∀ a ∈ annotations, a.depth ≤ nestingLimit
      then .ok annotations r else .error (.tooDeep nestingLimit) r :=
  decodeMember_of_complete (fun a ha => (unchanged_everywhere once (unchanged a ha)).1)
    (fun a ha => (unchanged_everywhere once (unchanged a ha)).2) written r

end DocAnnotations
