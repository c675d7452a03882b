import DocAnnotations.Proofs.Attribute.Readers
import DocAnnotations.Proofs.Defaults.Ending

/-!
# Errors of reading

A reader has errors of its own, about the bytes and the names in them (`ReadError.Own`), and errors
of the defaults that it asks for; no error of its own is about defaults.

**Readers.**  `AdmitsOwn E` says that all errors of the first sort are in `E`.  If moreover loading
defaults has only errors in `E`, so has every reader, because the steps that readers are made of
have (`readerProperty_finishes`).

**Decoding.**  **`finishes_decode`** and its like for values and members say so for whatever bytes:
if loading defaults has only errors in `E`, and every error that is not about defaults is in `E`,
then all errors of decoding are in `E`.  Over a loaded index this gives that decoding always comes
to an end.
-/

namespace DocAnnotations

open Attribute

/-- The errors of reading that are not about defaults are all in `E`. -/
def AdmitsOwn (E : ReadError → Prop) : Prop := ∀ e : ReadError, e.Own → E e

variable {E : ReadError → Prop} {types : TypeLookup} {f : Interface → Load Annotation}

/-- Readers have errors in `E` only, if the answers to questions for defaults do. -/
lemma readerProperty_finishes (own : AdmitsOwn E)
    (answers : ∀ i, types.Knows i → Finishes E (f i)) :
    ReaderProperty types f fun _ p => Finishes E p where
  pure := .pure
  throw inside := .throw (own _ inside)
  bind := .bind
  takeBytes needed := by
    intro s
    by_cases enough : (s.rest.splitAt needed).1.length = needed
    · rw [takeBytes_of_enough enough]
      trivial
    · rw [takeBytes_of_not_enough enough]
      exact own _ trivial
  currentOffset := fun _ => trivial
  answer i known := by
    intro s
    have finished := answers i known s.registry
    rw [Read.ofLoad]
    cases ran : f i s.registry with
    | ok d r => trivial
    | error e r =>
        rw [ran] at finished
        exact finished

/-! ## Decoding -/

/-- Left-over bytes are a fault of the reader's own, so that reading all of some bytes has errors in
`E` only, as the reader has. -/
lemma Finishes.readAll {α : Type} {p : Read α} (own : AdmitsOwn E) (h : Finishes E p)
    (bytes : List UInt8) : Finishes E (readAll p bytes) := by
  intro r
  have finished := h ⟨0, bytes, r⟩
  rw [Attribute.readAll]
  cases ran : p ⟨0, bytes, r⟩ with
  | ok a s =>
      dsimp only
      split_ifs
      · trivial
      · exact own _ trivial
  | error e s =>
      rw [ran] at finished
      exact finished

variable {l : Loader} (own : AdmitsOwn E) (fails : l.FailsIn E) (bytes : List UInt8)

include own fails

lemma finishes_decodeValue : Finishes E (l.decodeValue bytes) :=
  Finishes.readAll own ((readerProperty_finishes own fails).readValue nestingLimit) bytes

/-- Whatever is known of the errors of loading defaults, and holds of all errors that are not about
defaults, holds of the errors of decoding. -/
theorem finishes_decode : Finishes E (l.decode bytes) :=
  Finishes.readAll own (readerProperty_finishes own fails).readTopLevel bytes

lemma finishes_decodeMember : Finishes E (l.decodeMember bytes) :=
  Finishes.readAll own (readerProperty_finishes own fails).readMember bytes

end DocAnnotations
