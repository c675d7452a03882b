import DocAnnotations.Proofs.Alone
import DocAnnotations.Proofs.Attribute.Readers
import DocAnnotations.Proofs.TypeIndex

/-!
# Where attributes end

The bytes of an attribute say themselves where it ends.  A reading that succeeds has taken bytes
from the front, and whether it goes on depends only on those it has taken: with any other bytes
behind them it comes to the same, and where some of them are missing it stops because there are too
few.  `SelfDelimiting` says so of one reading, and sequences of readings have the property because
the bytes that they take stand one behind the other.

Defaults may be loaded in between.  `R` relates the registries of the two readings, which need not
be the same: any two registries with the same answers to all questions for defaults will do.

**`SelfDelimiting.delimited`** turns the property into what it says of all bytes of an attribute.

**`accepted_self_delimiting`**: bytes that decode are refused as truncated when some are missing at
the end, and for the number of bytes too many when others follow.  This holds of values, annotations
and the annotations of members.
-/

namespace DocAnnotations

open Attribute

/-! ## Readings that know their end -/

variable {α β : Type} {R : Registry → Registry → Prop}

/-- Bytes were refused because there are too few of them. -/
def IsTruncated {σ : Type} (x : EStateM.Result ReadError σ α) : Prop :=
  ∃ offset needed remaining s, x = .error (.truncated offset needed remaining) s

/-- A sequence is truncated where its first reading is. -/
lemma IsTruncated.bind {p : Read α} {next : α → Read β} {s : ReadState}
    (short : IsTruncated (p s)) : IsTruncated ((p >>= next) s) := by
  obtain ⟨offset, needed, remaining, t, failed⟩ := short
  exact ⟨offset, needed, remaining, t, by simp only [Bind.bind, EStateM.bind, failed]⟩

/-- A sequence is truncated where its second reading is. -/
lemma IsTruncated.behind {p : Read α} {next : α → Read β} {a : α} {s t : ReadState}
    (ran : p s = .ok a t) (short : IsTruncated (next a t)) : IsTruncated ((p >>= next) s) := by
  simpa only [Bind.bind, EStateM.bind, ran] using short

/-- A reading that succeeds takes bytes, whatever follows them, and is truncated where some of them
are missing. -/
def SelfDelimiting (R : Registry → Registry → Prop) (p : Read α) : Prop :=
  ∀ s a s', p s = .ok a s' → ∃ taken, s.rest = taken ++ s'.rest ∧ ∀ t, R s.registry t →
    (∀ more, ∃ t', p ⟨s.offset, taken ++ more, t⟩ = .ok a ⟨s'.offset, more, t'⟩ ∧ R s'.registry t')
    ∧ ∀ front back, taken = front ++ back → back ≠ [] → IsTruncated (p ⟨s.offset, front, t⟩)

namespace SelfDelimiting

/-- A reading that takes no bytes. -/
lemma of_taken_nil {p : Read α} (h : ∀ s a s', p s = .ok a s' → s.rest = s'.rest ∧
    ∀ t, R s.registry t → ∀ more, ∃ t',
      p ⟨s.offset, more, t⟩ = .ok a ⟨s'.offset, more, t'⟩ ∧ R s'.registry t') :
    SelfDelimiting R p := by
  intro s a s' ran
  obtain ⟨same, again⟩ := h s a s' ran
  refine ⟨[], same, fun t related => ⟨again t related, fun front back split rest => ?_⟩⟩
  exact absurd (List.append_eq_nil_iff.1 split.symm).2 rest

/-- Returning a value takes no bytes, so that every extension is left over as a whole. -/
lemma pure (a : α) : SelfDelimiting R (pure a) :=
  of_taken_nil fun s _ _ ran => by
    cases ran
    exact ⟨rfl, fun t related more => ⟨t, rfl, related⟩⟩

/-- A reader that fails accepts no bytes, so that nothing is asked of it. -/
lemma throw (e : ReadError) : SelfDelimiting R (throw e : Read α) :=
  fun _ _ _ ran => nomatch ran

lemma currentOffset : SelfDelimiting R currentOffset :=
  of_taken_nil fun s _ _ ran => by
    cases ran
    exact ⟨rfl, fun t related more => ⟨t, rfl, related⟩⟩

/-- A number of bytes is taken whatever follows it, and a proper prefix of it is too short. -/
lemma takeBytes (needed : Nat) : SelfDelimiting R (takeBytes needed) := by
  intro s bytes s' ran
  obtain ⟨split, rfl, moved, kept⟩ := takeBytes_eq_ok ran
  refine ⟨bytes, split, fun t related => ⟨fun more => ⟨t, ?_, kept ▸ related⟩, ?_⟩⟩
  · rw [takeBytes_of_enough (by simp), moved]
    simp
  · intro front back cut rest
    have short : front.length < bytes.length := by
      have := List.length_pos_iff.2 rest
      rw [cut, List.length_append]
      omega
    refine ⟨_, _, _, _, takeBytes_of_not_enough ?_⟩
    simp only [List.splitAt_eq, List.length_take]
    omega

/-- What two readings take stands one behind the other.  Where bytes are missing, either the first
reading is truncated, or it has all that it takes and the second one is. -/
lemma bind {p : Read α} {next : α → Read β} (first : SelfDelimiting R p)
    (later : ∀ a, SelfDelimiting R (next a)) : SelfDelimiting R (p >>= next) := by
  intro s b s'' ran
  obtain ⟨a, s', here, next'⟩ := bind_eq_ok.1 ran
  obtain ⟨taken, split, again⟩ := first s a s' here
  obtain ⟨taken', split', again'⟩ := later a s' b s'' next'
  refine ⟨taken ++ taken', by rw [split, split', List.append_assoc], fun t related => ⟨?_, ?_⟩⟩
  · intro more
    obtain ⟨t', front, related'⟩ := (again t related).1 (taken' ++ more)
    obtain ⟨t'', back, related''⟩ := (again' t' related').1 more
    rw [← List.append_assoc] at front
    exact ⟨t'', bind_eq_ok.2 ⟨a, _, front, back⟩, related''⟩
  · have behind : ∀ front back, taken' = front ++ back → back ≠ [] →
        IsTruncated ((p >>= next) ⟨s.offset, taken ++ front, t⟩) := by
      intro front back cut rest
      obtain ⟨t', whole, related'⟩ := (again t related).1 front
      exact .behind whole ((again' t' related').2 front back cut rest)
    intro front back cut rest
    rcases List.append_eq_append_iff.1 cut with ⟨c, rfl, cut'⟩ | ⟨c, rfl, rfl⟩
    · exact behind c back cut' rest
    · cases c with
      | nil => simpa using behind [] taken' rfl rest
      | cons b c => exact ((again t related).2 front (b :: c) rfl nofun).bind

/-- An answer takes no bytes. -/
lemma ofLoad {E : ReadError → Prop} {q : Load α} (h : FollowsUpTo E R q q) :
    SelfDelimiting R (Read.ofLoad q) := by
  refine of_taken_nil fun s a s' ran => ?_
  obtain ⟨r, answered, rfl⟩ := ofLoad_eq_ok.1 ran
  refine ⟨rfl, fun t related more => ?_⟩
  have again := h s.registry t related
  simp only [answered] at again
  obtain ⟨t', ran', related'⟩ := again
  exact ⟨t', ofLoad_eq_ok.2 ⟨t', ran', rfl⟩, related'⟩

end SelfDelimiting

/-- All readers know their end, where questions for defaults have the same answers. -/
lemma readerProperty_selfDelimiting {E : ReadError → Prop} {types : TypeLookup}
    {f : Interface → Load Annotation} (answers : ∀ i, types.Knows i → FollowsUpTo E R (f i) (f i)) :
    ReaderProperty types f fun _ p => SelfDelimiting R p where
  pure := .pure
  throw _ := .throw _
  bind := .bind
  takeBytes := .takeBytes
  currentOffset := .currentOffset
  answer i known := .ofLoad (answers i known)

/-! ## Whole attributes -/

/-- Bytes are refused as truncated when some are missing at the end, and as too many when others
follow. -/
structure Delimited (decode : List UInt8 → Load α) (bytes : List UInt8) (r : Registry) : Prop where
  missing : ∀ front back, bytes = front ++ back → back ≠ [] → IsTruncated (decode front r)
  surplus : ∀ more, more ≠ [] → ∃ r', decode (bytes ++ more) r
    = .error (.trailingBytes more.length) r'

/-- A reader that knows its end refuses all other ends of the bytes that it accepts, with every
registry that is related to the one it started with.  It leaves related registries. -/
lemma SelfDelimiting.delimited {p : Read α} (h : SelfDelimiting R p) {bytes : List UInt8} {a : α}
    {r r' t : Registry} (ran : readAll p bytes r = .ok a r') (related : R r t) :
    Delimited (readAll p) bytes t ∧ ∃ t', R r' t' := by
  obtain ⟨s, here, empty, rfl⟩ := readAll_eq_ok.1 ran
  obtain ⟨taken, split, again⟩ := h _ a s here
  obtain ⟨whole, short⟩ := again t related
  rw [empty, List.append_nil] at split
  dsimp only at split
  subst split
  refine ⟨⟨?_, ?_⟩, ?_⟩
  · intro front back cut rest
    obtain ⟨o, n, m, u, truncated⟩ := short front back cut rest
    exact ⟨o, n, m, u.registry, by rw [readAll, truncated]⟩
  · intro more rest
    obtain ⟨t', ran', -⟩ := whole more
    exact ⟨t', by rw [readAll, ran']; simp [rest]⟩
  · obtain ⟨t', -, related'⟩ := whole []
    exact ⟨t', related'⟩

/-- Whatever bytes are accepted with a registry have no other end, neither then nor afterwards. -/
def DelimitsAccepted (decode : List UInt8 → Load α) (bytes : List UInt8) (r : Registry) : Prop :=
  ∀ a r', decode bytes r = .ok a r' → Delimited decode bytes r ∧ Delimited decode bytes r'

variable {l : Loader} {r : Registry}

/-- Registries that are coherent with the same one give the same answers. -/
lemma Loader.readerProperty_selfDelimiting (l : Loader) (r : Registry) :
    ReaderProperty l.types l.defaultsFor fun _ p =>
      SelfDelimiting (fun s t => l.Coherent r s ∧ l.Coherent r t) p :=
  DocAnnotations.readerProperty_selfDelimiting fun _ => follows_defaultsFor

/-- If a reader is self-delimiting from coherent registries on, so is what is read with it as a
whole. -/
lemma delimitsAccepted_of_selfDelimiting {p : Read α}
    (reader : SelfDelimiting (fun s t => l.Coherent r s ∧ l.Coherent r t) p)
    (bytes : List UInt8) : DelimitsAccepted (readAll p) bytes r := by
  intro a r' ran
  have atStart := l.coherent_self r
  obtain ⟨here, _, afterwards, -⟩ := reader.delimited ran ⟨atStart, atStart⟩
  exact ⟨here, (reader.delimited ran ⟨atStart, afterwards⟩).1⟩

/-- **Attributes end where they say.**  Whatever bytes a loader accepts, as an annotation, as a
value or as all annotations of a member, it refuses as truncated without some bytes at their end,
and for the number of further bytes with others behind them.  So no accepted attribute is the front
of another. -/
theorem accepted_self_delimiting (l : Loader) (bytes : List UInt8) (r : Registry) :
    DelimitsAccepted l.decode bytes r ∧ DelimitsAccepted l.decodeValue bytes r
    ∧ DelimitsAccepted l.decodeMember bytes r := by
  have readers := l.readerProperty_selfDelimiting r
  exact ⟨delimitsAccepted_of_selfDelimiting readers.readTopLevel bytes,
    delimitsAccepted_of_selfDelimiting (readers.readValue _) bytes,
    delimitsAccepted_of_selfDelimiting readers.readMember bytes⟩

/-- A point without its coordinate, whose default is loaded while it is read. -/
theorem accepted_self_delimiting_point :
    let l := sampleIndex.loader ⟨0⟩
    let bytes := [64, 0, 7, 112, 46, 80, 111, 105, 110, 116, 0, 1, 0, 4, 117, 110, 105, 116, 101, 0,
      8, 76, 112, 47, 85, 110, 105, 116, 59, 0, 2, 67, 77]
    ∃ a r', l.decode bytes .empty = .ok a r' ∧ a.contains "x" = true
      ∧ Delimited l.decode bytes .empty ∧ Delimited l.decode bytes r' := by
  intro l bytes
  have read : (returned (l.decode bytes .empty)).any (fun a => a.contains "x") = true := by
    decide +kernel
  obtain ⟨a, decoded, has⟩ := (Option.any_eq_true _ _).1 read
  obtain ⟨r', ran⟩ := exists_of_returned decoded
  exact ⟨a, r', ran, has, (accepted_self_delimiting l bytes .empty).1 a r' ran⟩

end DocAnnotations
