import DocAnnotations.Attribute.Decode
import DocAnnotations.Attribute.Encode
import Mathlib.Tactic.Ring

/-!
# Readings of known bytes

A reading whose bytes are known in advance does nothing but compute on the registry: `ReadsAs p
bytes q` says that `p`, started in front of `bytes`, takes all of them and leaves what follows, and
that result, error and registry are those of `q`.

**Composition.**  Such statements compose along `bind` while the bytes compose along `++`, so the
reading of a written value is put together the way the value was written.  `readAll_of_readsAs` is
for bytes that are read as a whole.

**Numbers, lengths and texts.**  The second half of the file is about the pieces that carry a number
or a text: whatever `bigEndian`, `lengthBytes` and `textBytes` write is read back.
-/

namespace DocAnnotations.Attribute

variable {α β : Type}

/-! ## Composition -/

/-- In front of `bytes` the reading `p` takes exactly these and computes `q` on the registry.  Where
`q` fails nothing is said about the place at which `p` stops. -/
def ReadsAs (p : Read α) (bytes : List UInt8) (q : Load α) : Prop :=
  ∀ offset rest registry, match q registry with
    | .ok a r => p ⟨offset, bytes ++ rest, registry⟩ = .ok a ⟨offset + bytes.length, rest, r⟩
    | .error e r => ∃ s, p ⟨offset, bytes ++ rest, registry⟩ = .error e s ∧ s.registry = r

namespace ReadsAs

lemma pure (a : α) : ReadsAs (pure a) [] (pure a) := fun _ _ _ => rfl

lemma throw (e : ReadError) (bytes : List UInt8) :
    ReadsAs (throw e : Read α) bytes (throw e) := fun _ _ _ => ⟨_, rfl, rfl⟩

/-- What two readers in a row read is what one reads from the front and the other from the back. -/
lemma bind {p : Read α} {f : α → Read β} {q : Load α} {g : α → Load β} {front back : List UInt8}
    (hp : ReadsAs p front q) (hf : ∀ a, ReadsAs (f a) back (g a)) :
    ReadsAs (p >>= f) (front ++ back) (q >>= g) := by
  intro offset rest registry
  have hp := hp offset (back ++ rest) registry
  simp only [Bind.bind, EStateM.bind, List.append_assoc, List.length_append]
  cases hq : q registry with
  | ok a r =>
      simp only [hq] at hp
      have hf := hf a (offset + front.length) rest r
      simpa only [hp, Nat.add_assoc] using hf
  | error e r =>
      simp only [hq] at hp
      obtain ⟨s, hs, rfl⟩ := hp
      exact ⟨s, by rw [hs], rfl⟩

/-- A first step that only reads a known value. -/
lemma known_bind {p : Read α} {f : α → Read β} {q : Load β} {a : α} {front back : List UInt8}
    (hp : ReadsAs p front (Pure.pure a)) (hf : ReadsAs (f a) back q) :
    ReadsAs (p >>= f) (front ++ back) q := by
  intro offset rest registry
  have hp := hp offset (back ++ rest) registry
  have hf := hf (offset + front.length) rest registry
  simp only [Pure.pure, EStateM.pure] at hp
  simp only [Bind.bind, EStateM.bind, List.append_assoc, List.length_append, hp]
  simpa only [Nat.add_assoc] using hf

/-- A last step that only wraps the value. -/
lemma map {p : Read α} {q : Load α} {bytes : List UInt8} (f : α → β) (hp : ReadsAs p bytes q) :
    ReadsAs (do return f (← p)) bytes (do return f (← q)) := by
  simpa using hp.bind fun a => ReadsAs.pure (f a)

/-- A reading of a known value, wrapped. -/
lemma known_map {p : Read α} {a : α} {bytes : List UInt8} (f : α → β)
    (hp : ReadsAs p bytes (Pure.pure a)) :
    ReadsAs (do return f (← p)) bytes (Pure.pure (f a)) := by
  simpa using hp.known_bind (f := fun a => Pure.pure (f a)) (ReadsAs.pure (f a))

/-- A computation on the registry takes no bytes. -/
lemma ofLoad (q : Load α) : ReadsAs (Read.ofLoad q) [] q := by
  intro offset rest registry
  simp only [Read.ofLoad, List.nil_append]
  cases q registry with
  | ok a r => rfl
  | error e r => exact ⟨_, rfl, rfl⟩

end ReadsAs

/-- A reading that takes all of its bytes is the computation that it does on the registry. -/
lemma readAll_of_readsAs {p : Read α} {bytes : List UInt8} {q : Load α} (h : ReadsAs p bytes q) :
    readAll p bytes = q := by
  funext registry
  have h := h 0 [] registry
  rw [List.append_nil] at h
  simp only [readAll]
  cases hq : q registry with
  | ok a r => simp only [hq] at h; simp [h]
  | error e r =>
      simp only [hq] at h
      obtain ⟨s, hs, rfl⟩ := h
      simp [hs]

/-! ## Numbers -/

@[simp] lemma length_bigEndian : ∀ width n : Nat, (bigEndian width n).length = width
  | 0, _ => rfl
  | width + 1, n => by rw [bigEndian, List.length_cons, length_bigEndian width n]

/-- The bytes of a number behind those of another. -/
lemma foldl_bigEndian (n : Nat) : ∀ width front : Nat,
    (bigEndian width n).foldl (fun m b => m * 256 + b.toNat) front
      = front * 256 ^ width + n % 256 ^ width
  | 0, front => by simp [bigEndian, Nat.mod_one]
  | width + 1, front => by
      rw [bigEndian, List.foldl_cons, foldl_bigEndian n width, Nat.mod_pow_succ, UInt8.toNat_ofNat']
      simp only [Nat.pow_eq, Nat.reducePow]
      ring

/-- A number that fits its width is the number that its big-endian bytes stand for. -/
lemma ofBigEndian_bigEndian {width n : Nat} (h : n < 256 ^ width) :
    ofBigEndian (bigEndian width n) = n := by
  rw [ofBigEndian, foldl_bigEndian, Nat.zero_mul, Nat.zero_add, Nat.mod_eq_of_lt h]

lemma readsAs_currentOffset_bind {f : Nat → Read α} {bytes : List UInt8} {q : Load α}
    (h : ∀ offset, ReadsAs (f offset) bytes q) : ReadsAs (currentOffset >>= f) bytes q :=
  fun offset rest registry => h offset offset rest registry

lemma readsAs_takeBytes (bytes : List UInt8) :
    ReadsAs (takeBytes bytes.length) bytes (pure bytes) := by
  intro offset rest registry
  rw [takeBytes_of_enough (by simp)]
  simp [Pure.pure, EStateM.pure]

/-- A number is read back from its big-endian bytes if it fits their number. -/
lemma readsAs_readNumber {width n : Nat} (h : n < 256 ^ width) :
    ReadsAs (readNumber width) (bigEndian width n) (pure n) := by
  have taken := (readsAs_takeBytes (bigEndian width n)).known_map ofBigEndian
  rwa [length_bigEndian, ofBigEndian_bigEndian h] at taken

lemma readsAs_readByte (b : UInt8) : ReadsAs readByte [b] (pure b) := by
  have small : b.toNat < 256 ^ 1 := b.toNat_lt
  have read := (readsAs_readNumber small).known_map UInt8.ofNat
  have single : bigEndian 1 b.toNat = [b] := by simp [bigEndian]
  rw [UInt8.ofNat_toNat, single] at read
  exact read

lemma readsAs_readByte_bind {f : UInt8 → Read α} {b : UInt8} {bytes : List UInt8} {q : Load α}
    (h : ReadsAs (f b) bytes q) : ReadsAs (readByte >>= f) (b :: bytes) q :=
  (readsAs_readByte b).known_bind h

/-! ## Lengths and texts -/

lemma lengthBytes_ok {part : Part} {n : Nat} {bytes : List UInt8}
    (h : lengthBytes part n = .ok bytes) : n < 256 ^ 2 ∧ bytes = bigEndian 2 n := by
  unfold lengthBytes at h
  split_ifs at h with small
  · exact ⟨small, (Except.ok.inj h).symm⟩

/-- The two bytes that are written for a length are read as that length. -/
lemma readsAs_readLength {part : Part} {n : Nat} {bytes : List UInt8}
    (h : lengthBytes part n = .ok bytes) : ReadsAs readLength bytes (pure n) := by
  obtain ⟨small, rfl⟩ := lengthBytes_ok h
  exact readsAs_readNumber small

/-- The encoding of a text is well-formed and decodes to the text. -/
lemma fromUTF8?_toUTF8 (text : String) :
    String.fromUTF8? ⟨text.toUTF8.data.toList.toArray⟩ = some text := by
  simp [String.fromUTF8?, text.isValidUTF8]
  rfl

/-- What is written for a text is the number of its bytes followed by the bytes. -/
lemma textBytes_ok {part : Part} {text : String} {bytes : List UInt8}
    (h : textBytes part text = .ok bytes) :
    ∃ length, lengthBytes part text.utf8ByteSize = .ok length
      ∧ bytes = length ++ text.toUTF8.data.toList := by
  unfold textBytes at h
  cases hl : lengthBytes part text.utf8ByteSize with
  | error e => simp [hl, Bind.bind, Except.bind] at h
  | ok length =>
      simp only [hl, Bind.bind, Except.bind, Pure.pure, Except.pure] at h
      exact ⟨length, rfl, (Except.ok.inj h).symm⟩

/-- The bytes that are written for a text are read as that text. -/
lemma readsAs_readText {part : Part} {text : String} {bytes : List UInt8}
    (h : textBytes part text = .ok bytes) : ReadsAs readText bytes (pure text) := by
  obtain ⟨length, hl, rfl⟩ := textBytes_ok h
  refine (readsAs_readLength hl).known_bind (readsAs_currentOffset_bind fun offset => ?_)
  have size : text.utf8ByteSize = text.toUTF8.data.toList.length := rfl
  have taken := readsAs_takeBytes text.toUTF8.data.toList
  rw [← size] at taken
  rw [← List.append_nil text.toUTF8.data.toList]
  refine taken.known_bind ?_
  simp only [fromUTF8?_toUTF8]
  exact ReadsAs.pure text

end DocAnnotations.Attribute
