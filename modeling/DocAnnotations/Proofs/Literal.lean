import DocAnnotations.Proofs.Attribute.Soundness
import DocAnnotations.Proofs.Attribute.Writing
import DocAnnotations.Proofs.Decimal.Finite
import DocAnnotations.Resolve

/-!
# What literals come to

`TypeLookup.Literal` lists which values a single literal may have for an element of each type:
floating values are finite, characters are one unit, classes and enum constants exist, and arrays
and annotations are no literals.

**Numbers.**  An integer that fits its width has few enough bits to be a finite floating value, and
a floating literal is finite because an infinite one is refused.

**Characters and names.**  A character literal of more than one unit is refused, and the names of
classes and enums are looked up; `TypeLookup.FindsLoadable` says of the lookup that what it finds
for a name as it is written it also finds by the qualified name.

**All types.**  **`literalValue_ok`** says that resolving a literal gives nothing else.
-/

namespace DocAnnotations

open Attribute Decimal

/-- The values of single literals, by the type of the element they are for. -/
inductive TypeLookup.Literal (types : TypeLookup) : ElementType → Value → Prop
  | byte (n : Int8) : Literal types .byte (.byte n)
  | short (n : Int16) : Literal types .short (.short n)
  | int (n : Int32) : Literal types .int (.int n)
  | long (n : Int64) : Literal types .long (.long n)
  | float {bits : UInt32} (finite : single.IsFinite bits.toNat) :
    Literal types .float (.float bits)
  | double {bits : UInt64} (finite : Decimal.double.IsFinite bits.toNat) :
    Literal types .double (.double bits)
  | boolean (b : Bool) : Literal types .boolean (.boolean b)
  | char {c : Char} (unit : isSingleUnit c) : Literal types .char (.char c)
  | string (s : String) : Literal types .string (.string s)
  | classRef {c : ClassRef} (exists_ : c.isPrimitive = true ∨ types.isClass c.name = true)
    (few : c.dimensions ≤ maxDimensions) (void : c.name = "void" → c.dimensions = 0) :
    Literal types .classRef (.classRef c)
  | enum {e : EnumRef} {found : EnumType} (exists_ : types.enumeration? e.typeName = some found)
    (constant : found.hasConstant e.constant = true) :
    Literal types (.enum e.typeName) (.enum e)

/-- What a lookup finds for names written in source it also finds by their qualified names, and no
other name stands for a class called `void`. -/
structure TypeLookup.FindsLoadable (types : TypeLookup) : Prop where
  classes : ∀ {name found}, types.findClass? name = some found → types.isClass found = true
  void : ∀ {name}, types.findClass? name = some "void" → name = "void"
  enums : ∀ {name found}, types.enumeration? name = some found → found.name = name

/-! ## Numbers -/

lemma natAbs_fit? {l : IntegerLiteral} {n : Int} (h : l.fit? 64 = some n) :
    n.natAbs < 2 ^ 65 := by
  unfold IntegerLiteral.fit? at h
  obtain ⟨m, hm, rfl⟩ := Option.map_eq_some_iff.1 h
  have bound : m.natAbs ≤ 2 ^ 64 := by
    unfold IntegerLiteral.signed? at hm
    simp only [Nat.pow_eq, Nat.reducePow, Nat.reduceSub] at hm
    split_ifs at hm with fits wraps
    · cases hm
      simp only [Bool.or_eq_true, decide_eq_true_eq, Bool.and_eq_true] at fits
      omega
    · cases hm
      simp only [Bool.and_eq_true, decide_eq_true_eq] at wraps
      omega
  split_ifs <;> omega

/-- A value that is read for an integer type has at most 65 bits, sign and all. -/
lemma integerValue_ok {element text : String} {expected : ElementType} {n : Int}
    (h : integerValue element expected 64 text = .ok n) : n.natAbs < 2 ^ 65 := by
  unfold integerValue at h
  split at h
  · cases h
  · split_ifs at h
    split at h
    · next fits =>
      cases h
      exact natAbs_fit? fits
    · cases h

/-- A pattern that is read for a floating type is finite, and it is one of the format. -/
lemma floatingValue_ok {element text otherName : String} {expected : ElementType}
    {f : BinaryFormat} {own other : Char} {bits : Nat}
    (h : floatingValue element expected f own other otherName text = .ok bits) :
    f.IsFinite bits ∧ bits < 2 * f.signBit := by
  unfold floatingValue at h
  split at h
  · next ok =>
    cases h
    exact BinaryFormat.floatingLiteral_ok ok
  all_goals cases h

lemma isFinite_uint32 {bits : Nat} (h : single.IsFinite bits ∧ bits < 2 * single.signBit) :
    single.IsFinite (UInt32.ofNat bits).toNat := by
  have small : bits < 2 ^ 32 := h.2
  rw [UInt32.toNat_ofNat_of_lt' small]
  exact h.1

lemma isFinite_uint64 {bits : Nat}
    (h : Decimal.double.IsFinite bits ∧ bits < 2 * Decimal.double.signBit) :
    Decimal.double.IsFinite (UInt64.ofNat bits).toNat := by
  have small : bits < 2 ^ 64 := h.2
  rw [UInt64.toNat_ofNat_of_lt' small]
  exact h.1

/-! ## Characters and names -/

/-- A character literal is one unit, since one that takes two is not read. -/
lemma isSingleUnit_charLiteral? {cs : List Char} {c : Char} (h : charLiteral? cs = some c) :
    isSingleUnit c := by
  unfold charLiteral? at h
  split at h
  · next unit _ =>
    split_ifs at h with valid
    cases h
    exact isSingleUnit_ofNat valid unit.toNat_lt
  · cases h

/-- A class literal has not too many dimensions, and is no array of void. -/
lemma classLiteral?_ok {cs : List Char} {c : ClassRef} (h : classLiteral? cs = some c) :
    c.dimensions ≤ maxDimensions ∧ (c.name = "void" → c.dimensions = 0) := by
  unfold classLiteral? at h
  dsimp only at h
  split_ifs at h with form void
  cases h
  simp only [Bool.or_eq_true, decide_eq_true_eq, not_or] at form
  refine ⟨Nat.le_of_not_lt form.1.1.1, fun isVoid => ?_⟩
  have none : ¬ 0 < _ := fun positive => void (by
    rw [Bool.and_eq_true, decide_eq_true_eq, decide_eq_true_eq]
    exact ⟨isVoid, positive⟩)
  exact Nat.eq_zero_of_not_pos none

variable {types : TypeLookup} {element : String}

/-- A class literal resolves only to classes that the index has, or to primitive types. -/
lemma classValue_ok (finds : types.FindsLoadable) {text : String} {c : ClassRef}
    (h : classValue types element text = .ok c) : types.Literal .classRef (.classRef c) := by
  unfold classValue at h
  split at h
  · cases h
  · next d literal =>
    obtain ⟨few, void⟩ := classLiteral?_ok literal
    split_ifs at h with primitive
    · cases h
      exact .classRef (Or.inl primitive) few void
    · split at h
      · next name found =>
        cases h
        refine .classRef (Or.inr (finds.classes found)) few fun isVoid => ?_
        dsimp only at isVoid
        exact void (finds.void (isVoid ▸ found))
      · cases h

/-- An enum literal resolves only to constants of the enum that was expected. -/
lemma enumValue_ok (finds : types.FindsLoadable) {name text : String} {e : EnumRef}
    (h : enumValue types element name text = .ok e) : types.Literal (.enum name) (.enum e) := by
  unfold enumValue at h
  split_ifs at h
  split at h
  · cases h
  · next literal _ =>
    split at h
    · cases h
    · next found exists_ =>
      split_ifs at h with _ constant
      cases h
      have named := finds.enums exists_
      subst named
      exact .enum (e := ⟨found.name, literal.constant⟩) exists_ constant

/-! ## All types -/

/-- A literal of the right kind has the value that its text is converted to. -/
lemma exists_of_converted {ε α β : Type} {fits : Prop} [Decidable fits] {read : Except ε α}
    {convert : α → β} {mismatch : ε} {b : β}
    (h : (if fits then do return convert (← read) else .error mismatch) = .ok b) :
    ∃ a, read = .ok a ∧ convert a = b := by
  split_ifs at h
  obtain ⟨a, ran, h⟩ := bind_eq_ok_iff.1 h
  exact ⟨a, ran, Except.ok.inj h⟩

/-- A literal has one of the values listed for the type of its element. -/
theorem literalValue_ok (finds : types.FindsLoadable) {kind : LiteralKind} {text : String}
    {expected : ElementType} {v : Value}
    (h : literalValue types element kind text expected = .ok v) : types.Literal expected v := by
  cases expected with
  | byte =>
      obtain ⟨n, -, rfl⟩ := exists_of_converted h
      exact .byte _
  | short =>
      obtain ⟨n, -, rfl⟩ := exists_of_converted h
      exact .short _
  | int =>
      obtain ⟨n, -, rfl⟩ := exists_of_converted h
      exact .int _
  | long =>
      obtain ⟨n, -, rfl⟩ := exists_of_converted h
      exact .long _
  | float =>
      simp only [literalValue] at h
      split_ifs at h
      · obtain ⟨bits, hbits, h⟩ := bind_eq_ok_iff.1 h
        cases Except.ok.inj h
        exact .float (isFinite_uint32 (floatingValue_ok hbits))
      · obtain ⟨n, hn, h⟩ := bind_eq_ok_iff.1 h
        cases Except.ok.inj h
        exact .float (isFinite_uint32
          (BinaryFormat.isFinite_ofInt (integerValue_ok hn) (by decide)))
  | double =>
      simp only [literalValue] at h
      split_ifs at h
      · obtain ⟨bits, hbits, h⟩ := bind_eq_ok_iff.1 h
        cases Except.ok.inj h
        exact .double (isFinite_uint64 (floatingValue_ok hbits))
      · obtain ⟨n, hn, h⟩ := bind_eq_ok_iff.1 h
        cases Except.ok.inj h
        exact .double (isFinite_uint64
          (BinaryFormat.isFinite_ofInt (integerValue_ok hn) (by decide)))
  | boolean =>
      simp only [literalValue] at h
      split_ifs at h
      cases h
      exact .boolean _
  | char =>
      simp only [literalValue] at h
      split_ifs at h
      split at h
      · next c literal =>
        cases h
        exact .char (isSingleUnit_charLiteral? literal)
      · cases h
  | string =>
      simp only [literalValue] at h
      split_ifs at h
      split at h
      · cases h
        exact .string _
      · cases h
  | classRef =>
      obtain ⟨c, found, rfl⟩ := exists_of_converted h
      exact classValue_ok finds found
  | enum name =>
      obtain ⟨e, found, rfl⟩ := exists_of_converted h
      exact enumValue_ok finds found
  | interface name => cases h
  | array element => cases h

/-- Literals have the type they are for. -/
lemma TypeLookup.Literal.conforms {expected : ElementType} {v : Value}
    (h : types.Literal expected v) : v.conforms expected = true := by
  cases h <;> simp [Value.conforms]

/-- There is nothing inside a literal. -/
lemma TypeLookup.Literal.everywhere {P : Value → Prop} {expected : ElementType} {v : Value}
    (h : types.Literal expected v) (here : P v) : v.Everywhere P := by
  cases h <;> exact here

end DocAnnotations
