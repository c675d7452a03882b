import DocAnnotations.Proofs.Literal
import DocAnnotations.Proofs.Literal.Floating
import DocAnnotations.Proofs.Literal.Integer
import DocAnnotations.Proofs.Token.Name
import DocAnnotations.Proofs.Token.Quoted

/-!
# Literals that are read back

`TypeLookup.Literal` lists the values that single literals may have.  Each of them has a literal of
its own, namely its text.

**Floating values.**  The text of a finite value is a decimal that reads back as the value, with the
suffix that the type needs.

**Classes and enum constants.**  The text of a class ends in `.class` and that of a constant does
not, and both are split at the right place, because names must be Java-style
(`TypeLookup.JavaNames`).  A lookup must find what it has by the qualified name
(`TypeLookup.FindsQualified`).

**All literals.**  The text of a value is one token (**`isLexeme_literal`**), and for an element of
the type it means the value again (**`literalValue_chars`**), floating values bit for bit.
-/

namespace DocAnnotations

open Text Decimal BinaryFormat

/-! ## Floating values -/

section

variable {type : FloatingType} {bits : Nat}

/-- A written pattern is a floating literal that means the pattern, with the suffix of its type and
without one. -/
lemma literalValue_floatingChars (finite : type.format.IsFinite bits)
    (bound : bits < 2 * type.format.signBit) {suffix : Option Char}
    (mine : ∀ c ∈ suffix, c ∈ type.suffixes) :
    IsLexeme .float (floatingChars type.format bits ++ suffix.toList) ∧
      ∀ types element, literalValue types element .float
        (String.ofList (floatingChars type.format bits ++ suffix.toList)) type.elementType
          = .ok (type.ofPattern bits) := by
  obtain ⟨t, written, read⟩ :=
    floatingOfChars_finite (l := valueLayout) rfl type.moderate finite bound
  have text : floatingChars type.format bits = t.chars := by
    obtain ⟨number, bounded⟩ := BinaryFormat.isFinite_iff.1 finite
    rw [floatingChars, number, bounded, written]
    rfl
  have floating : ∀ c ∈ suffix, NumberText.isFloatSuffix c = true := fun c mem =>
    FloatingType.isFloatSuffix_iff.2 (.inl (FloatingType.mem_suffixes_iff.1 (mine c mem)))
  rw [text, t.chars_append floating]
  refine ⟨(t.floatingText suffix floating).isLexeme, fun types element => ?_⟩
  refine FloatingType.literalValue_ok_iff.2 ⟨bits, ?_, rfl⟩
  rw [String.toList_ofList]
  rcases FloatingType.floatingLiteral_chars (t.floatingText suffix floating) with
    ⟨-, same⟩ | ⟨other, -⟩
  · rw [t.chars_eq] at read
    exact same.trans read
  · exact absurd mine other

end

/-! ## Classes and enum constants -/

section

lemma dropEnd?_append (tail cs : List Char) : dropEnd? tail (cs ++ tail) = some cs := by
  rw [dropEnd?, if_pos (List.isSuffixOf_iff_suffix.2 (List.suffix_append _ _))]
  simp

lemma splitLast?_of_not_mem {mark : Char} :
    ∀ {cs : List Char}, mark ∉ cs → splitLast? mark cs = none
  | [], _ => rfl
  | c :: cs, h => by
      obtain ⟨here, behind⟩ := not_or.1 (List.mem_cons.not.1 h)
      simp [splitLast?, splitLast?_of_not_mem behind, Ne.symm here]

/-- A text is split at the last of its marks, so that none is behind it. -/
lemma splitLast?_append {mark : Char} {ds : List Char} (last : mark ∉ ds) (cs : List Char) :
    splitLast? mark (cs ++ mark :: ds) = some (cs, ds) := by
  induction cs with
  | nil => simp [splitLast?, splitLast?_of_not_mem last]
  | cons c cs ih => rw [List.cons_append, splitLast?, ih]

/-- The brackets of an array class. -/
lemma dropBrackets_brackets (cs : List Char) (stop : ']' ∉ cs) (n : Nat) : ∀ count,
    dropBrackets count (((List.replicate n ['[', ']']).flatten).reverse ++ cs)
      = (count + n, cs) := by
  induction n with
  | zero =>
      intro count
      cases cs with
      | nil => rfl
      | cons c cs =>
          have other : c ≠ ']' := fun same => stop (same ▸ List.mem_cons_self)
          simp [dropBrackets, other]
  | succ n ih =>
      intro count
      rw [List.replicate_succ', List.flatten_append]
      simp only [List.flatten_singleton, List.reverse_append, List.reverse_cons, List.reverse_nil,
        List.nil_append, List.cons_append, dropBrackets]
      rw [ih]
      congr 1
      omega

/-- The literal that is written for a class is read back as the class. -/
lemma classLiteral?_render {c : ClassRef} (named : JavaName c.name)
    (few : c.dimensions ≤ maxDimensions) (void : c.name = "void" → c.dimensions = 0) :
    classLiteral? (c.render.toList ++ ".class".toList) = some c := by
  have left : '[' ∉ c.name.toList := named.not_mem (by decide +kernel)
  have right : ']' ∉ c.name.toList := named.not_mem (by decide +kernel)
  have text : c.render.toList
      = c.name.toList ++ (List.replicate c.dimensions ['[', ']']).flatten := by
    rw [ClassRef.render, String.toList_append, String.toList_ofList]
  have brackets := dropBrackets_brackets c.name.toList.reverse (by simpa using right)
    c.dimensions 0
  have nonempty : c.name.toList ≠ [] := by
    obtain ⟨first, w, front, -⟩ := named.start
    simp [front]
  rw [classLiteral?, dropEnd?_append, Option.getD_some, text, List.reverse_append, brackets]
  simp only [List.reverse_reverse, Nat.zero_add]
  rw [if_neg (by simp [nonempty, left, right, few]), String.ofList_toList, if_neg (by
    simp only [Bool.and_eq_true, decide_eq_true_eq, not_and]
    intro same
    rw [void same]
    decide)]

lemma toList_enumRender (e : EnumRef) :
    e.render.toList = e.typeName.toList ++ '.' :: e.constant.toList := by
  rw [EnumRef.render, String.toList_append, String.toList_append, List.append_assoc]
  rfl

/-- The literal that is written for an enum constant is read back, since the name of the constant
has no dot. -/
lemma enumLiteral?_render {e : EnumRef} (last : '.' ∉ e.constant.toList) :
    enumLiteral? e.render.toList = some e := by
  rw [enumLiteral?, toList_enumRender, splitLast?_append last, Option.map_some]
  simp only [String.ofList_toList]

/-- An enum constant looks like a class literal only if it is called `class`. -/
lemma isSuffixOf_enumRender {e : EnumRef} (last : '.' ∉ e.constant.toList)
    (other : e.constant ≠ "class") : ".class".toList.isSuffixOf e.render.toList = false := by
  cases suffix : ".class".toList.isSuffixOf e.render.toList with
  | false => rfl
  | true =>
      obtain ⟨front, split⟩ := List.isSuffixOf_iff_suffix.1 suffix
      have same := splitLast?_append last e.typeName.toList
      rw [← toList_enumRender, ← split] at same
      have called : splitLast? '.' (front ++ '.' :: "class".toList)
          = some (front, "class".toList) := splitLast?_append (by decide) front
      have named := congrArg Prod.snd (Option.some.inj (same.symm.trans called))
      exact absurd (String.toList_injective named) other

end

/-! ## All literals -/

/-- What is asked of the names of types, elements and constants: no name is a truth word where it
stands alone, and a constant is no class literal behind its enum. -/
structure TypeLookup.JavaNames (types : TypeLookup) : Prop where
  classes : ∀ {name}, types.isClass name = true → JavaName name
  enums : ∀ {name e}, types.enumeration? name = some e → JavaName name ∧
    ∀ constant ∈ e.constants, JavaName constant ∧ '.' ∉ constant.toList ∧ constant ≠ "class"
  interfaces : ∀ {name i}, types.annotation? name = some i →
    (JavaName name ∧ isTruthWord name.toList = false) ∧
      ∀ e ∈ i.elements, JavaName e.name ∧ isTruthWord e.name.toList = false

/-- A type that exists is found by its qualified name. -/
structure TypeLookup.FindsQualified (types : TypeLookup) : Prop where
  classes : ∀ {name}, types.isClass name = true → types.findClass? name = some name
  interfaces : ∀ {name i}, types.annotation? name = some i → types.findAnnotation? name = some i

/-- The kind of literal that a value is written as. -/
def Value.literalKind : Value → LiteralKind
  | .byte _ | .short _ | .int _ | .long _ => .integer
  | .float _ | .double _ => .float
  | .boolean _ => .boolean
  | .char _ => .char
  | .string _ => .string
  | _ => .identifier

variable {types : TypeLookup} {type : ElementType} {v : Value}

/-- The names of primitive types are names of the language. -/
lemma javaName_of_isPrimitive {c : ClassRef} (primitive : c.isPrimitive = true) :
    JavaName c.name := by
  have all : ∀ p ∈ primitiveLetters, JavaName p.1 := by decide +kernel
  obtain ⟨p, mem, same⟩ := List.any_eq_true.1 primitive
  exact beq_iff_eq.1 same ▸ all p mem

lemma TypeLookup.JavaNames.javaName_classRef (names : types.JavaNames) {c : ClassRef}
    (exists_ : c.isPrimitive = true ∨ types.isClass c.name = true) : JavaName c.name :=
  exists_.elim javaName_of_isPrimitive names.classes

/-- If all names of an index are names of the language, so are those of an enum constant, which are
not taken for a class. -/
lemma TypeLookup.JavaNames.constant (names : types.JavaNames) {e : EnumRef} {found : EnumType}
    (exists_ : types.enumeration? e.typeName = some found)
    (constant : found.hasConstant e.constant = true) :
    JavaName e.typeName ∧ JavaName e.constant ∧ '.' ∉ e.constant.toList ∧ e.constant ≠ "class" :=
  ⟨(names.enums exists_).1, (names.enums exists_).2 _ (List.contains_iff_mem.1 constant)⟩

/-- Name characters, brackets and the end of a class literal go on with a name. -/
lemma isNameChar_brackets (n : Nat) {x : Char}
    (h : x ∈ (List.replicate n ['[', ']']).flatten ++ ".class".toList) : isNameChar x = true := by
  have all : ("[]".toList ++ ".class".toList).all isNameChar = true := by decide
  refine List.all_eq_true.1 all x ?_
  rcases List.mem_append.1 h with h | h
  · obtain ⟨brackets, mem, inside⟩ := List.mem_flatten.1 h
    rw [List.eq_of_mem_replicate mem] at inside
    exact List.mem_append_left _ inside
  · exact List.mem_append_right _ h

/-- **The text of a literal value is a single token.** -/
theorem isLexeme_literal (names : types.JavaNames) (h : types.Literal type v) :
    ∃ kind, kind.literalKind? = some v.literalKind ∧ IsLexeme kind v.chars := by
  have plain : ∀ n : Int, IsLexeme .integer (integerChars n) := fun n =>
    List.append_nil (integerChars n) ▸ isLexeme_integer n (.inl rfl)
  cases h with
  | byte n => exact ⟨.integer, rfl, plain n.toInt⟩
  | short n => exact ⟨.integer, rfl, plain n.toInt⟩
  | int n => exact ⟨.integer, rfl, plain n.toInt⟩
  | long n => exact ⟨.integer, rfl, isLexeme_integer n.toInt (.inr rfl)⟩
  | float finite =>
      obtain ⟨lexeme, -⟩ :=
        @literalValue_floatingChars .float _ finite (UInt32.toNat_lt _) _
          FloatingType.float.own_mem_suffixes
      exact ⟨.float, rfl, lexeme⟩
  | double finite =>
      obtain ⟨lexeme, -⟩ :=
        @literalValue_floatingChars .double _ finite (UInt64.toNat_lt _) none nofun
      rw [Option.toList_none, List.append_nil] at lexeme
      exact ⟨.float, rfl, lexeme⟩
  | boolean b => exact ⟨.boolean, rfl, isLexeme_truth b⟩
  | char unit => exact ⟨.char, rfl, isLexeme_quoted (.inr rfl) _⟩
  | string s => exact ⟨.string, rfl, isLexeme_quoted (.inl rfl) _⟩
  | @classRef c exists_ few void =>
      refine ⟨.identifier, rfl, ?_⟩
      rw [Value.chars, ClassRef.render, String.toList_append, String.toList_ofList,
        List.append_assoc]
      exact (names.javaName_classRef exists_).isLexeme_dotted
        (fun _ => isNameChar_brackets c.dimensions) (List.mem_append_right _ (by decide))
  | enum exists_ constant =>
      obtain ⟨named, word, -, -⟩ := names.constant exists_ constant
      refine ⟨.identifier, rfl, ?_⟩
      rw [Value.chars, toList_enumRender]
      refine named.isLexeme_dotted (fun x hx => ?_) List.mem_cons_self
      rcases List.mem_cons.1 hx with rfl | hx
      · decide
      · exact isNameChar_of_isJavaNameChar (word.chars x hx)

/-- **The text of a literal value means the value.** -/
theorem literalValue_chars (names : types.JavaNames) (finds : types.FindsLoadable)
    (qualified : types.FindsQualified) (h : types.Literal type v) (element : String) :
    literalValue types element v.literalKind (String.ofList v.chars) type = .ok v := by
  have plain : ∀ (type : IntegerType) {n : Int}, -2 ^ (type.bits - 1) ≤ n →
      n < 2 ^ (type.bits - 1) →
      literalValue types element .integer (String.ofList (integerChars n)) type.elementType
        = .ok (type.narrowed n) :=
    fun type n low high => List.append_nil (integerChars n) ▸
      literalValue_integerChars type (.inl rfl) types element low high
  cases h with
  | byte n =>
      have read := plain .byte n.le_toInt n.toInt_lt
      rwa [IntegerType.narrowed, n.ofInt_toInt] at read
  | short n =>
      have read := plain .short n.le_toInt n.toInt_lt
      rwa [IntegerType.narrowed, n.ofInt_toInt] at read
  | int n =>
      have read := plain .int n.le_toInt n.toInt_lt
      rwa [IntegerType.narrowed, n.ofInt_toInt] at read
  | long n =>
      have read := @literalValue_integerChars .long _ ['L'] (.inr ⟨rfl, rfl⟩) types element
        n.le_toInt n.toInt_lt
      rwa [IntegerType.narrowed, n.ofInt_toInt] at read
  | @float bits finite =>
      obtain ⟨-, read⟩ :=
        @literalValue_floatingChars .float _ finite (UInt32.toNat_lt _) _
          FloatingType.float.own_mem_suffixes
      exact (read types element).trans (congrArg (Except.ok ∘ Value.float) UInt32.ofNat_toNat)
  | @double bits finite =>
      obtain ⟨-, read⟩ :=
        @literalValue_floatingChars .double _ finite (UInt64.toNat_lt _) none nofun
      rw [Option.toList_none, List.append_nil] at read
      exact (read types element).trans (congrArg (Except.ok ∘ Value.double) UInt64.ofNat_toNat)
  | boolean b => cases b <;> rfl
  | char unit =>
      simp only [literalValue, Value.literalKind, Value.chars, String.toList_ofList,
        charLiteral?_quotedChars unit.1, if_true]
  | string s =>
      simp only [literalValue, Value.literalKind, Value.chars, String.toList_ofList,
        stringLiteral?_quotedChars, if_true]
  | @classRef c exists_ few void =>
      have read := classLiteral?_render (names.javaName_classRef exists_) few void
      have value : classValue types element (String.ofList (c.render.toList ++ ".class".toList))
          = .ok c := by
        rw [classValue, String.toList_ofList, read]
        dsimp only
        split_ifs with primitive
        · rfl
        · rw [qualified.classes (exists_.resolve_left primitive)]
      simp only [literalValue, Value.literalKind, Value.chars, value, if_true]
      rfl
  | @enum e found exists_ constant =>
      obtain ⟨-, -, last, other⟩ := names.constant exists_ constant
      have value : enumValue types element e.typeName (String.ofList e.render.toList) = .ok e := by
        have text : (String.ofList e.render.toList).toList = e.render.toList :=
          String.toList_ofList
        rw [enumValue, text, isSuffixOf_enumRender last other, enumLiteral?_render last]
        simp only [exists_, finds.enums exists_, constant, bne_self_eq_false, Bool.false_and,
          Bool.false_eq_true, if_false, if_true]
      simp only [literalValue, Value.literalKind, Value.chars, value, if_true]
      rfl

end DocAnnotations
