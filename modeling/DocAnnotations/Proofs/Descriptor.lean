import DocAnnotations.Descriptor
import Mathlib.Data.String.Basic

/-!
# Descriptors read back

The descriptor of a class or enum says its name with slashes for dots, between `L` and a semicolon;
primitive keywords are single letters.

**Classes and enums.**  A name that has none of the characters with a meaning in descriptors is a
`PlainName`, and the descriptor of a plain name stands for that name: `ofDescriptor?_descriptor` for
class references, `objectName?_objectDescriptor` for enum types.

**What descriptors stand for.**  The other way round a descriptor may be any text.  `Spells` is the
relation of the front of a text to the base type that is read from it, and `fieldType?_eq_some_iff`
says which texts are read at all.

**Names and lengths that are read.**  What is read from a text has a plain name and a descriptor
that is no longer than the text, so that it can be written if the text could: `of_ofDescriptor?` and
`of_objectName?`.
-/

namespace DocAnnotations

/-- A name without the characters that mean something in a descriptor. -/
def PlainName (name : String) : Prop := ∀ c ∈ ['/', ';', '(', ')'], c ∉ name.toList

-- Left to inference this may go through all characters that there are.
instance (name : String) : Decidable (PlainName name) :=
  List.decidableBAll (fun c => c ∉ name.toList) _

/-! ## Slashes and dots -/

/-- The characters of a name as a descriptor spells them. -/
def slashed (name : String) : List Char := name.toList.map fun c => if c == '.' then '/' else c

/-- The descriptor of a class is its name in slashes between the two marks. -/
lemma toList_objectDescriptor (name : String) :
    (objectDescriptor name).toList = 'L' :: (slashed name ++ [';']) := by
  simp [objectDescriptor, slashed]

/-- A class name as descriptors spell it, with dots for the slashes. -/
def dotted (written : List Char) : String :=
  String.ofList (written.map fun c => if c == '/' then '.' else c)

/-- A plain name comes back when its dots are made to slashes and back. -/
lemma dotted_slashed {name : String} (plain : PlainName name) : dotted (slashed name) = name := by
  have noSlash : '/' ∉ name.toList := plain '/' (by simp)
  rw [dotted, ← String.toList_inj, String.toList_ofList, slashed, List.map_map]
  refine (List.map_congr_left fun c hc => ?_).trans (List.map_id _)
  by_cases dot : c = '.'
  · simp [dot]
  · have : c ≠ '/' := fun h => noSlash (h ▸ hc)
    simp [dot, this]

/-- The marks of descriptors do not occur in the slashed form of a plain name. -/
lemma not_mem_slashed {name : String} (plain : PlainName name) {c : Char}
    (special : c ∈ [';', '(', ')']) : c ∉ slashed name := by
  intro h
  obtain ⟨d, hd, rfl⟩ := List.mem_map.1 h
  by_cases dot : d = '.'
  · simp [dot] at special
  · simp only [beq_iff_eq, dot, if_false] at special
    exact plain d (List.mem_cons_of_mem _ special) hd

/-! ## Reading a type -/

lemma takeWhile_replicate_append {n : Nat} {c : Char} {cs : List Char} (h : cs.head? ≠ some c) :
    (List.replicate n c ++ cs).takeWhile (· == c) = List.replicate n c := by
  rw [List.takeWhile_append_of_pos (by simp)]
  cases cs with
  | nil => simp
  | cons d ds => simp [show d ≠ c from fun e => h (by simp [e])]

lemma dropWhile_replicate_append {n : Nat} {c : Char} {cs : List Char} (h : cs.head? ≠ some c) :
    (List.replicate n c ++ cs).dropWhile (· == c) = cs := by
  rw [List.dropWhile_append_of_pos (by simp)]
  cases cs with
  | nil => rfl
  | cons d ds => simp [show d ≠ c from fun e => h (by simp [e])]

/-- The brackets of a type are its dimensions, and what follows is its base. -/
lemma readType_replicate_append {n : Nat} {cs rest : List Char} {base : BaseType}
    (few : n ≤ maxDimensions) (open_ : cs.head? ≠ some '[') (close : cs.head? ≠ some ')')
    (read : readBase cs = .ok (base, rest)) :
    readType (List.replicate n '[' ++ cs) = .ok (⟨n, base⟩, rest) := by
  simp only [readType, takeWhile_replicate_append open_, dropWhile_replicate_append open_,
    List.length_replicate, if_neg (Nat.not_lt.2 few)]
  rw [if_neg (by simp [close]), read]
  rfl

/-- A field descriptor without parentheses is the type at its front. -/
lemma fieldType?_of_readType (descriptor : String) {ty : TypeDescriptor} {rest : List Char}
    (opening : '(' ∉ descriptor.toList) (closing : ')' ∉ descriptor.toList)
    (nonempty : descriptor.toList ≠ []) (read : readType descriptor.toList = .ok (ty, rest)) :
    fieldType? descriptor = some ty := by
  have : ¬ (descriptor.toList.isEmpty || descriptor.toList.contains '('
      || descriptor.toList.contains ')') = true := by
    simp [opening, closing, nonempty]
  simp only [fieldType?, if_neg this, read]

/-! ## Classes and enums -/

/-- A name ends at the first semicolon. -/
lemma readBase_written {written : List Char} (single : ';' ∉ written) (rest : List Char) :
    readBase ('L' :: (written ++ ';' :: rest)) = .ok (.object (dotted written), rest) := by
  have noSemicolon : ∀ c ∈ written, (c != ';') = true := fun c hc =>
    bne_iff_ne.2 fun h => single (h ▸ hc)
  rw [readBase, if_pos rfl, List.dropWhile_append_of_pos noSemicolon,
    List.takeWhile_append_of_pos noSemicolon]
  simp [dotted]

/-- Between the marks of a class its plain name is read back, and nothing is left. -/
lemma readBase_object {name : String} (plain : PlainName name) :
    readBase ('L' :: (slashed name ++ [';'])) = .ok (.object name, []) := by
  have read := readBase_written (not_mem_slashed plain (by simp)) []
  rwa [dotted_slashed plain] at read

lemma mem_of_lookup_primitiveLetters {name : String} {letter : Char}
    (h : primitiveLetters.lookup name = some letter) : (name, letter) ∈ primitiveLetters := by
  obtain ⟨front, back, split, -⟩ := List.lookup_eq_some_iff.1 h
  simp [split]

lemma lookup_primitiveLetters {name : String} {letter : Char}
    (h : (name, letter) ∈ primitiveLetters) : primitiveLetters.lookup name = some letter := by
  have all : ∀ p ∈ primitiveLetters, primitiveLetters.lookup p.1 = some p.2 := by decide
  exact all _ h

/-- No mark of a descriptor is the letter of a primitive type. -/
lemma ne_letter {name : String} {letter : Char} (h : (name, letter) ∈ primitiveLetters) {c : Char}
    (special : c ∈ ['[', ';', '.', '(', ')']) : c ≠ letter := by
  have all : ∀ p ∈ primitiveLetters, p.2 ∉ ['[', ';', '.', '(', ')'] := by decide
  exact fun same => all _ h (same ▸ special)

/-- The letter of a primitive type is read as its name, and what follows is left. -/
lemma readBase_keyword {name : String} {letter : Char} (h : (name, letter) ∈ primitiveLetters)
    (rest : List Char) : readBase (letter :: rest) = .ok (.keyword name, rest) := by
  have all : ∀ p ∈ primitiveLetters,
      p.2 ≠ 'L' ∧ (primitiveLetters.find? fun q => q.2 == p.2) = some p := by decide
  obtain ⟨noObject, found⟩ := all _ h
  rw [readBase, if_neg noObject, found]

/-- Brackets in front of the marked name of a class are read as so many dimensions over it. -/
lemma fieldType?_object (descriptor : String) {name : String} (plain : PlainName name) {n : Nat}
    (few : n ≤ maxDimensions)
    (h : descriptor.toList = List.replicate n '[' ++ 'L' :: (slashed name ++ [';'])) :
    fieldType? descriptor = some ⟨n, .object name⟩ := by
  have none_of : ∀ c ∈ ['(', ')'], c ∉ descriptor.toList := by
    intro c hc
    have : c ∉ slashed name := not_mem_slashed plain (List.mem_cons_of_mem _ hc)
    simp only [List.mem_cons, List.not_mem_nil, or_false] at hc
    rcases hc with rfl | rfl <;> simp [h, this]
  have read : readType descriptor.toList = .ok (⟨n, .object name⟩, []) := by
    rw [h]
    exact readType_replicate_append few (by simp) (by simp) (readBase_object plain)
  exact fieldType?_of_readType descriptor (none_of _ (by simp)) (none_of _ (by simp)) (by simp [h])
    read

/-- The name of a class or enum is read back from its descriptor. -/
lemma objectName?_objectDescriptor {name : String} (plain : PlainName name) :
    objectName? (objectDescriptor name) = some name := by
  have field := fieldType?_object (objectDescriptor name) plain (Nat.zero_le _)
    (by simp [toList_objectDescriptor])
  simp only [objectName?, field]

/-- Primitive keywords have a letter. -/
lemma exists_lookup_primitiveLetters {name : String} (h : isPrimitiveName name = true) :
    ∃ letter, primitiveLetters.lookup name = some letter := by
  cases found : primitiveLetters.lookup name with
  | some letter => exact ⟨letter, rfl⟩
  | none =>
      obtain ⟨p, mem, same⟩ := List.any_eq_true.1 h
      have apart := List.lookup_eq_none_iff.1 found p mem
      rw [beq_iff_eq] at same
      simp [same] at apart

/-- Brackets in front of the letter of a primitive type are read as so many dimensions over it. -/
lemma fieldType?_primitive (descriptor : String) {name : String} {letter : Char}
    (h : (name, letter) ∈ primitiveLetters) {n : Nat} (few : n ≤ maxDimensions)
    (hd : descriptor.toList = List.replicate n '[' ++ [letter]) :
    fieldType? descriptor = some ⟨n, .keyword name⟩ := by
  have bracket : '[' ≠ letter := ne_letter h (by simp)
  have opening : '(' ≠ letter := ne_letter h (by simp)
  have closing : ')' ≠ letter := ne_letter h (by simp)
  have readAll : readType descriptor.toList = .ok (⟨n, .keyword name⟩, []) := by
    rw [hd]
    exact readType_replicate_append few (by simpa using bracket.symm) (by simpa using closing.symm)
      (readBase_keyword h [])
  exact fieldType?_of_readType descriptor (by simp [hd, opening]) (by simp [hd, closing])
    (by simp [hd]) readAll

/-- The descriptor of an array of a primitive type has a bracket for each dimension and the letter
of the type. -/
lemma toList_descriptor_of_letter {name : String} {letter : Char} (n : Nat)
    (known : (name, letter) ∈ primitiveLetters) :
    (ClassRef.descriptor ⟨name, n⟩).toList = List.replicate n '[' ++ [letter] := by
  simp [ClassRef.descriptor, lookup_primitiveLetters known]

/-- The descriptor of an array of a class has a bracket for each dimension and the marked name. -/
lemma toList_descriptor_of_object {name : String} (n : Nat)
    (object : isPrimitiveName name = false) : (ClassRef.descriptor ⟨name, n⟩).toList
      = List.replicate n '[' ++ 'L' :: (slashed name ++ [';']) := by
  have unknown : primitiveLetters.lookup name = none := by
    refine List.lookup_eq_none_iff.2 fun p mem => ?_
    have other := List.any_eq_false.1 object p mem
    exact bne_iff_ne.2 fun same => other (beq_iff_eq.2 same.symm)
  simp [ClassRef.descriptor, unknown, toList_objectDescriptor]

/-- A field type over a primitive is a class, unless it is an array of void. -/
lemma ofDescriptor?_of_keyword {descriptor name : String} {n : Nat}
    (field : fieldType? descriptor = some ⟨n, .keyword name⟩) (void : name = "void" → n = 0) :
    ClassRef.ofDescriptor? descriptor = some ⟨name, n⟩ := by
  have noArray : ¬ (decide (name = "void") && decide (0 < n)) = true := by
    rw [Bool.and_eq_true, decide_eq_true_eq, decide_eq_true_eq]
    rintro ⟨isVoid, positive⟩
    exact absurd (void isVoid) (Nat.ne_of_gt positive)
  rw [ClassRef.ofDescriptor?, field]
  exact if_neg noArray

/-- A class reference is read back from its descriptor.  Arrays of `void` do not exist. -/
lemma ofDescriptor?_descriptor {c : ClassRef} (few : c.dimensions ≤ maxDimensions)
    (plain : c.isPrimitive = false → PlainName c.name)
    (void : c.name = "void" → c.dimensions = 0) :
    ClassRef.ofDescriptor? c.descriptor = some c := by
  obtain ⟨name, n⟩ := c
  cases object : isPrimitiveName name with
  | true =>
      obtain ⟨letter, found⟩ := exists_lookup_primitiveLetters object
      have known := mem_of_lookup_primitiveLetters found
      exact ofDescriptor?_of_keyword
        (fieldType?_primitive _ known few (toList_descriptor_of_letter n known)) void
  | false =>
      rw [ClassRef.ofDescriptor?,
        fieldType?_object _ (plain object) few (toList_descriptor_of_object n object)]

/-! ## What descriptors stand for -/

/-- What a base type is read from: the letter of a keyword, or `L`, a name and a semicolon.  More
may stand behind it. -/
inductive Spells : List Char → BaseType → Prop
  | keyword {name : String} {letter : Char} (known : (name, letter) ∈ primitiveLetters)
      (rest : List Char) : Spells (letter :: rest) (.keyword name)
  | object {written : List Char} (single : ';' ∉ written) (rest : List Char) :
      Spells ('L' :: (written ++ ';' :: rest)) (.object (dotted written))

/-- What is read as the front of a text spells the base type that was read. -/
lemma spells_of_readBase {base : BaseType} {rest : List Char} :
    ∀ {cs : List Char}, readBase cs = .ok (base, rest) → Spells cs base
  | c :: cs, h => by
      rw [readBase] at h
      split_ifs at h with object
      · have single : ';' ∉ cs.takeWhile (· != ';') := fun mem => by
          simpa using List.all_eq_true.1 List.all_takeWhile _ mem
        have split := List.takeWhile_append_dropWhile (p := (· != ';')) (l := cs)
        have stops := List.head?_dropWhile_not (· != ';') cs
        cases behind : cs.dropWhile (· != ';') with
        | nil =>
            rw [behind] at h
            cases h
        | cons d rest' =>
            rw [behind] at h stops split
            cases h
            have semicolon : d = ';' := by simpa using stops
            have spelled := Spells.object single rest
            rw [semicolon] at split
            rw [split] at spelled
            rw [object]
            exact spelled
      · cases found : primitiveLetters.find? fun p => p.2 == c with
        | none =>
            rw [found] at h
            cases h
        | some p =>
            obtain ⟨name, letter⟩ := p
            have same : letter = c := by simpa using List.find?_some found
            rw [found] at h
            cases h
            exact same ▸ .keyword (List.mem_of_find?_eq_some found) rest

/-- A field descriptor has at most so many brackets, no parentheses, and a base type behind the
brackets. -/
lemma spells_of_fieldType? {descriptor : String} {n : Nat} {base : BaseType}
    (h : fieldType? descriptor = some ⟨n, base⟩) :
    n ≤ maxDimensions ∧ '(' ∉ descriptor.toList ∧ ')' ∉ descriptor.toList
      ∧ ∃ text, descriptor.toList = List.replicate n '[' ++ text ∧ Spells text base := by
  simp only [fieldType?] at h
  split_ifs at h with special
  simp only [Bool.or_eq_true, List.contains_iff_mem, not_or] at special
  simp only [readType] at h
  split_ifs at h with many bracket
  · cases read : readBase (descriptor.toList.dropWhile (· == '[')) with
    | error e =>
        rw [read] at h
        cases h
    | ok found =>
        obtain ⟨base', rest⟩ := found
        rw [read] at h
        cases h
        have brackets := List.eq_replicate_of_mem (l := descriptor.toList.takeWhile (· == '['))
          fun c mem => beq_iff_eq.1 (List.all_eq_true.1 List.all_takeWhile c mem)
        refine ⟨Nat.not_lt.1 many, special.1.2, special.2, _, ?_, spells_of_readBase read⟩
        rw [← brackets, List.takeWhile_append_dropWhile]

/-- A spelling is read as its base type, and it begins neither with a bracket nor with a
parenthesis. -/
lemma readBase_of_spells {text : List Char} {base : BaseType} (h : Spells text base) :
    (∃ rest, readBase text = .ok (base, rest)) ∧ text.head? ≠ some '[' ∧ text.head? ≠ some ')' := by
  cases h with
  | @keyword _ letter known rest =>
      have bracket : '[' ≠ letter := ne_letter known (by simp)
      have closing : ')' ≠ letter := ne_letter known (by simp)
      exact ⟨⟨rest, readBase_keyword known rest⟩, by simpa using bracket.symm,
        by simpa using closing.symm⟩
  | object single rest => exact ⟨⟨rest, readBase_written single rest⟩, by simp, by simp⟩

/-- A text is read as a field type if and only if it has no parenthesis and is not too many brackets
followed by a spelling. -/
lemma fieldType?_eq_some_iff {descriptor : String} {n : Nat} {base : BaseType} :
    fieldType? descriptor = some ⟨n, base⟩ ↔
      n ≤ maxDimensions ∧ '(' ∉ descriptor.toList ∧ ')' ∉ descriptor.toList
        ∧ ∃ text, descriptor.toList = List.replicate n '[' ++ text ∧ Spells text base := by
  refine ⟨spells_of_fieldType?, ?_⟩
  rintro ⟨few, opening, closing, text, spelled, spells⟩
  obtain ⟨⟨rest, read⟩, bracket, closing'⟩ := readBase_of_spells spells
  refine fieldType?_of_readType descriptor opening closing ?_
    (by rw [spelled]; exact readType_replicate_append few bracket closing' read)
  -- A base type is at least a letter.
  rw [spelled]
  cases spells <;> simp

/-! ## How long descriptors are -/

/-- Slashes and dots have the same length. -/
lemma utf8Len_map {f : Char → Char} (same : ∀ c, (f c).utf8Size = c.utf8Size) :
    ∀ cs : List Char, String.utf8Len (cs.map f) = String.utf8Len cs
  | [] => rfl
  | c :: cs => by
      rw [List.map_cons, String.utf8Len_cons, String.utf8Len_cons, utf8Len_map same cs, same]

lemma utf8Len_replicate {c : Char} (single : c.utf8Size = 1) :
    ∀ n : Nat, String.utf8Len (List.replicate n c) = n
  | 0 => rfl
  | n + 1 => by rw [List.replicate_succ, String.utf8Len_cons, utf8Len_replicate single n, single]

lemma utf8Len_brackets (n : Nat) : String.utf8Len (List.replicate n '[') = n :=
  utf8Len_replicate rfl n

lemma utf8ByteSize_dotted (written : List Char) :
    (dotted written).utf8ByteSize = String.utf8Len written := by
  rw [dotted, String.utf8ByteSize_ofList]
  refine utf8Len_map (fun c => ?_) written
  split_ifs with slash
  · rw [beq_iff_eq.1 slash]
    rfl
  · rfl

/-- The two marks add two bytes to the name, and slashes take as many bytes as dots. -/
lemma utf8ByteSize_objectDescriptor (name : String) :
    (objectDescriptor name).utf8ByteSize = name.utf8ByteSize + 2 := by
  have same : String.utf8Len (slashed name) = name.utf8ByteSize := by
    rw [slashed, ← String.utf8Len_toList]
    refine utf8Len_map (fun c => ?_) _
    split_ifs with dot
    · rw [beq_iff_eq.1 dot]
      rfl
    · rfl
  have semicolon : String.utf8Len [';'] = 1 := rfl
  have letter : 'L'.utf8Size = 1 := rfl
  rw [← String.utf8Len_toList, toList_objectDescriptor, String.utf8Len_cons,
    String.utf8Len_append, same, semicolon, letter]

/-- A descriptor has a byte for each dimension, and a letter or a marked name. -/
lemma utf8ByteSize_descriptor_le (c : ClassRef) :
    c.descriptor.utf8ByteSize ≤ c.dimensions
      + if c.isPrimitive then 1 else c.name.utf8ByteSize + 2 := by
  obtain ⟨name, n⟩ := c
  rw [← String.utf8Len_toList, ClassRef.isPrimitive]
  cases object : isPrimitiveName name with
  | true =>
      obtain ⟨letter, found⟩ := exists_lookup_primitiveLetters object
      have known := mem_of_lookup_primitiveLetters found
      have all : ∀ p ∈ primitiveLetters, p.2.utf8Size = 1 := by
        simp [primitiveLetters, Char.utf8Size]
      have single : String.utf8Len [letter] = 1 := by rw [String.utf8Len_cons, all _ known]; rfl
      rw [toList_descriptor_of_letter n known, String.utf8Len_append, utf8Len_brackets, single,
        if_pos rfl]
  | false =>
      rw [toList_descriptor_of_object n object, ← toList_objectDescriptor, String.utf8Len_append,
        utf8Len_brackets, String.utf8Len_toList, utf8ByteSize_objectDescriptor]
      exact le_rfl

/-! ## Names and lengths that are read -/

/-- A name that is written without the marks of descriptors is plain. -/
lemma plainName_dotted {written : List Char} (plain : ∀ c ∈ [';', '(', ')'], c ∉ written) :
    PlainName (dotted written) := by
  intro c special mem
  rw [dotted, String.toList_ofList] at mem
  obtain ⟨d, hd, rfl⟩ := List.mem_map.1 mem
  by_cases slash : d = '/'
  · simp [slash] at special
  · simp only [beq_iff_eq, slash, if_false, List.mem_cons, List.not_mem_nil, or_false,
      false_or] at special
    exact plain d (by simpa using special) hd

/-- An object that is read has a plain name, no longer than its descriptor. -/
lemma object_of_fieldType? {descriptor name : String} {n : Nat}
    (h : fieldType? descriptor = some ⟨n, .object name⟩) :
    n ≤ maxDimensions ∧ PlainName name ∧ n + (name.utf8ByteSize + 2) ≤ descriptor.utf8ByteSize := by
  obtain ⟨few, opening, closing, text, spelled, base⟩ := spells_of_fieldType? h
  cases base with
  | @object written single rest =>
      refine ⟨few, plainName_dotted fun c special mem => ?_, ?_⟩
      · have there : c ∈ descriptor.toList := by simp [spelled, mem]
        simp only [List.mem_cons, List.not_mem_nil, or_false] at special
        rcases special with rfl | rfl | rfl
        · exact single mem
        · exact opening there
        · exact closing there
      · have semicolon : ';'.utf8Size = 1 := rfl
        have letter : 'L'.utf8Size = 1 := rfl
        rw [← String.utf8Len_toList (s := descriptor), spelled, utf8ByteSize_dotted]
        simp only [String.utf8Len_append, String.utf8Len_cons, utf8Len_brackets]
        omega

/-- A field type over a keyword is one over a primitive type, and its text has a byte for each
dimension and one more. -/
lemma keyword_of_fieldType? {descriptor name : String} {n : Nat}
    (h : fieldType? descriptor = some ⟨n, .keyword name⟩) :
    n ≤ maxDimensions ∧ isPrimitiveName name = true ∧ n + 1 ≤ descriptor.utf8ByteSize := by
  obtain ⟨few, -, -, text, spelled, base⟩ := spells_of_fieldType? h
  cases base with
  | @keyword _ letter known rest =>
      refine ⟨few, List.any_eq_true.2 ⟨_, known, by simp⟩, ?_⟩
      have positive := letter.utf8Size_pos
      rw [← String.utf8Len_toList (s := descriptor), spelled]
      simp only [String.utf8Len_append, String.utf8Len_cons, utf8Len_brackets]
      omega

/-- A class reference that is read is written no longer than it was, and has a plain name if it is
no primitive. -/
lemma of_ofDescriptor? {descriptor : String} {c : ClassRef}
    (h : ClassRef.ofDescriptor? descriptor = some c) :
    c.dimensions ≤ maxDimensions ∧ (c.isPrimitive = false → PlainName c.name)
      ∧ c.descriptor.utf8ByteSize ≤ descriptor.utf8ByteSize := by
  suffices all : c.dimensions ≤ maxDimensions ∧ (c.isPrimitive = false → PlainName c.name)
      ∧ (c.dimensions + if c.isPrimitive then 1 else c.name.utf8ByteSize + 2)
        ≤ descriptor.utf8ByteSize from
    ⟨all.1, all.2.1, (utf8ByteSize_descriptor_le c).trans all.2.2⟩
  rw [ClassRef.ofDescriptor?] at h
  split at h
  · next n name found =>
      obtain ⟨few, keyword, size⟩ := keyword_of_fieldType? found
      split_ifs at h
      cases h
      have primitive : ClassRef.isPrimitive ⟨name, n⟩ = true := keyword
      simp only [primitive]
      exact ⟨few, nofun, size⟩
  · next n name found =>
      obtain ⟨few, plain, size⟩ := object_of_fieldType? found
      cases h
      refine ⟨few, fun _ => plain, ?_⟩
      split_ifs <;> dsimp only <;> omega
  · cases h

/-- The same for the type of an enum constant. -/
lemma of_objectName? {descriptor name : String} (h : objectName? descriptor = some name) :
    PlainName name ∧ (objectDescriptor name).utf8ByteSize ≤ descriptor.utf8ByteSize := by
  rw [objectName?] at h
  split at h
  · next found =>
      cases h
      obtain ⟨-, plain, size⟩ := object_of_fieldType? found
      rw [utf8ByteSize_objectDescriptor]
      exact ⟨plain, by omega⟩
  · cases h

end DocAnnotations
