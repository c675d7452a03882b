import DocAnnotations.Proofs.Attribute.Reading
import DocAnnotations.Proofs.Descriptor

/-!
# Spellings of classes and enums

A class has one descriptor, and so has an enum; these are what is written.  The reader takes more
texts.  It reads a descriptor from its front, so that anything may stand behind the type.  It takes
dots in a name as well as slashes.  And a class that is named like a primitive keyword is that
primitive for it.  A `ClassRef.Spelling` is a text that the reader takes for a class, and a class is
read from a text exactly if a spelling of it stands in front and no parenthesis anywhere:
`ofDescriptor?_eq_some_iff`, and `objectName?_eq_some_iff` for enums.

**`references_spelled`**: which texts are read as which class and which enum, which of these are
what is written for it, and that the same holds of the bytes of references wherever these stand.
-/

namespace DocAnnotations

/-! ## Spellings -/

/-- What the reader takes for a class: a bracket for each dimension, then the letter of a keyword,
or a name between `L` and a semicolon. -/
inductive ClassRef.Spelling : ClassRef → List Char → Prop
  | keyword {name : String} {letter : Char} {n : Nat} (known : (name, letter) ∈ primitiveLetters)
      (few : n ≤ maxDimensions) (void : name = "void" → n = 0) :
      Spelling ⟨name, n⟩ (List.replicate n '[' ++ [letter])
  | object {written : List Char} {n : Nat} (few : n ≤ maxDimensions) (single : ';' ∉ written) :
      Spelling ⟨dotted written, n⟩ (List.replicate n '[' ++ 'L' :: (written ++ [';']))

/-! ## What is read -/

/-- No parenthesis is in a text. -/
def NoParenthesis (text : String) : Prop := '(' ∉ text.toList ∧ ')' ∉ text.toList

/-- A text is read as a class if and only if it has no parenthesis and begins with a spelling of the
class; the rest is not looked at. -/
theorem ofDescriptor?_eq_some_iff {d : String} {c : ClassRef} :
    ClassRef.ofDescriptor? d = some c ↔
      NoParenthesis d ∧ ∃ spelling rest, d.toList = spelling ++ rest ∧ c.Spelling spelling := by
  constructor
  · intro h
    rw [ClassRef.ofDescriptor?] at h
    split at h
    · next n name found =>
        obtain ⟨few, opening, closing, text, split, spells⟩ := fieldType?_eq_some_iff.1 found
        split_ifs at h with void
        cases h
        cases spells with
        | @keyword _ letter known rest =>
            refine ⟨⟨opening, closing⟩, List.replicate n '[' ++ [letter], rest, by simp [split],
              .keyword known few fun isVoid => ?_⟩
            simpa [isVoid] using void
    · next n name found =>
        obtain ⟨few, opening, closing, text, split, spells⟩ := fieldType?_eq_some_iff.1 found
        cases h
        cases spells with
        | @object written single rest =>
            exact ⟨⟨opening, closing⟩, List.replicate n '[' ++ 'L' :: (written ++ [';']), rest,
              by simp [split], .object few single⟩
    · cases h
  · rintro ⟨⟨opening, closing⟩, spelling, rest, split, spelled⟩
    cases spelled with
    | @keyword name letter n known few void =>
        have found : fieldType? d = some ⟨n, .keyword name⟩ :=
          fieldType?_eq_some_iff.2 ⟨few, opening, closing, letter :: rest, by simp [split],
            .keyword known rest⟩
        exact ofDescriptor?_of_keyword found void
    | @object written n few single =>
        have found : fieldType? d = some ⟨n, .object (dotted written)⟩ :=
          fieldType?_eq_some_iff.2 ⟨few, opening, closing, 'L' :: (written ++ ';' :: rest),
            by simp [split], .object single rest⟩
        rw [ClassRef.ofDescriptor?, found]

/-- A text is read as the name of a class if and only if it has no parenthesis and begins with the
name, in slashes or in dots, between its marks. -/
theorem objectName?_eq_some_iff {d name : String} :
    objectName? d = some name ↔
      NoParenthesis d ∧ ∃ written rest, d.toList = 'L' :: (written ++ ';' :: rest)
        ∧ ';' ∉ written ∧ dotted written = name := by
  constructor
  · intro h
    rw [objectName?] at h
    split at h
    · next found =>
        cases h
        obtain ⟨-, opening, closing, text, split, spells⟩ := fieldType?_eq_some_iff.1 found
        cases spells with
        | @object written single rest =>
            exact ⟨⟨opening, closing⟩, written, rest, by simpa using split, single, rfl⟩
    · cases h
  · rintro ⟨⟨opening, closing⟩, written, rest, split, single, rfl⟩
    have found : fieldType? d = some ⟨0, .object (dotted written)⟩ :=
      fieldType?_eq_some_iff.2 ⟨Nat.zero_le _, opening, closing, _, by simpa using split,
        .object single rest⟩
    simp only [objectName?, found]

/-! ## What is written for it -/

/-- When slashes are made to dots and dots to slashes, all dots have become slashes, and slashes are
as they were. -/
lemma slashed_dotted (written : List Char) :
    slashed (dotted written) = written.map fun c => if c == '.' then '/' else c := by
  rw [slashed, dotted, String.toList_ofList, List.map_map]
  refine List.map_congr_left fun c _ => ?_
  by_cases slash : c = '/' <;> simp [slash]

/-- A name that is written again is the one that was read, if no dot was in it. -/
lemma slashed_dotted_eq_iff {written : List Char} :
    slashed (dotted written) = written ↔ '.' ∉ written := by
  rw [slashed_dotted]
  constructor
  · intro kept dot
    rw [← kept] at dot
    obtain ⟨c, -, changed⟩ := List.mem_map.1 dot
    split_ifs at changed with isDot
    · exact absurd changed (by decide)
    · exact isDot (beq_iff_eq.2 changed)
  · intro undotted
    refine (List.map_congr_left fun c mem => ?_).trans (List.map_id _)
    have other : ¬ (c == '.') = true := fun isDot => undotted (beq_iff_eq.1 isDot ▸ mem)
    exact if_neg other

/-- The spelling that is written for a name is the text that was read if and only if nothing follows
the mark and the name was not written in dots. -/
lemma object_eq_iff {written rest : List Char} :
    'L' :: (slashed (dotted written) ++ [';']) = 'L' :: (written ++ ';' :: rest)
      ↔ rest = [] ∧ '.' ∉ written := by
  have length : (slashed (dotted written)).length = written.length := by
    rw [slashed_dotted, List.length_map]
  rw [List.cons_inj_right]
  constructor
  · intro same
    obtain ⟨kept, nothing⟩ := List.append_inj same length
    exact ⟨(List.cons.inj nothing).2.symm, slashed_dotted_eq_iff.1 kept⟩
  · rintro ⟨rfl, undotted⟩
    rw [slashed_dotted_eq_iff.2 undotted]

/-- A text with a spelling in front is the descriptor if nothing else is there, no dot stands for a
slash, and no keyword stands as a name. -/
lemma ClassRef.Spelling.descriptor_eq_iff {c : ClassRef} {spelling rest : List Char}
    (h : c.Spelling spelling) : c.descriptor.toList = spelling ++ rest ↔
      rest = [] ∧ '.' ∉ spelling ∧ (';' ∈ spelling → c.isPrimitive = false) := by
  cases h with
  | @keyword name letter n known few void =>
      have dot : '.' ≠ letter := ne_letter known (by simp)
      have semicolon : ';' ≠ letter := ne_letter known (by simp)
      rw [toList_descriptor_of_letter n known]
      simp [dot, semicolon]
  | @object written n few single =>
      cases object : isPrimitiveName (dotted written) with
      | false =>
          have behind : List.replicate n '[' ++ 'L' :: (written ++ [';']) ++ rest
              = List.replicate n '[' ++ 'L' :: (written ++ ';' :: rest) := by simp
          rw [toList_descriptor_of_object n object, behind, List.append_cancel_left_eq,
            object_eq_iff]
          simp [ClassRef.isPrimitive, object]
      | true =>
          -- The descriptor is a letter, and the spelling is longer.
          obtain ⟨letter, found⟩ := exists_lookup_primitiveLetters object
          rw [toList_descriptor_of_letter n (mem_of_lookup_primitiveLetters found)]
          simp [ClassRef.isPrimitive, object]

namespace Attribute

/-! ## References among bytes -/

variable {types : TypeLookup} {part : Part} {d k : String} {text constant : List UInt8}

/-- A text that fits is read back wherever it stands, and what follows it is left. -/
lemma readText_apply (fits : textBytes part d = .ok text) (offset : Nat) (tail : List UInt8)
    (r : Registry) : readText ⟨offset, text ++ tail, r⟩ = .ok d ⟨offset + text.length, tail, r⟩ :=
  readsAs_readText fits offset tail r

/-- Different texts have different bytes. -/
lemma textBytes_inj {d' : String} (fits : textBytes part d = .ok text)
    (fits' : textBytes part d' = .ok text) : d' = d := by
  have read := readText_apply fits' 0 [] .empty
  rw [readText_apply fits] at read
  injection read with same
  exact same.symm

section

variable (fits : textBytes part d = .ok text) {offset : Nat} {tail : List UInt8} {r : Registry}

include fits

/-- From the bytes of a text a class is read if and only if the text is read as the class, and the
index has the class or it is primitive; what follows is left. -/
lemma readClass_eq_ok_iff {c : ClassRef} {s : ReadState} :
    readClass types ⟨offset, text ++ tail, r⟩ = .ok c s ↔
      (ClassRef.ofDescriptor? d = some c ∧ (c.isPrimitive || types.isClass c.name) = true)
        ∧ s = ⟨offset + text.length, tail, r⟩ := by
  simp only [readClass, Bind.bind, EStateM.bind, readText_apply fits]
  cases ClassRef.ofDescriptor? d with
  | none => exact ⟨nofun, fun h => nomatch h.1.1⟩
  | some found =>
      by_cases known : (found.isPrimitive || types.isClass found.name) = true
      · simp only [if_pos known]
        constructor
        · intro ran
          cases ran
          exact ⟨⟨rfl, known⟩, rfl⟩
        · rintro ⟨⟨same, -⟩, rfl⟩
          cases same
          rfl
      · simp only [if_neg known]
        refine ⟨nofun, ?_⟩
        rintro ⟨⟨same, known'⟩, -⟩
        cases same
        exact absurd known' known

/-- A text that is not read as a class is a malformed descriptor, and the error has the text. -/
lemma readClass_of_none (unread : ClassRef.ofDescriptor? d = none) :
    readClass types ⟨offset, text ++ tail, r⟩
      = .error (.invalidDescriptor d) ⟨offset + text.length, tail, r⟩ := by
  simp only [readClass, Bind.bind, EStateM.bind, readText_apply fits, unread]
  rfl

variable {part' : Part} (fits' : textBytes part' k = .ok constant)

include fits'

/-- From the bytes of two texts an enum constant is read if and only if the first is read as the
name of an enum that the index has, and the second names a constant of it. -/
lemma readEnum_eq_ok_iff {e : EnumRef} {s : ReadState} :
    readEnum types ⟨offset, text ++ (constant ++ tail), r⟩ = .ok e s ↔
      (objectName? d = some e.typeName ∧ e.constant = k
          ∧ ∃ found, types.enumeration? e.typeName = some found ∧ found.hasConstant k = true)
        ∧ s = ⟨offset + text.length + constant.length, tail, r⟩ := by
  simp only [readEnum, Bind.bind, EStateM.bind, readText_apply fits, readText_apply fits']
  obtain ⟨typeName', k'⟩ := e
  cases objectName? d with
  | none => exact ⟨nofun, fun h => nomatch h.1.1⟩
  | some typeName =>
      dsimp only
      cases found : types.enumeration? typeName with
      | none =>
          refine ⟨nofun, ?_⟩
          rintro ⟨⟨same, -, e, there, -⟩, -⟩
          cases same
          cases found.symm.trans there
      | some t =>
          by_cases known : t.hasConstant k = true
          · simp only [if_pos known]
            constructor
            · intro ran
              cases ran
              exact ⟨⟨rfl, rfl, t, found, known⟩, rfl⟩
            · rintro ⟨⟨same, rfl, -⟩, rfl⟩
              cases same
              rfl
          · simp only [if_neg known]
            refine ⟨nofun, ?_⟩
            rintro ⟨⟨same, -, e, there, known'⟩, -⟩
            cases same
            cases found.symm.trans there
            exact absurd known' known

/-- A text that is not read as a name is a malformed descriptor, whatever constant follows. -/
lemma readEnum_of_none (unread : objectName? d = none) :
    readEnum types ⟨offset, text ++ (constant ++ tail), r⟩
      = .error (.invalidDescriptor d) ⟨offset + text.length + constant.length, tail, r⟩ := by
  simp only [readEnum, Bind.bind, EStateM.bind, readText_apply fits, readText_apply fits', unread]
  rfl

end

/-- A class is written as the bytes of a text if and only if the text is its descriptor. -/
lemma classBytes_eq_iff {c : ClassRef} (fits : textBytes .classDescriptor d = .ok text) :
    classBytes c = .ok (tagged .classRef text) ↔ c.descriptor = d := by
  constructor
  · intro written
    cases own : textBytes .classDescriptor c.descriptor with
    | error e => simp [classBytes, own, Bind.bind, Except.bind] at written
    | ok bytes =>
        simp only [classBytes, own, Bind.bind, Except.bind, Pure.pure, Except.pure,
          Except.ok.injEq, tagged, List.cons_inj_right] at written
        exact textBytes_inj fits (written ▸ own)
  · rintro rfl
    simp [classBytes, fits, Bind.bind, Except.bind, Pure.pure, Except.pure]

/-- An enum constant is written as the bytes of a text and of its name if and only if the text is
the descriptor of the enum. -/
lemma enumBytes_eq_iff {typeName : String} (fits : textBytes .enumDescriptor d = .ok text)
    (fits' : textBytes .enumConstant k = .ok constant) :
    enumBytes ⟨typeName, k⟩ = .ok (tagged .enum (text ++ constant))
      ↔ objectDescriptor typeName = d := by
  constructor
  · intro written
    cases own : textBytes .enumDescriptor (objectDescriptor typeName) with
    | error e => simp [enumBytes, own, Bind.bind, Except.bind] at written
    | ok bytes =>
        simp only [enumBytes, own, fits', Bind.bind, Except.bind, Pure.pure, Except.pure,
          Except.ok.injEq, tagged, List.cons_inj_right, List.append_cancel_right_eq] at written
        exact textBytes_inj fits (written ▸ own)
  · rintro rfl
    simp [enumBytes, fits, fits', Bind.bind, Except.bind, Pure.pure, Except.pure]

end Attribute

open Attribute in
/-- A class is read from a text exactly if a spelling of it is in front, and its descriptor is the
text exactly if nothing stands behind, no dot for a slash, and no keyword as a name.  Enums are read
in the same way, where keywords are names.  The bytes of a reference, at any place and with any
registry, are refused where nothing is read from their text, and else accepted if the class or
constant exists; they are what is written for the reference if the text is its descriptor. -/
theorem references_spelled (d : String) :
    (∀ c, ClassRef.ofDescriptor? d = some c ↔
      NoParenthesis d ∧ ∃ spelling rest, d.toList = spelling ++ rest ∧ c.Spelling spelling) ∧
    (∀ (c : ClassRef) spelling rest, c.Spelling spelling → d.toList = spelling ++ rest →
      (c.descriptor = d ↔
        rest = [] ∧ '.' ∉ spelling ∧ (';' ∈ spelling → c.isPrimitive = false))) ∧
    (∀ name, objectName? d = some name ↔
      NoParenthesis d ∧ ∃ written rest, d.toList = 'L' :: (written ++ ';' :: rest)
        ∧ ';' ∉ written ∧ dotted written = name) ∧
    (∀ written rest, ';' ∉ written → d.toList = 'L' :: (written ++ ';' :: rest) →
      (objectDescriptor (dotted written) = d ↔ rest = [] ∧ '.' ∉ written)) ∧
    (∀ types text, textBytes .classDescriptor d = .ok text → ∀ offset tail r,
      (ClassRef.ofDescriptor? d = none → readClass types ⟨offset, text ++ tail, r⟩
        = .error (.invalidDescriptor d) ⟨offset + text.length, tail, r⟩) ∧
      (∀ c s, readClass types ⟨offset, text ++ tail, r⟩ = .ok c s ↔
        (ClassRef.ofDescriptor? d = some c ∧ (c.isPrimitive || types.isClass c.name) = true)
          ∧ s = ⟨offset + text.length, tail, r⟩) ∧
      ∀ c, classBytes c = .ok (tagged .classRef text) ↔ c.descriptor = d) ∧
    (∀ types text k constant, textBytes .enumDescriptor d = .ok text →
      textBytes .enumConstant k = .ok constant → ∀ offset tail r,
      (objectName? d = none → readEnum types ⟨offset, text ++ (constant ++ tail), r⟩
        = .error (.invalidDescriptor d) ⟨offset + text.length + constant.length, tail, r⟩) ∧
      (∀ e s, readEnum types ⟨offset, text ++ (constant ++ tail), r⟩ = .ok e s ↔
        (objectName? d = some e.typeName ∧ e.constant = k
            ∧ ∃ found, types.enumeration? e.typeName = some found ∧ found.hasConstant k = true)
          ∧ s = ⟨offset + text.length + constant.length, tail, r⟩) ∧
      ∀ name, enumBytes ⟨name, k⟩ = .ok (tagged .enum (text ++ constant))
        ↔ objectDescriptor name = d) := by
  refine ⟨fun c => ofDescriptor?_eq_some_iff, fun c spelling rest spelled split => ?_,
    fun name => objectName?_eq_some_iff, fun written rest single split => ?_,
    fun types text fits offset tail r => ?_,
    fun types text k constant fits fits' offset tail r => ?_⟩
  · rw [← String.toList_inj, split]
    exact spelled.descriptor_eq_iff
  · rw [← String.toList_inj, split, toList_objectDescriptor]
    exact object_eq_iff
  · exact ⟨readClass_of_none fits, fun c s => readClass_eq_ok_iff fits,
      fun c => classBytes_eq_iff fits⟩
  · exact ⟨readEnum_of_none fits fits', fun e s => readEnum_eq_ok_iff fits fits',
      fun name => enumBytes_eq_iff fits fits'⟩

/-- Text behind a type, dots for slashes and a keyword as a name: each text is read as a class that
has another descriptor. -/
theorem references_spelled_malformed :
    (ClassRef.ofDescriptor? "Ix" = some ⟨"int", 0⟩ ∧ ClassRef.descriptor ⟨"int", 0⟩ ≠ "Ix") ∧
    (ClassRef.ofDescriptor? "Lp.Q;" = some ⟨"p.Q", 0⟩ ∧ ClassRef.descriptor ⟨"p.Q", 0⟩ ≠ "Lp.Q;") ∧
    (ClassRef.ofDescriptor? "Lint;" = some ⟨"int", 0⟩ ∧ ClassRef.descriptor ⟨"int", 0⟩ ≠ "Lint;") ∧
    (objectName? "Lp.Q;x" = some "p.Q" ∧ objectDescriptor "p.Q" ≠ "Lp.Q;x") := by
  have int : ClassRef.Spelling ⟨"int", 0⟩ ['I'] := .keyword (by decide) (by decide) (by decide)
  have dots : ClassRef.Spelling ⟨"p.Q", 0⟩ "Lp.Q;".toList :=
    @ClassRef.Spelling.object "p.Q".toList 0 (by decide) (by decide)
  have named : ClassRef.Spelling ⟨"int", 0⟩ "Lint;".toList :=
    @ClassRef.Spelling.object "int".toList 0 (by decide) (by decide)
  refine ⟨⟨?_, ?_⟩, ⟨?_, ?_⟩, ⟨?_, ?_⟩, ?_, ?_⟩
  · exact ((references_spelled "Ix").1 _).2 ⟨⟨by decide, by decide⟩, ['I'], ['x'], rfl, int⟩
  · exact mt ((references_spelled "Ix").2.1 _ _ ['x'] int rfl).1 (by decide)
  · exact ((references_spelled "Lp.Q;").1 _).2 ⟨⟨by decide, by decide⟩, _, [], rfl, dots⟩
  · exact mt ((references_spelled "Lp.Q;").2.1 _ _ [] dots rfl).1 (by decide)
  · exact ((references_spelled "Lint;").1 _).2 ⟨⟨by decide, by decide⟩, _, [], rfl, named⟩
  · exact mt ((references_spelled "Lint;").2.1 _ _ [] named rfl).1 (by decide)
  · exact ((references_spelled "Lp.Q;x").2.2.1 _).2
      ⟨⟨by decide, by decide⟩, "p.Q".toList, ['x'], rfl, by decide, by decide⟩
  · exact mt ((references_spelled "Lp.Q;x").2.2.2.1 "p.Q".toList ['x'] (by decide) rfl).1
      (by decide)

end DocAnnotations
