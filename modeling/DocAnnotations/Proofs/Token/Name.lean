import DocAnnotations.Proofs.Token.Number
import Mathlib.Data.List.TakeWhile

/-!
# Names as tokens

A `JavaName` is what names of types, elements and constants look like: letters, digits, `_` and `$`,
with dots between segments.

**`isLexeme_name`**: such a name is a single token of the identifier kind unless it is one of the
truth words, which are literals.

**`isLexeme_dotted`**: so is the name with a dot and more name characters behind it, which is no
truth word because of the dot.  Class literals and enum constants are written that way.
-/

namespace DocAnnotations

open Text

variable {c : Char} {w more : List Char} {name : String}

/-- A letter, a digit, `_`, `$`, or the dot between segments. -/
def isJavaNameChar (c : Char) : Bool := isLetterOrNumeral c || c == '_' || c == '$' || c == '.'

/-- A name of letters, digits, `_`, `$` and dots that starts with neither a digit nor a dot.  Every
name of dotted segments that do not start with digits is one. -/
structure JavaName (name : String) : Prop where
  start : ∃ c w, name.toList = c :: w ∧ c.isDigit = false ∧ c ≠ '.'
  chars : ∀ c ∈ name.toList, isJavaNameChar c = true

/-- A name is one of the language if and only if it starts with neither a digit nor a dot, and has
only characters of such names. -/
lemma javaName_iff : JavaName name ↔
    (name.toList.head?.any fun c => !c.isDigit && c != '.') = true ∧
      name.toList.all isJavaNameChar = true := by
  have start : (∃ c w, name.toList = c :: w ∧ c.isDigit = false ∧ c ≠ '.') ↔
      (name.toList.head?.any fun c => !c.isDigit && c != '.') = true := by
    cases name.toList with
    | nil => simp
    | cons c w => simp
  rw [← start, List.all_eq_true]
  exact ⟨fun h => ⟨h.start, h.chars⟩, fun h => ⟨h.1, h.2⟩⟩

instance (name : String) : Decidable (JavaName name) := decidable_of_iff' _ javaName_iff

/-- Whether a name is `true` or `false` in letters of either case. -/
def isTruthWord (name : List Char) : Bool :=
  name.map Char.toLower == "true".toList || name.map Char.toLower == "false".toList

lemma isNameChar_of_isJavaNameChar (h : isJavaNameChar c = true) : isNameChar c = true := by
  refine isNameChar_of_class (fun stop => ?_) h
  have letter := isLetterOrNumeral_of_stop stop
  have underscore : c ≠ '_' := ne_of_stop stop (by decide)
  have dollar : c ≠ '$' := ne_of_stop stop (by decide)
  have dot : c ≠ '.' := ne_of_stop stop (by decide)
  simp [isJavaNameChar, letter, underscore, dollar, dot]

/-- The letter tables have no minus sign. -/
lemma ne_minus_of_isJavaNameChar (h : isJavaNameChar c = true) : c ≠ '-' := by
  rintro rfl
  exact absurd h (by decide +kernel)

/-- A text of name characters that starts no number is a name or a truth word. -/
lemma isLexeme_of_nameChars (names : (c :: w).all isNameChar = true)
    (begins : beginsNumber c w = false) (dot : c ≠ '.') :
    IsLexeme (if isTruthWord (c :: w) then .boolean else .identifier) (c :: w) := by
  obtain ⟨first, others⟩ := List.forall_mem_cons.1 (List.all_eq_true.1 names)
  have all : w.takeWhile isNameChar = w := List.takeWhile_eq_self_iff.2 others
  refine ⟨c, w, rfl, isBlank_of_isNameChar first, by split_ifs <;> decide, ?_⟩
  rcases scanToken_shape c with ⟨_, -, -, stop, -⟩ | ⟨_, -, stop, -⟩ | scan
  · rw [first] at stop
    cases stop
  · rw [first] at stop
    cases stop
  · rw [scan, begins, if_neg (by decide), if_neg dot, scanName, all]
    rfl

namespace JavaName

/-- **A name with more name characters behind it is a name**, or a truth word. -/
lemma isLexeme_append (h : JavaName name) (others : ∀ x ∈ more, isNameChar x = true) :
    IsLexeme (if isTruthWord (name.toList ++ more) then .boolean else .identifier)
      (name.toList ++ more) := by
  obtain ⟨c, w, front, digit, dot⟩ := h.start
  have chars := h.chars
  rw [front] at chars ⊢
  have minus := ne_minus_of_isJavaNameChar (chars c List.mem_cons_self)
  refine isLexeme_of_nameChars (List.all_eq_true.2 ?_)
    (by simp [beginsNumber, dot, minus, digit]) dot
  intro x hx
  rcases List.mem_append.1 (List.cons_append ▸ hx) with hx | hx
  · exact isNameChar_of_isJavaNameChar (chars x hx)
  · exact others x hx

/-- **A name is a single token.** -/
theorem isLexeme_name (h : JavaName name) (word : isTruthWord name.toList = false) :
    IsLexeme .identifier name.toList := by
  have lexeme := h.isLexeme_append (fun x hx => absurd hx List.not_mem_nil)
  rwa [List.append_nil, word] at lexeme

/-- **A name with a dot and more behind it is a single token.** -/
theorem isLexeme_dotted (h : JavaName name) (others : ∀ x ∈ more, isNameChar x = true)
    (dotted : '.' ∈ more) : IsLexeme .identifier (name.toList ++ more) := by
  have word : isTruthWord (name.toList ++ more) = false := by
    have there : '.' ∈ (name.toList ++ more).map Char.toLower :=
      List.mem_map.2 ⟨'.', List.mem_append_right _ dotted, by decide⟩
    rw [isTruthWord, Bool.or_eq_false_iff, beq_eq_false_iff_ne, beq_eq_false_iff_ne]
    constructor
    · intro same
      rw [same] at there
      exact absurd there (by decide)
    · intro same
      rw [same] at there
      exact absurd there (by decide)
  have lexeme := h.isLexeme_append others
  rwa [word] at lexeme

/-- Names have none of the characters that mean something elsewhere. -/
lemma not_mem (h : JavaName name) {c : Char} (other : isJavaNameChar c = false) :
    c ∉ name.toList := fun there => by
  rw [h.chars c there] at other
  cases other

end JavaName

lemma isLexeme_truth (b : Bool) : IsLexeme .boolean (if b then "true" else "false").toList := by
  cases b with
  | true => exact isLexeme_of_nameChars (by decide) (by decide) (by decide)
  | false => exact isLexeme_of_nameChars (by decide) (by decide) (by decide)

end DocAnnotations
