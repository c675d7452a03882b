import DocAnnotations.Proofs.Names
import DocAnnotations.Proofs.Node.Canonical

/-!
# Values as trees

**The tree of a value.**  The text of a value is that of a tree of its own: literals stay literals,
arrays become arrays, and annotations become annotations with a pair for each element.

**Depth.**  Each part of a value opens two levels of the text at most, so a value of some depth
needs at most twice as many.

**The text of a value.**  **`writtenValue_chars`**: where names are Java-style, the text of a value
that resolution may return is written for its tree.  The induction is over the value, and the
literals in it are single words because each was one when it was resolved.
-/

namespace DocAnnotations

open Grammar

/-! ## The tree of a value -/

mutual

/-- The tree that the text of a value is read as. -/
def Value.node : Value → Node
  | .array vs => .array (valueNodes vs) {}
  | .nested a => .nested a.node
  | v => .literal v.literalKind (String.ofList v.chars) {}

/-- The trees of several values. -/
def valueNodes : List Value → List Node
  | [] => []
  | v :: vs => v.node :: valueNodes vs

/-- The tree of an annotation. -/
def Annotation.node : Annotation → AnnotationNode
  | ⟨typeName, elements⟩ => ⟨typeName, pairNodes elements, {}⟩

/-- The pairs of several elements. -/
def pairNodes : List (String × Value) → List PairNode
  | [] => []
  | (name, v) :: es => ⟨name, v.node, {}⟩ :: pairNodes es

end

lemma valueNodes_eq : ∀ vs : List Value, valueNodes vs = vs.map Value.node
  | [] => rfl
  | v :: vs => by rw [valueNodes, valueNodes_eq vs, List.map_cons]

lemma pairNodes_eq : ∀ es : List (String × Value),
    pairNodes es = es.map fun p => ⟨p.1, p.2.node, {}⟩
  | [] => rfl
  | (name, v) :: es => by rw [pairNodes, pairNodes_eq es, List.map_cons]

lemma elementsChars_eq : ∀ vs : List Value, elementsChars vs = vs.map Value.chars
  | [] => rfl
  | v :: vs => by rw [elementsChars, elementsChars_eq vs, List.map_cons]

lemma namedChars_eq : ∀ es : List (String × Value),
    namedChars es = es.map fun p => p.1.toList ++ ['='] ++ p.2.chars
  | [] => rfl
  | (name, v) :: es => by
      rw [namedChars, namedChars_eq es, List.map_cons, List.append_assoc]
      rfl

/-! ## Depth -/

/-- No value is deeper than the deepest of several. -/
lemma depth_le_valuesDepth {v : Value} : ∀ {vs : List Value}, v ∈ vs → v.depth ≤ valuesDepth vs
  | w :: vs, h => by
      rw [valuesDepth]
      rcases List.mem_cons.1 h with rfl | h
      · exact le_max_left _ _
      · exact (depth_le_valuesDepth h).trans (le_max_right _ _)

lemma depth_le_elementsDepth {p : String × Value} : ∀ {es : List (String × Value)},
    p ∈ es → p.2.depth ≤ elementsDepth es
  | (name, v) :: es, h => by
      rw [elementsDepth]
      rcases List.mem_cons.1 h with rfl | h
      · exact le_max_left _ _
      · exact (depth_le_elementsDepth h).trans (le_max_right _ _)

/-! ## The text of a value -/

variable {types : TypeLookup} {type : ElementType} {v : Value}

/-- A value that is neither an array nor an annotation is one of the literals of its type. -/
lemma TypeLookup.Unchanged.literal (h : types.Unchanged v) (typed : v.conforms type = true)
    (unlisted : ∀ vs, v ≠ .array vs) (unnested : ∀ a, v ≠ .nested a) :
    types.Literal type v := by
  obtain ⟨resolved, admitted⟩ := h
  cases v with
  | array vs => exact absurd rfl (unlisted vs)
  | nested a => exact absurd rfl (unnested a)
  | classRef c =>
      cases type with
      | classRef => exact .classRef resolved admitted.1 admitted.2.1
      | _ => cases typed
  | enum e =>
      cases type with
      | enum name =>
          obtain ⟨found, exists_, constant⟩ := resolved
          cases beq_iff_eq.1 typed
          exact .enum exists_ constant
      | _ => cases typed
  | float bits =>
      cases type with
      | float => exact .float resolved
      | _ => cases typed
  | double bits =>
      cases type with
      | double => exact .double resolved
      | _ => cases typed
  | char c =>
      cases type with
      | char => exact .char resolved
      | _ => cases typed
  | _ =>
      cases type <;> cases typed
      constructor

/-- An annotation with names that are tokens, and values that are written for their trees. -/
lemma writtenAnnotation_chars {a : Annotation} (names : types.JavaNames)
    (resolved : types.Resolved (.nested a))
    (inside : ∀ p ∈ a.elements, WrittenValue p.2.chars p.2.node (2 * p.2.depth)) :
    ∃ cs, a.chars = '@' :: cs ∧ WrittenAnnotation cs a.node (2 * elementsDepth a.elements + 1) := by
  obtain ⟨typeName, elements⟩ := a
  obtain ⟨i, found, -, -, declared⟩ := resolved
  obtain ⟨⟨named, word⟩, words⟩ := names.interfaces found
  have token := named.isLexeme_name word
  refine ⟨typeName.toList ++ '(' :: Text.commaSeparated (namedChars elements) ++ [')'], rfl, ?_⟩
  unfold Annotation.node
  cases elements with
  | nil =>
      have text : typeName.toList ++ '(' :: Text.commaSeparated (namedChars []) ++ [')']
          = typeName.toList ++ ['(', ')'] := by
        rw [List.append_assoc]
        rfl
      rw [text]
      exact writtenAnnotation_empty token
  | cons first others =>
      have pairs : ∀ p ∈ first :: others, WrittenPair (p.1.toList ++ ['='] ++ p.2.chars)
          ⟨p.1, p.2.node, {}⟩ (2 * elementsDepth (first :: others)) := by
        intro p hp
        obtain ⟨e, known, -⟩ := declared p hp
        obtain ⟨mem, same⟩ := Interface.mem_of_element? known
        obtain ⟨element, word⟩ := words e mem
        rw [same] at element word
        exact writtenPair (element.isLexeme_name word) isMarkText_equals
          ((inside p hp).mono (Nat.mul_le_mul_left 2 (depth_le_elementsDepth hp)))
      rw [namedChars_eq, pairNodes_eq]
      exact writtenAnnotation_pairs token (written_separated _ (List.cons_ne_nil _ _) pairs)

/-- **The text of a value is written for its tree.** -/
theorem writtenValue_chars (names : types.JavaNames) :
    ∀ {type : ElementType}, v.conforms type = true → v.Everywhere types.Unchanged →
      WrittenValue v.chars v.node (2 * v.depth) := by
  induction v using Value.treeInduction with
  | nested a ih =>
      intro type typed unchanged
      obtain ⟨⟨resolved, -⟩, inside⟩ := everywhere_nested.1 unchanged
      obtain ⟨i, -, -, -, declared⟩ := id resolved
      have written : ∀ p ∈ a.elements, WrittenValue p.2.chars p.2.node (2 * p.2.depth) := by
        intro p hp
        obtain ⟨e, -, typed⟩ := declared p hp
        exact ih p hp typed (inside p hp)
      obtain ⟨cs, text, annotated⟩ := writtenAnnotation_chars names resolved written
      rw [Value.chars, text, Value.node, depth_nested, Annotation.depth]
      exact writtenValue_nested annotated
  | array vs ih =>
      intro type typed unchanged
      obtain ⟨-, inside⟩ := everywhere_array.1 unchanged
      cases type with
      | array element =>
          rw [Value.conforms, allConform_iff] at typed
          rw [Value.chars, Value.node, Value.depth, elementsChars_eq, valueNodes_eq]
          cases vs with
          | nil => exact writtenValue_emptyArray
          | cons first others =>
              have values : ∀ v ∈ first :: others,
                  WrittenValue v.chars v.node (2 * valuesDepth (first :: others)) := fun v hv =>
                (ih v hv (typed v hv) (inside v hv)).mono
                  (Nat.mul_le_mul_left 2 (depth_le_valuesDepth hv))
              exact (writtenValue_array
                (written_separated _ (List.cons_ne_nil _ _) values)).mono (Nat.le_succ _)
      | _ => cases typed
  | _ =>
      intro type typed unchanged
      obtain ⟨kind, raw, token⟩ := isLexeme_literal names
        (TypeLookup.Unchanged.literal unchanged typed (by simp) (by simp))
      exact writtenValue_literal raw token

end DocAnnotations
