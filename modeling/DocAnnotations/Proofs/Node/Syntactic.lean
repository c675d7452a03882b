import DocAnnotations.Node.Parser
import Mathlib.Tactic.Common

/-!
# Errors of reading

A literal whose text has no tokens is a different matter from one with the wrong tokens: the first
stops a whole batch, the second is reported and forgotten.

A reading is `Syntactic` when all its errors are of the second sort, wherever its cursor stands.
Readings in a row are if each of them is (`Syntactic.bind`), so the parser is followed from single
tokens over levels and lists to the whole grammar.

**`tokenize_of_lexical`** says that the grammar makes up no errors of the first sort: they come from
the tokens alone, so a batch stops only for a text that cannot be cut into tokens.
-/

namespace DocAnnotations

namespace Parse

variable {α β : Type} {p : Parse α}

/-- No error of a reading is one of the tokens. -/
def Syntactic (p : Parse α) : Prop := ∀ c e c', p c = .error e c' → e.lexError? = none

namespace Syntactic

lemma pure (a : α) : Syntactic (pure a) := fun _ _ _ h => by cases h

lemma throw {e : ParseError} (h : e.lexError? = none) : Syntactic (throw e : Parse α) :=
  fun _ _ _ failed => by
    cases failed
    exact h

/-- Parsers in a row have only errors of syntax, if each of them has. -/
lemma bind {f : α → Parse β} (hp : Syntactic p) (hf : ∀ a, Syntactic (f a)) :
    Syntactic (p >>= f) := by
  intro c e c' h
  simp only [Bind.bind, EStateM.bind] at h
  cases hc : p c with
  | ok a d =>
      rw [hc] at h
      exact hf a d e c' h
  | error d s =>
      rw [hc] at h
      cases h
      exact hp c _ _ hc

lemma get : Syntactic (get : Parse Cursor) := fun _ _ _ h => by cases h

lemma modify (f : Cursor → Cursor) : Syntactic (modify f : Parse PUnit) := fun _ _ _ h => by cases h

lemma ite {q : Parse α} {c : Prop} [Decidable c] (hp : Syntactic p) (hq : Syntactic q) :
    Syntactic (if c then p else q) := by
  split_ifs
  · exact hp
  · exact hq

end Syntactic

/-! ## Tokens -/

lemma lexError?_ofToken (t : Token) (expected : String) :
    (ParseError.ofToken t expected).lexError? = none := by
  unfold ParseError.ofToken
  split <;> rfl

lemma syntactic_current : Syntactic current := Syntactic.get.bind fun _ => Syntactic.pure _

lemma syntactic_advance : Syntactic advance := Syntactic.modify _

lemma syntactic_check (kind : TokenKind) : Syntactic (check kind) :=
  Syntactic.get.bind fun _ => Syntactic.pure _

lemma syntactic_unexpected (expected : String) : Syntactic (unexpected (α := α) expected) :=
  syntactic_current.bind fun t => Syntactic.throw (lexError?_ofToken t expected)

lemma syntactic_expect (kind : TokenKind) (expected : String) :
    Syntactic (expect kind expected) :=
  syntactic_current.bind fun _ =>
    (syntactic_advance.bind fun _ => Syntactic.pure _).ite (syntactic_unexpected expected)

lemma syntactic_expectClosing (kind : TokenKind) (delimiter : Char) (opened : Span) :
    Syntactic (expectClosing kind delimiter opened) :=
  syntactic_current.bind fun _ => (syntactic_advance.bind fun _ => Syntactic.pure _).ite
    ((Syntactic.throw rfl).ite (syntactic_unexpected _))

/-! ## Levels and lists -/

/-- Whatever is read on the next level, if anything may be, makes no errors of the tokens. -/
def InnerSyntactic (inner : Option (Parse Node)) : Prop :=
  ∀ value, inner = some value → Syntactic value

/-- What is read one level deeper has only errors of syntax, if the readers inside have. -/
lemma syntactic_nested {inner : Option (Parse Node)} (opened : Span) {body : Parse Node → Parse α}
    (h : InnerSyntactic inner) (hbody : ∀ value, Syntactic value → Syntactic (body value)) :
    Syntactic (nested inner opened body) := by
  refine (Syntactic.modify _).bind fun _ => ?_
  cases inner with
  | none => exact Syntactic.throw rfl
  | some value =>
      refine (hbody value (h value rfl)).bind fun a => ?_
      exact (Syntactic.modify _).bind fun _ => Syntactic.pure a

/-- Reading further items has only errors of syntax, if reading an item has; the induction is on the
tokens left. -/
lemma syntactic_moreItems (h : Syntactic p) : ∀ (tokens : List Token) (found : List α),
    Syntactic (moreItems p tokens found)
  | [], _ => Syntactic.pure _
  | _ :: tokens, found => by
      refine (syntactic_check .comma).bind fun b => Syntactic.ite ?_ (Syntactic.pure _)
      refine syntactic_advance.bind fun _ => h.bind fun a => ?_
      exact syntactic_moreItems h tokens (a :: found)

lemma syntactic_items (h : Syntactic p) : Syntactic (items p) :=
  h.bind fun _ => Syntactic.get.bind fun _ => syntactic_moreItems h _ _

/-! ## The grammar -/

variable {value : Parse Node} {inner innermost : Option (Parse Node)}

lemma syntactic_pair (h : Syntactic value) : Syntactic (pair value) := by
  refine (syntactic_expect _ _).bind fun name => (syntactic_expect _ _).bind fun _ => ?_
  exact h.bind fun v => Syntactic.pure _

lemma syntactic_arguments (h : Syntactic value) : Syntactic (arguments value) := by
  have pairs : Syntactic (items (pair value)) := syntactic_items (syntactic_pair h)
  have single : Syntactic (do
      let v ← value
      return [(⟨"value", v, v.span⟩ : PairNode)]) := h.bind fun v => Syntactic.pure _
  refine (syntactic_check _).bind fun b => ?_
  cases b with
  | false => exact single
  | true => exact Syntactic.get.bind fun c => pairs.ite single

lemma syntactic_annotated (h : InnerSyntactic inner) : Syntactic <| annotation inner := by
  refine (syntactic_expect _ _).bind fun name => (syntactic_check _).bind fun b => ?_
  refine Syntactic.ite (syntactic_current.bind fun t => ?_) (Syntactic.pure _)
  refine syntactic_advance.bind fun _ => syntactic_nested _ h fun value hvalue => ?_
  refine (syntactic_check _).bind fun empty => ?_
  have closing : ∀ pairs : List PairNode, Syntactic (do
      let closed ← expectClosing .rightParen '(' t.span
      return (⟨name.text, pairs, name.span.to closed⟩ : AnnotationNode)) := fun pairs =>
    (syntactic_expectClosing _ _ _).bind fun _ => Syntactic.pure _
  cases empty with
  | true => exact closing []
  | false => exact (syntactic_arguments hvalue).bind closing

lemma syntactic_array (h : InnerSyntactic inner) : Syntactic (array inner) := by
  refine syntactic_current.bind fun t => syntactic_advance.bind fun _ => ?_
  refine syntactic_nested _ h fun value hvalue => (syntactic_check _).bind fun empty => ?_
  have closing : ∀ elements : List Node, Syntactic (do
      let closed ← expectClosing .rightBrace '{' t.span
      return Node.array elements (t.span.to closed)) := fun elements =>
    (syntactic_expectClosing _ _ _).bind fun _ => Syntactic.pure _
  cases empty with
  | true => exact closing []
  | false => exact (syntactic_items hvalue).bind closing

/-- Reading a value has only errors of syntax, if the readers for what is inside have. -/
lemma syntactic_valueWith (h : InnerSyntactic inner) (h' : InnerSyntactic innermost) :
    Syntactic (valueWith inner innermost) := by
  refine syntactic_current.bind fun t => ?_
  cases t.kind.literalKind? with
  | some kind => exact syntactic_advance.bind fun _ => Syntactic.pure _
  | none =>
      refine (syntactic_array h).ite (Syntactic.ite ?_ (syntactic_unexpected _))
      refine syntactic_advance.bind fun _ => syntactic_nested _ h fun _ _ => ?_
      exact (syntactic_annotated h').bind fun a => Syntactic.pure _

lemma innerSyntactic_none : InnerSyntactic none := fun _ h => by cases h

lemma innerSyntactic_some (h : Syntactic value) : InnerSyntactic (some value) := fun _ same => by
  cases same
  exact h

/-- Reading a value has only errors of syntax, whatever levels are left. -/
lemma syntactic_value : ∀ left : Nat, Syntactic (Parse.value left)
  | 0 => syntactic_valueWith innerSyntactic_none innerSyntactic_none
  | 1 => syntactic_valueWith (innerSyntactic_some (syntactic_value 0)) innerSyntactic_none
  | left + 2 => syntactic_valueWith (innerSyntactic_some (syntactic_value (left + 1)))
      (innerSyntactic_some (syntactic_value left))

lemma syntactic_nextRoot : Syntactic nextRoot := by
  have root : Syntactic (do annotation (inside (← get).left)) := by
    refine Syntactic.get.bind fun c => syntactic_annotated ?_
    cases c.left with
    | zero => exact innerSyntactic_none
    | succ left => exact innerSyntactic_some (syntactic_value left)
  refine (syntactic_check .atSign).bind fun b => ?_
  cases b with
  | false => exact root
  | true => exact syntactic_advance.bind fun _ => root

lemma syntactic_expectEnd : Syntactic expectEnd := by
  refine syntactic_current.bind fun t => ?_
  split
  · exact Syntactic.pure _
  · exact syntactic_unexpected _
  · exact Syntactic.throw rfl

end Parse

/-! ## Whole texts -/

/-- A literal that is refused because of its tokens is one that has none. -/
theorem tokenize_of_lexical {text : String} {e : ParseError} {cause : LexError}
    (failed : AnnotationNode.parse text = .error e) (lexical : e.lexError? = some cause) :
    tokenize text = .error cause := by
  unfold AnnotationNode.parse Parse.runText at failed
  split at failed
  · next found tokens =>
    cases failed
    rw [tokens, ← Option.some.inj lexical]
  · have whole : Parse.Syntactic (do
        let a ← Parse.nextRoot
        Parse.expectEnd
        return a) :=
      Parse.syntactic_nextRoot.bind fun a =>
        Parse.syntactic_expectEnd.bind fun _ => Parse.Syntactic.pure a
    split at failed
    · cases failed
    · next c stopped =>
      cases failed
      rw [whole _ _ c stopped] at lexical
      cases lexical

end DocAnnotations
