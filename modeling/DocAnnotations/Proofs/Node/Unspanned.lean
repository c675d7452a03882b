import DocAnnotations.Resolve
import Mathlib.Tactic.Common

/-!
# Trees apart from places

**Taking places off.**  `unspanned` takes all places off a tree: spans of nodes, of pairs and of
annotations.

**Canonical text.**  The canonical text does not depend on places, since it is made of the words of
the tree alone.

**Resolution.**  What a tree is resolved to depends on places only in the offset of an error.
`Alike` says this of two resolutions: whatever the registry, they come to the same up to the offset.
**`resolveValue_unspanned`** is the induction over the tree, and **`resolveRoot_unspanned`** the
statement about whole literals.
-/

namespace DocAnnotations

/-! ## Taking places off -/

mutual

/-- The value with all places taken off. -/
def Node.unspanned : Node → Node
  | .literal kind text _ => .literal kind text {}
  | .array elements _ => .array (unspannedValues elements) {}
  | .nested ⟨name, pairs, _⟩ => .nested ⟨name, unspannedPairs pairs, {}⟩

/-- Several values with all places taken off. -/
def unspannedValues : List Node → List Node
  | [] => []
  | n :: ns => n.unspanned :: unspannedValues ns

/-- Several pairs with all places taken off. -/
def unspannedPairs : List PairNode → List PairNode
  | [] => []
  | ⟨name, value, _⟩ :: ps => ⟨name, value.unspanned, {}⟩ :: unspannedPairs ps

end

/-- The pair with all places taken off. -/
def PairNode.unspanned (p : PairNode) : PairNode := ⟨p.name, p.value.unspanned, {}⟩

/-- The annotation with all places taken off. -/
def AnnotationNode.unspanned (a : AnnotationNode) : AnnotationNode :=
  ⟨a.name, unspannedPairs a.pairs, {}⟩

lemma unspannedValues_eq (ns : List Node) : unspannedValues ns = ns.map Node.unspanned := by
  induction ns with
  | nil => rfl
  | cons n ns ih => rw [unspannedValues, ih, List.map_cons]

lemma unspannedPairs_eq (ps : List PairNode) : unspannedPairs ps = ps.map PairNode.unspanned := by
  induction ps with
  | nil => rfl
  | cons p ps ih =>
      obtain ⟨name, value, span⟩ := p
      rw [unspannedPairs, ih, List.map_cons, PairNode.unspanned]

lemma Node.unspanned_nested (a : AnnotationNode) :
    (Node.nested a).unspanned = .nested a.unspanned := by
  obtain ⟨name, pairs, span⟩ := a
  rw [Node.unspanned, AnnotationNode.unspanned]

/-- The place of a nested annotation is that of its `@`. -/
lemma AnnotationNode.unspanned_withSpan (a : AnnotationNode) (span : Span) :
    ({ a with span } : AnnotationNode).unspanned = a.unspanned := rfl

/-! ## Canonical text -/

mutual

/-- The text that is written for a value does not depend on places. -/
lemma Node.chars_unspanned : ∀ n : Node, n.unspanned.chars = n.chars
  | .literal .. => rfl
  | .array elements _ => by
      rw [Node.unspanned, Node.chars, Node.chars, valuesChars_unspanned elements]
  | .nested ⟨_, pairs, _⟩ => by
      rw [Node.unspanned, Node.chars, Node.chars, pairsChars_unspanned pairs]

lemma valuesChars_unspanned : ∀ ns : List Node, valuesChars (unspannedValues ns) = valuesChars ns
  | [] => rfl
  | n :: ns => by
      rw [unspannedValues, valuesChars, valuesChars, n.chars_unspanned, valuesChars_unspanned ns]

lemma pairsChars_unspanned : ∀ ps : List PairNode, pairsChars (unspannedPairs ps) = pairsChars ps
  | [] => rfl
  | ⟨_, value, _⟩ :: ps => by
      rw [unspannedPairs, pairsChars, pairsChars, value.chars_unspanned, pairsChars_unspanned ps]

end

lemma Node.render_unspanned (n : Node) : n.unspanned.render = n.render :=
  congrArg String.ofList n.chars_unspanned

lemma AnnotationNode.render_unspanned (a : AnnotationNode) : a.unspanned.render = a.render := by
  rw [AnnotationNode.render, AnnotationNode.render, AnnotationNode.unspanned, pairsChars_unspanned]

/-! ## Resolution -/

/-- The error without its place in the text. -/
def ResolveError.unplaced (e : ResolveError) : ResolveError := { e with offset := 0 }

/-- The error without the place in the text of a resolution error. -/
def CompileError.unplaced : CompileError → CompileError
  | .parse error => .parse error
  | .resolve error => .resolve error.unplaced

variable {α β : Type}

/-- Two resolutions are alike if on every registry they have the same effect and the same value or
the same error apart from its place. -/
def Alike (x y : Resolve α) : Prop :=
  EStateM.adaptExcept ResolveError.unplaced x = EStateM.adaptExcept ResolveError.unplaced y

namespace Alike

variable {x y : Resolve α} {f g : α → Resolve β}

lemma refl (x : Resolve α) : Alike x x := rfl

lemma symm (h : Alike x y) : Alike y x := Eq.symm h

lemma trans {z : Resolve α} (h : Alike x y) (h' : Alike y z) : Alike x z := Eq.trans h h'

/-- Alike steps before alike steps. -/
lemma bind (h : Alike x y) (h' : ∀ a, Alike (f a) (g a)) : Alike (x >>= f) (y >>= g) := by
  funext r
  have first := congrFun h r
  simp only [EStateM.adaptExcept, Bind.bind, EStateM.bind] at first ⊢
  cases ranX : x r with
  | ok a s =>
      rw [ranX] at first
      cases ranY : y r with
      | ok b t =>
          rw [ranY] at first
          cases first
          exact congrFun (h' a) s
      | error e t =>
          rw [ranY] at first
          cases first
  | error e s =>
      rw [ranX] at first
      cases ranY : y r with
      | ok b t =>
          rw [ranY] at first
          cases first
      | error e' t =>
          rw [ranY] at first
          simpa using first

/-- The place that asks for defaults matters to the error only. -/
lemma defaultsAt (l : Loader) (interface : Interface) (offset other : Nat) :
    Alike (l.defaultsAt interface offset) (l.defaultsAt interface other) := by
  funext r
  simp only [EStateM.adaptExcept, Loader.defaultsAt]
  cases l.defaultsFor interface r <;> rfl

end Alike

/-- The place at which missing elements are filled in matters to the error only. -/
lemma fillMissing_alike (interface : String) (offset other : Nat) (defaults : Annotation) :
    ∀ (elements : List Element) (a : Annotation),
      Alike (fillMissing interface offset defaults elements a)
        (fillMissing interface other defaults elements a)
  | [], _ => rfl
  | e :: elements, a => by
      rw [fillMissing, fillMissing]
      split
      · exact fillMissing_alike interface offset other defaults elements a
      · split
        · exact fillMissing_alike interface offset other defaults elements _
        · rfl

section

variable (l : Loader)

mutual

/-- **A value is resolved alike wherever it stands.** -/
theorem resolveValue_unspanned (interface element : String) : ∀ (n : Node) (expected : ElementType),
    Alike (resolveValue l interface element n expected)
      (resolveValue l interface element n.unspanned expected)
  | .literal kind text span, expected => by
      rw [Node.unspanned, resolveValue, resolveValue]
      split <;> rfl
  | .array nodes span, expected => by
      rw [Node.unspanned]
      cases expected with
      | array inner =>
          rw [resolveValue, resolveValue]
          exact (resolveValues_unspanned interface element inner nodes []).bind fun _ => .refl _
      | _ => rfl
  | .nested ⟨name, pairs, span⟩, expected => by
      rw [Node.unspanned]
      cases expected with
      | interface declared =>
          rw [resolveValue, resolveValue]
          split
          · rfl
          · split_ifs
            · exact (Alike.defaultsAt l _ _ _).bind fun _ =>
                (resolvePairs_unspanned _ pairs _).bind fun _ =>
                  (fillMissing_alike _ _ _ _ _ _).bind fun _ => .refl _
            · rfl
      | _ => rfl

lemma resolveValues_unspanned (interface element : String) (expected : ElementType) :
    ∀ (ns : List Node) (found : List Value),
      Alike (resolveValues l interface element expected ns found)
        (resolveValues l interface element expected (unspannedValues ns) found)
  | [], _ => .refl _
  | n :: ns, found => by
      rw [unspannedValues, resolveValues, resolveValues]
      exact (resolveValue_unspanned interface element n expected).bind fun v =>
        resolveValues_unspanned interface element expected ns (v :: found)

/-- Pairs are resolved alike without their places, whatever was found before. -/
lemma resolvePairs_unspanned (interface : Interface) : ∀ (ps : List PairNode) (a : Annotation),
    Alike (resolvePairs l interface ps a) (resolvePairs l interface (unspannedPairs ps) a)
  | [], _ => .refl _
  | ⟨name, value, span⟩ :: ps, a => by
      rw [unspannedPairs, resolvePairs, resolvePairs]
      split
      · rfl
      · split_ifs
        · rfl
        · exact (resolveValue_unspanned interface.name _ value _).bind fun v =>
            resolvePairs_unspanned interface ps (a.insert name v)

end

lemma resolveAgainst_unspanned (interface : Interface) (defaults : Annotation)
    (a : AnnotationNode) :
    Alike (resolveAgainst l interface defaults a)
      (resolveAgainst l interface defaults a.unspanned) :=
  (resolvePairs_unspanned l interface a.pairs _).bind fun _ => fillMissing_alike _ _ _ _ _ _

/-- **An annotation literal is resolved alike wherever it stands.** -/
theorem resolveRoot_unspanned (a : AnnotationNode) :
    Alike (resolveRoot l a) (resolveRoot l a.unspanned) := by
  rw [resolveRoot, resolveRoot, show a.unspanned.name = a.name from rfl]
  cases l.types.findAnnotation? a.name with
  | none => exact .refl _
  | some interface =>
      exact (Alike.defaultsAt l _ _ _).bind fun defaults =>
        (resolveAgainst_unspanned l interface defaults a).bind fun _ => .refl _

end

end DocAnnotations
