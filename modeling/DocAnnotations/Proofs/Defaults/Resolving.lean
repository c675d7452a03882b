import DocAnnotations.Proofs.Defaults.Following
import DocAnnotations.Proofs.Value.Elements
import DocAnnotations.Resolve

/-!
# Resolutions that follow one another

Resolving a literal asks for the defaults of the interfaces that the types of elements refer to,
step by step, and for nothing else.

**Like loaders.**  `ResolvesLike E R names l l'` says that two loaders with the same types give
answers that follow one another for the interfaces in `names`, and that such interfaces refer only
to such interfaces.  The loaders may differ as much as they like in the defaults of others.

**`follows_resolveValue`** carries this from the answers to whole values, by induction over the
tree; **`follows_resolveRoot`** and **`follows_compileLiteral`** to whole literals, for the loaders
that are alike for all interfaces that a literal may start with.
-/

namespace DocAnnotations

open Attribute

/-- Two loaders with the same types whose answers follow one another for some interfaces, which
refer only to one another.  Errors count if they are in `E`. -/
structure ResolvesLike (E : ResolveError → Prop) (R : Registry → Registry → Prop)
    (names : String → Prop) (l l' : Loader) : Prop where
  types : l'.types = l.types
  closed : ∀ i, l.types.Knows i → names i.name → ∀ e ∈ i.elements, ∀ name,
    e.type.referenced? = some name → names name
  answers : ∀ i, l.types.Knows i → names i.name → ∀ offset,
    FollowsUpTo E R (l.defaultsAt i offset) (l'.defaultsAt i offset)

variable {E : ResolveError → Prop} {R : Registry → Registry → Prop} {names : String → Prop}
  {l l' : Loader}

/-- Filling in defaults does not look at the registry at all. -/
lemma follows_fillMissing (interface : String) (offset : Nat) (defaults : Annotation) :
    ∀ (elements : List Element) (a : Annotation),
      FollowsUpTo E R (fillMissing interface offset defaults elements a)
        (fillMissing interface offset defaults elements a)
  | [], _ => .pure _
  | e :: elements, a => by
      rw [fillMissing]
      split_ifs
      · exact follows_fillMissing interface offset defaults elements a
      · cases defaults.get? e.name with
        | none => exact .throw _
        | some v => exact follows_fillMissing interface offset defaults elements _

mutual

/-- Values of a type that refers only to the interfaces in question. -/
theorem follows_resolveValue (like : ResolvesLike E R names l l') (interface element : String) :
    ∀ (n : Node) (expected : ElementType),
    (∀ name, expected.referenced? = some name → names name) →
    FollowsUpTo E R (resolveValue l interface element n expected)
      (resolveValue l' interface element n expected)
  | .literal kind text span, expected, _ => by
      rw [resolveValue, resolveValue, like.types]
      cases literalValue l.types element kind text expected with
      | ok v => exact .pure _
      | error fault => exact .throw _
  | .array nodes span, expected, refers => by
      cases expected with
      | array inner =>
          rw [resolveValue, resolveValue]
          exact (follows_resolveValues like interface element inner refers nodes []).bind fun _ =>
            .pure _
      | _ => exact .throw _
  | .nested ⟨name, pairs, span⟩, expected, refers => by
      cases expected with
      | interface declared =>
          rw [resolveValue, resolveValue, like.types]
          cases found : l.types.annotation? declared with
          | none => exact .throw _
          | some i =>
              dsimp only
              split_ifs
              · have known := TypeLookup.knows_of_annotation? found
                have named : names i.name := by
                  rw [l.types.name_of_annotation? found]
                  exact refers declared rfl
                exact (like.answers i known named span.start).bind fun _ =>
                  (follows_resolvePairs like i (like.closed i known named) pairs _).bind fun _ =>
                    (follows_fillMissing _ _ _ _ _).bind fun _ => .pure _
              · exact .throw _
      | _ => exact .throw _

lemma follows_resolveValues (like : ResolvesLike E R names l l') (interface element : String)
    (expected : ElementType) (refers : ∀ name, expected.referenced? = some name → names name) :
    ∀ (ns : List Node) (found : List Value),
      FollowsUpTo E R (resolveValues l interface element expected ns found)
        (resolveValues l' interface element expected ns found)
  | [], _ => .pure _
  | n :: ns, found => by
      rw [resolveValues, resolveValues]
      exact (follows_resolveValue like interface element n expected refers).bind fun v =>
        follows_resolveValues like interface element expected refers ns (v :: found)

/-- Resolving pairs with like loaders follows, if all elements refer to interfaces for which the
loaders are alike. -/
lemma follows_resolvePairs (like : ResolvesLike E R names l l') (i : Interface)
    (refers : ∀ e ∈ i.elements, ∀ name, e.type.referenced? = some name → names name) :
    ∀ (ps : List PairNode) (a : Annotation),
      FollowsUpTo E R (resolvePairs l i ps a) (resolvePairs l' i ps a)
  | [], _ => .pure _
  | ⟨name, value, span⟩ :: ps, a => by
      rw [resolvePairs, resolvePairs]
      cases found : i.element? name with
      | none => exact .throw _
      | some e =>
          dsimp only
          split_ifs
          · exact .throw _
          · have refers' := refers e (Interface.mem_of_element? found).1
            exact (follows_resolveValue like i.name e.name value e.type refers').bind fun v =>
              follows_resolvePairs like i refers ps (a.insert name v)

end

/-- Resolving an annotation against its interface with like loaders follows, whatever its defaults
are. -/
lemma follows_resolveAgainst (like : ResolvesLike E R names l l') (i : Interface)
    (refers : ∀ e ∈ i.elements, ∀ name, e.type.referenced? = some name → names name)
    (defaults : Annotation) (node : AnnotationNode) :
    FollowsUpTo E R (resolveAgainst l i defaults node) (resolveAgainst l' i defaults node) :=
  (follows_resolvePairs like i refers node.pairs _).bind fun _ => follows_fillMissing _ _ _ _ _

/-- Whole literals, of any interface. -/
theorem follows_resolveRoot (like : ResolvesLike E R (fun _ => True) l l') (node : AnnotationNode) :
    FollowsUpTo E R (resolveRoot l node) (resolveRoot l' node) := by
  rw [resolveRoot, resolveRoot, like.types]
  cases found : l.types.findAnnotation? node.name with
  | none => exact .pure _
  | some i =>
      have known := l.types.annotation?_of_find found
      exact (like.answers i known trivial _).bind fun defaults =>
        (follows_resolveAgainst like i (fun _ _ _ _ => trivial) defaults node).bind fun _ => .pure _

/-- Texts, where errors of the parser count as well as those in `E`. -/
theorem follows_compileLiteral {E : CompileError → Prop}
    (like : ResolvesLike (fun e => E (.resolve e)) R (fun _ => True) l l') (text : String) :
    FollowsUpTo E R (compileLiteral l text) (compileLiteral l' text) := by
  rw [compileLiteral, compileLiteral]
  cases AnnotationNode.parse text with
  | error e => exact .throw _
  | ok node => exact (follows_resolveRoot like node).adaptExcept fun _ => id

end DocAnnotations
