import DocAnnotations.Batch
import DocAnnotations.Proofs.Defaults.Registry
import DocAnnotations.Proofs.Defaults.Resolving

/-!
# Where the registry makes no difference

`SameFrom R p` says that from any two registries that `R` relates, `p` comes to the same value or
the same error, and leaves registries that `R` relates again.  Reading, resolving and compiling
touch the registry only by asking for defaults, so all of them have the property as soon as the
answers have it (`Loader.AnswersSame`).

**Bytes**: `sameFrom_decodeValue`, `sameFrom_decode` and `sameFrom_decodeMember`.

**Literals**: `sameFrom_compileLiteral`, and `sameFrom_resolveRoot`, `sameFrom_resolveAgainst` and
`sameFrom_resolveValue` for their parts.

**Batches**: `sameFrom_compileOccurrence`, for one occurrence at a time.
-/

namespace DocAnnotations

open Attribute

variable {ε ε' α β : Type} {R : Registry → Registry → Prop}

/-- From related registries the computation comes to the same, and to related registries. -/
structure SameFrom (R : Registry → Registry → Prop) (p : WithRegistry ε α) : Prop where
  follows : FollowsUpTo (fun _ => True) R p p

/-- What a computation comes to, whatever becomes of the state. -/
def cameTo {σ : Type} (p : EStateM ε σ α) (s : σ) : Except ε α :=
  match p s with
  | .ok a _ => .ok a
  | .error e _ => .error e

section

variable {σ : Type} {p : EStateM ε σ α} {f : α → EStateM ε σ β} {s s' : σ} {a : α} {e : ε}

lemma cameTo_ok (ran : p s = .ok a s') : cameTo p s = .ok a := by rw [cameTo, ran]

lemma cameTo_error (ran : p s = .error e s') : cameTo p s = .error e := by rw [cameTo, ran]

lemma cameTo_pure (a : α) (s : σ) : cameTo (pure a : EStateM ε σ α) s = .ok a := rfl

/-- After a value, a computation comes to what the next comes to from the state that was left. -/
lemma cameTo_bind_ok (ran : p s = .ok a s') : cameTo (p >>= f) s = cameTo (f a) s' := by
  simp only [cameTo, Bind.bind, EStateM.bind, ran]

/-- After an error, a computation comes to this error. -/
lemma cameTo_bind_error (ran : p s = .error e s') : cameTo (p >>= f) s = .error e := by
  simp only [cameTo, Bind.bind, EStateM.bind, ran]

end

namespace SameFrom

variable {p : WithRegistry ε α}

lemma pure (a : α) : SameFrom R (pure a : WithRegistry ε α) := ⟨FollowsUpTo.pure a⟩

lemma throw (e : ε) : SameFrom R (throw e : WithRegistry ε α) := ⟨FollowsUpTo.throw e⟩

/-- Computations in a row come to the same from related registries, if each of them does. -/
lemma bind {f : α → WithRegistry ε β} (first : SameFrom R p) (next : ∀ a, SameFrom R (f a)) :
    SameFrom R (p >>= f) :=
  ⟨FollowsUpTo.bind first.follows fun a => (next a).follows⟩

lemma adaptExcept (h : SameFrom R p) (f : ε → ε') :
    SameFrom R (EStateM.adaptExcept f p : WithRegistry ε' α) :=
  ⟨FollowsUpTo.adaptExcept h.follows fun _ _ => trivial⟩

/-- The two runs side by side. -/
lemma results (h : SameFrom R p) {r t : Registry} (related : R r t) :
    (∃ a r' t', p r = .ok a r' ∧ p t = .ok a t' ∧ R r' t') ∨
      ∃ e r' t', p r = .error e r' ∧ p t = .error e t' ∧ R r' t' := by
  have both := h.follows r t related
  cases ran : p r with
  | ok a r' =>
      simp only [ran] at both
      obtain ⟨t', ran', related'⟩ := both
      exact .inl ⟨a, r', t', rfl, ran', related'⟩
  | error e r' =>
      simp only [ran] at both
      obtain ⟨t', ran', related'⟩ := both trivial
      exact .inr ⟨e, r', t', rfl, ran', related'⟩

/-- From related registries a computation comes to the same. -/
lemma cameTo_eq (h : SameFrom R p) {r t : Registry} (related : R r t) :
    cameTo p r = cameTo p t := by
  rcases h.results related with ⟨a, r', t', ran, ran', -⟩ | ⟨e, r', t', ran, ran', -⟩ <;>
    rw [cameTo, cameTo, ran, ran']

/-- A computation comes to the same from related registries if both runs succeed with one value, or
fail with one error, and leave related registries. -/
lemma of_results (h : ∀ r t, R r t → (∃ a r' t', p r = .ok a r' ∧ p t = .ok a t' ∧ R r' t') ∨
    ∃ e r' t', p r = .error e r' ∧ p t = .error e t' ∧ R r' t') : SameFrom R p := by
  refine ⟨fun r t related => ?_⟩
  rcases h r t related with ⟨a, r', t', ran, ran', next⟩ | ⟨e, r', t', ran, ran', next⟩
  · rw [ran]
    exact ⟨t', ran', next⟩
  · rw [ran]
    exact fun _ => ⟨t', ran', next⟩

end SameFrom

/-! ## Answers -/

/-- A loader asked for the defaults of the interfaces it knows comes to the same from related
registries. -/
def Loader.AnswersSame (l : Loader) (R : Registry → Registry → Prop) : Prop :=
  ∀ i, l.types.Knows i → SameFrom R (l.defaultsFor i)

variable {l : Loader}

/-- If loading answers the same from related registries, it follows itself there. -/
lemma Loader.AnswersSame.follows (answers : l.AnswersSame R) (i : Interface)
    (known : l.types.Knows i) :
    FollowsUpTo (fun _ => True) R (l.defaultsFor i) (l.defaultsFor i) :=
  (answers i known).follows

/-! ## Reading -/

lemma sameFrom_decodeValue (answers : l.AnswersSame R) (bytes : List UInt8) :
    SameFrom R (l.decodeValue bytes) :=
  ⟨(follows_readValue answers.follows nestingLimit).readAll bytes⟩

/-- Reading an annotation that stands by itself does the same from related registries. -/
lemma follows_readTopLevel (answers : l.AnswersSame R) :
    FollowsUpTo (fun _ => True) (Beside R) (readTopLevel l.types l.defaultsFor)
      (readTopLevel l.types l.defaultsFor) := by
  refine follows_readByte.bind fun tag => ?_
  split_ifs
  · exact follows_readBody answers.follows (.some (follows_readValue answers.follows _))
  · exact FollowsUpTo.throw _

lemma follows_readAnnotations {item : Read Annotation}
    (h : FollowsUpTo (fun _ => True) (Beside R) item item) :
    ∀ (n : Nat) (found : List Annotation), FollowsUpTo (fun _ => True) (Beside R)
      (readAnnotations item n found) (readAnnotations item n found)
  | 0, _ => FollowsUpTo.pure _
  | n + 1, found => h.bind fun a => follows_readAnnotations h n (a :: found)

lemma sameFrom_decode (answers : l.AnswersSame R) (bytes : List UInt8) :
    SameFrom R (l.decode bytes) :=
  ⟨(follows_readTopLevel answers).readAll bytes⟩

lemma sameFrom_decodeMember (answers : l.AnswersSame R) (bytes : List UInt8) :
    SameFrom R (l.decodeMember bytes) :=
  ⟨FollowsUpTo.readAll ((follows_readNumber 2).bind fun n =>
    follows_readAnnotations (follows_readTopLevel answers) n []) bytes⟩

/-! ## Resolving -/

/-- A loader that answers the same from related registries is alike itself for all interfaces. -/
lemma Loader.AnswersSame.resolvesLike (answers : l.AnswersSame R) :
    ResolvesLike (fun _ => True) R (fun _ => True) l l where
  types := rfl
  closed _ _ _ _ _ _ _ := trivial
  answers i known _ _ := (answers.follows i known).adaptExcept fun _ => id

section

variable (answers : l.AnswersSame R)

include answers

/-- A value is resolved to the same from related registries. -/
theorem sameFrom_resolveValue (interface element : String) (n : Node) (expected : ElementType) :
    SameFrom R (resolveValue l interface element n expected) :=
  ⟨follows_resolveValue answers.resolvesLike interface element n expected fun _ _ => trivial⟩

lemma sameFrom_resolveAgainst (i : Interface) (defaults : Annotation) (node : AnnotationNode) :
    SameFrom R (resolveAgainst l i defaults node) :=
  ⟨follows_resolveAgainst answers.resolvesLike i (fun _ _ _ _ => trivial) defaults node⟩

lemma sameFrom_resolveRoot (node : AnnotationNode) : SameFrom R (resolveRoot l node) :=
  ⟨follows_resolveRoot answers.resolvesLike node⟩

/-- A literal compiles to the same from related registries. -/
theorem sameFrom_compileLiteral (text : String) : SameFrom R (compileLiteral l text) :=
  ⟨follows_compileLiteral answers.resolvesLike text⟩

/-- So does an occurrence of a batch. -/
lemma sameFrom_compileOccurrence (o : Occurrence) : SameFrom R (compileOccurrence l o) := by
  refine .of_results fun r t related => ?_
  unfold compileOccurrence
  dsimp only
  split_ifs
  · exact .inl ⟨_, r, t, rfl, rfl, related⟩
  · rcases (sameFrom_compileLiteral answers o.literal).results related with
      ⟨found, r', t', ran, ran', related'⟩ | ⟨e, r', t', ran, ran', related'⟩
    · rw [ran, ran']
      cases found with
      | none => exact .inl ⟨_, r', t', rfl, rfl, related'⟩
      | some a => exact .inl ⟨_, r', t', rfl, rfl, related'⟩
    · rw [ran, ran']
      cases e with
      | resolve e => exact .inl ⟨_, r', t', rfl, rfl, related'⟩
      | parse e =>
          cases e with
          | lexical cause => exact .inr ⟨_, r', t', rfl, rfl, related'⟩
          | _ => exact .inl ⟨_, r', t', rfl, rfl, related'⟩

end

end DocAnnotations
