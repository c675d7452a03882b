import DocAnnotations.Proofs.Resolve
import DocAnnotations.Proofs.TypeIndex

/-!
# A loader in use

**Operations.**  `Operation` lists what may be asked of a loader.  Each operation leaves a registry
behind, also when it fails, and `Loader.registryAfter` is the registry after several of them, the
first of which found none of the module's defaults.

**What operations keep.**  Filling in defaults does not touch the registry, and all else that an
operation does goes through the cache.  What every operation keeps (`holds_after`) therefore holds
of all such registries (`holds_registryAfter`).

**Reading after any operations.**  **`decoded_everywhere_approved`**: over the types of a loaded
index, with any source of defaults and after any operations, whatever is read from whatever bytes is
approved at every depth.
-/

namespace DocAnnotations

open Attribute

/-! ## Operations -/

/-- The state that a computation leaves behind, whether it succeeds or not. -/
def leftBy {ε σ α : Type} (p : EStateM ε σ α) (s : σ) : σ :=
  match p s with
  | .ok _ s' => s'
  | .error _ s' => s'

/-- What may be asked of a loader.  Interfaces are asked for by name; only resolution against given
defaults takes an interface as it comes. -/
inductive Operation where
  | defaultsFor (interface : String)
  | decodeValue (bytes : List UInt8)
  | decode (bytes : List UInt8)
  | decodeMember (bytes : List UInt8)
  | compileLiteral (text : String)
  | resolveRoot (node : AnnotationNode)
  | resolveAgainst (interface : Interface) (defaults : Annotation) (node : AnnotationNode)
  | resolveValue (interface element : String) (node : Node) (expected : ElementType)
  | invalidate (interface : String) (token : ModuleToken)
  | invalidateModule (token : ModuleToken)

/-- The registry after an operation. -/
def Operation.after (l : Loader) (r : Registry) : Operation → Registry
  | .defaultsFor interface => match l.types.annotation? interface with
    | some i => leftBy (l.defaultsFor i) r
    | none => r
  | .decodeValue bytes => leftBy (l.decodeValue bytes) r
  | .decode bytes => leftBy (l.decode bytes) r
  | .decodeMember bytes => leftBy (l.decodeMember bytes) r
  | .compileLiteral text => leftBy (DocAnnotations.compileLiteral l text) r
  | .resolveRoot node => leftBy (DocAnnotations.resolveRoot l node) r
  | .resolveAgainst i defaults node => leftBy (DocAnnotations.resolveAgainst l i defaults node) r
  | .resolveValue interface element node expected =>
    leftBy (DocAnnotations.resolveValue l interface element node expected) r
  | .invalidate interface token => r.invalidate interface token
  | .invalidateModule token => r.invalidateModule token

/-- The registry after several operations on one that starts empty. -/
def Loader.registryAfter (l : Loader) (operations : List Operation) : Registry :=
  operations.foldl (Operation.after l) .empty

/-! ## What operations keep -/

section

variable {ε σ α : Type} {I : σ → Prop} {P : α → Prop} {p : EStateM ε σ α}

lemma Ensures.leftBy (h : Ensures I p P) {s : σ} (hs : I s) : I (leftBy p s) := by
  unfold DocAnnotations.leftBy
  cases hp : p s with
  | ok a s' => exact (h.ok hs hp).2
  | error e s' => exact h.error hs hp

end

variable {l : Loader} {P : Value → Prop} {r : Registry}

/-- Filling in defaults does not touch the registry. -/
lemma ensures_fillMissing_registry {I : Registry → Prop} {interface : String} {offset : Nat}
    {d : Annotation} : ∀ (elements : List Element) (a : Annotation),
      Ensures I (fillMissing interface offset d elements a) fun _ => True
  | [], _ => Ensures.pure trivial
  | e :: elements, a => by
      rw [fillMissing]
      split_ifs
      · exact ensures_fillMissing_registry elements a
      · cases d.get? e.name with
        | none => exact Ensures.throw _
        | some v => exact ensures_fillMissing_registry elements _

/-- Every operation keeps a property that resolution keeps and that is at least as strong as the
approval by which bytes are read. -/
lemma holds_after (keeps : l.Keeps P) (approves : ∀ v, P v → l.Approves v)
    (holds : l.Holds P r) (operation : Operation) : l.Holds P (operation.after l r) := by
  have accepts := l.accepts_approves fun _ _ => True
  have answers : l.AnswersWith (l.Holds P) (fun _ _ => True) l.Approves l.defaultsFor :=
    fun i known => (keeps.answers i known).weaken fun d good => ⟨trivial, good.mono approves⟩
  cases operation with
  | defaultsFor interface =>
      rw [Operation.after]
      cases found : l.types.annotation? interface with
      | none => exact holds
      | some i => exact (keeps.answers i (TypeLookup.knows_of_annotation? found)).leftBy holds
  | decodeValue bytes => exact (Loader.ensures_decodeValue accepts answers bytes).leftBy holds
  | decode bytes => exact (Loader.ensures_decode accepts answers bytes).leftBy holds
  | decodeMember bytes => exact (Loader.ensures_decodeMember accepts answers bytes).leftBy holds
  | compileLiteral text => exact (ensures_compileLiteral keeps.keepsWith text).leftBy holds
  | resolveRoot node => exact (ensures_resolveRoot keeps.keepsWith node).leftBy holds
  | resolveAgainst i defaults node =>
      have pairs := ensures_resolvePairs keeps.keepsWith i node.pairs _ (Loader.goodFor_empty i)
      exact (pairs.bind fun a _ => ensures_fillMissing_registry i.elements a).leftBy holds
  | resolveValue interface element node expected =>
      exact (ensures_resolveValue keeps.keepsWith interface element node expected).leftBy holds
  | invalidate interface token => exact holds.invalidate interface token
  | invalidateModule token => exact holds.invalidateModule token

/-- Whatever operations were done, the registry has only what the loader approves of. -/
lemma holds_registryAfter (keeps : l.Keeps P) (approves : ∀ v, P v → l.Approves v)
    (operations : List Operation) : l.Holds P (l.registryAfter operations) := by
  have step : ∀ r, l.Holds P r → l.Holds P (operations.foldl (Operation.after l) r) := by
    induction operations with
    | nil => exact fun r holds => holds
    | cons operation operations ih =>
        exact fun r holds => ih _ (holds_after keeps approves holds operation)
  exact step .empty Loader.holds_empty

/-! ## Reading after any operations -/

/-- Whatever resolution puts together is approved, since it has all elements there are. -/
lemma assembled_approves (l : Loader) : l.types.Assembled l.Approves where
  literal h := by
    cases h with
    | char unit => exact unit
    | classRef exists_ _ _ => exact exists_
    | enum exists_ constant => exact ⟨_, exists_, constant⟩
    | _ => trivial
  array _ := trivial
  nested found ordered declared has := ⟨_, found, ordered, declared, fun e he _ => has e he⟩

/-- **Soundness of reading.**  After any operations of a loader over a loaded index, whatever is
read from any bytes is approved by the loader at every depth: it names only what exists, has only
declared elements, of their declared types, and lacks none for which there is a default. -/
theorem decoded_everywhere_approved {schema : Schema} {index : TypeIndex}
    (loaded : TypeIndex.ofSchema schema = .ok index) (defaults : DefaultsSource)
    (token : ModuleToken) (operations : List Operation) (bytes : List UInt8) :
    let l : Loader := ⟨index.lookup, defaults, token⟩
    let r := l.registryAfter operations
    (∀ a r', l.decode bytes r = .ok a r' → (Value.nested a).Everywhere l.Approves)
    ∧ (∀ v r', l.decodeValue bytes r = .ok v r' → v.Everywhere l.Approves)
    ∧ (∀ annotations r', l.decodeMember bytes r = .ok annotations r' →
      ∀ a ∈ annotations, (Value.nested a).Everywhere l.Approves) := by
  intro l r
  have answers : l.AnswersGood l.Approves l.defaultsFor :=
    Loader.answersGood_approves (TypeIndex.declaresOnce loaded)
  have accepts := l.accepts_approves fun _ _ => True
  have keeps : l.Keeps l.Approves := ⟨answers, index.findsLoadable, assembled_approves l⟩
  have holds : l.Holds l.Approves r := holds_registryAfter keeps (fun _ h => h) operations
  refine ⟨?_, ?_, ?_⟩
  · intro a r' h
    exact ((Loader.ensures_decode accepts answers.answersWith bytes).ok holds h).1
  · intro v r' h
    exact ((Loader.ensures_decodeValue accepts answers.answersWith bytes).ok holds h).1
  · intro annotations r' h
    exact ((Loader.ensures_decodeMember accepts answers.answersWith bytes).ok holds h).1

/-- After a point was compiled, the bytes of one without its place are read as one that has it. -/
theorem decoded_everywhere_approved_point :
    let l := sampleIndex.loader ⟨0⟩
    let r := l.registryAfter [.compileLiteral "Point(x = 1, unit = Unit.CM)"]
    ∃ a r', l.decode
        [64, 0, 7, 112, 46, 80, 111, 105, 110, 116, 0, 1, 0, 4, 117, 110, 105, 116, 101, 0, 8, 76,
          112, 47, 85, 110, 105, 116, 59, 0, 2, 67, 77] r = .ok a r'
      ∧ a.contains "x" = true ∧ (Value.nested a).Everywhere l.Approves := by
  intro l r
  have read : (returned (l.decode
      [64, 0, 7, 112, 46, 80, 111, 105, 110, 116, 0, 1, 0, 4, 117, 110, 105, 116, 101, 0, 8, 76,
        112, 47, 85, 110, 105, 116, 59, 0, 2, 67, 77] r)).any (fun a => a.contains "x") = true := by
    decide +kernel
  obtain ⟨a, decoded, has⟩ := (Option.any_eq_true _ _).1 read
  obtain ⟨r', ran⟩ := exists_of_returned decoded
  exact ⟨a, r', ran, has, (decoded_everywhere_approved ofSchema_sampleSchema
    sampleIndex.defaults.get? ⟨0⟩ [.compileLiteral "Point(x = 1, unit = Unit.CM)"] _).1 a r' ran⟩

end DocAnnotations
