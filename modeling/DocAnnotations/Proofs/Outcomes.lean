import DocAnnotations.Proofs.Defaults.Ensuring
import DocAnnotations.Proofs.Node.Syntactic
import DocAnnotations.Batch

/-!
# What occurrences come to

An occurrence is skipped at once when its leading name is that of no interface; otherwise it comes
to what its literal compiles to.

**Single occurrences.**  The equations at the top say so, one for each way in which this can end,
and nothing below looks into `compileOccurrence` again.  Only a literal that has no tokens stops a
batch, and only where its leading name does not skip it (`Loader.Compiles`).
**`compileOccurrence_of_compiles`**: every other occurrence comes to an outcome, and if it fails, it
is for a fault of its own literal.

**Whole batches.**  `compileBatch_of_outcomes` takes the report of a batch from the outcomes of its
occurrences.
-/

namespace DocAnnotations

open Attribute

variable {l : Loader} {o : Occurrence} {r r' : Registry}

/-- Whether the leading name of a literal is enough to skip it. -/
def Loader.skips (l : Loader) (literal : String) : Bool :=
  !(leadingName literal).isEmpty && (l.types.findAnnotation? (leadingName literal)).isNone

/-- A literal that does not stop a batch: it is skipped for its leading name, or it has tokens. -/
def Loader.Compiles (l : Loader) (literal : String) : Prop :=
  l.skips literal = true ∨ ∃ tokens, tokenize literal = .ok tokens

/-- Whether a given text has tokens can be computed. -/
lemma exists_tokens_of_isOk {text : String} (lexed : (tokenize text).isOk = true) :
    ∃ tokens, tokenize text = .ok tokens := by
  cases cut : tokenize text with
  | ok tokens => exact ⟨tokens, rfl⟩
  | error e =>
      rw [cut] at lexed
      cases lexed

lemma Loader.Compiles.of_isOk {literal : String} (lexed : (tokenize literal).isOk = true) :
    l.Compiles literal :=
  .inr (exists_tokens_of_isOk lexed)

/-! ## Single occurrences -/

/-- Only a literal without tokens fails to compile because of its tokens. -/
lemma tokenize_of_compileLiteral {text : String} {e : CompileError} {cause : LexError}
    (failed : compileLiteral l text r = .error e r') (lexical : e.lexError? = some cause) :
    tokenize text = .error cause := by
  unfold compileLiteral at failed
  cases parsed : AnnotationNode.parse text with
  | error e' =>
      rw [parsed] at failed
      cases failed
      exact tokenize_of_lexical parsed lexical
  | ok node =>
      rw [parsed] at failed
      dsimp only [EStateM.adaptExcept] at failed
      split at failed
      · cases failed
        cases lexical
      · cases failed

/-- An occurrence with an unknown name is skipped, and its literal is not looked at any further. -/
lemma compileOccurrence_of_skips (skips : l.skips o.literal = true) (r : Registry) :
    compileOccurrence l o r = .ok (.unknownName (leadingName o.literal)) r := by
  rw [compileOccurrence]
  exact if_pos skips

/-- What an occurrence that is not skipped comes to when its literal compiles. -/
def Occurrence.outcomeOf (o : Occurrence) : Option Annotation → Outcome
  | some a => .resolved a
  | none => .unknownName (leadingName o.literal)

/-- An occurrence that is not skipped has the outcome of its literal. -/
lemma compileOccurrence_of_ok (tried : l.skips o.literal = false) {found : Option Annotation}
    (ran : compileLiteral l o.literal r = .ok found r') :
    compileOccurrence l o r = .ok (o.outcomeOf found) r' := by
  rw [compileOccurrence]
  refine (if_neg (Bool.eq_false_iff.1 tried)).trans ?_
  rw [ran]
  cases found <;> rfl

/-- An occurrence whose literal fails has a failure for its outcome, unless the literal cannot even
be cut into tokens. -/
lemma compileOccurrence_of_error (tried : l.skips o.literal = false) {e : CompileError}
    (ran : compileLiteral l o.literal r = .error e r') :
    compileOccurrence l o r = match e.lexError? with
      | some cause => .error cause r'
      | none => .ok (.failed (.ofCompileError o e)) r' := by
  rw [compileOccurrence]
  refine (if_neg (Bool.eq_false_iff.1 tried)).trans ?_
  rw [ran]
  cases e with
  | resolve e => rfl
  | parse e => cases e <;> rfl

/-- The diagnostics of single literals are about parsing and resolving. -/
lemma code_ofCompileError (o : Occurrence) (e : CompileError) :
    (Diagnostic.ofCompileError o e).code = .parseError ∨
      (Diagnostic.ofCompileError o e).code = .validationError := by
  cases e with
  | parse e => exact .inl rfl
  | resolve e => exact .inr rfl

/-- An outcome whose diagnostic, if it has one, is about parsing or resolving. -/
def Outcome.FailsAlone (outcome : Outcome) : Prop :=
  ∀ d, outcome = .failed d → d.code = .parseError ∨ d.code = .validationError

/-- **An occurrence that does not stop the batch** comes to an outcome with every registry. -/
theorem compileOccurrence_of_compiles (compiles : l.Compiles o.literal) (r : Registry) :
    ∃ outcome r', compileOccurrence l o r = .ok outcome r' ∧ outcome.FailsAlone := by
  cases tried : l.skips o.literal with
  | true => exact ⟨_, r, compileOccurrence_of_skips tried r, nofun⟩
  | false =>
      cases ran : compileLiteral l o.literal r with
      | ok found r' =>
          refine ⟨_, r', compileOccurrence_of_ok tried ran, fun d same => ?_⟩
          cases found <;> cases same
      | error e r' =>
          have failed := compileOccurrence_of_error tried ran
          cases lexical : e.lexError? with
          | none =>
              rw [lexical] at failed
              refine ⟨_, r', failed, fun d same => ?_⟩
              cases same
              exact code_ofCompileError o e
          | some cause =>
              obtain ⟨tokens, lexed⟩ := compiles.resolve_left (by simp [tried])
              rw [tokenize_of_compileLiteral ran lexical] at lexed
              cases lexed

/-! ## Whole batches -/

/-- The report on a batch is that on the verdicts on its outcomes. -/
lemma compileBatch_of_outcomes {occurrences : List Occurrence}
    {outcomes : List (Occurrence × Outcome)}
    (ran : compileOccurrences l [] occurrences r = .ok outcomes r') :
    compileBatch l occurrences r = .ok (.ofVerdicts (judge [] outcomes)) r' := by
  simp only [compileBatch, Bind.bind, EStateM.bind, ran]
  rfl

end DocAnnotations
