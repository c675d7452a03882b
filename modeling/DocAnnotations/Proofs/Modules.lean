import DocAnnotations.Proofs.Defaults.Coherence
import DocAnnotations.Proofs.Defaults.SameFrom
import DocAnnotations.Proofs.Loader

/-!
# Modules that share a registry

Several modules, each with its own types and its own source of defaults, use one registry in any
order.  `Modules.registryAfter` is the registry after any operations of theirs on one that starts
empty.

**`registry_makes_no_difference`**: as long as no default needs itself, every entry is what would be
computed for it from an empty registry, and every operation answers what it would answer with an
empty registry.  Without any condition, an operation neither looks at the entries of other modules
nor changes them.

Two relations between registries carry the proof.  Registries that have the same entries of a module
cannot be told apart by it (`Shares`), and neither can registries that have only entries that the
module would compute (`answersSame_of_coherent`).
-/

namespace DocAnnotations

open Attribute

/-! ## Answers of operations -/

/-- What an operation answers. -/
inductive Answer where
  | defaults (result : Option (Except ReadError Annotation))
  | value (result : Except ReadError Value)
  | single (result : Except ReadError Annotation)
  | member (result : Except ReadError (List Annotation))
  | compiled (result : Except CompileError (Option Annotation))
  | root (result : Except ResolveError (Option Annotation))
  | completed (result : Except ResolveError Annotation)
  | resolved (result : Except ResolveError Value)
  | removed

namespace Operation

/-- The answer to an operation. -/
def answer (l : Loader) (r : Registry) : Operation → Answer
  | .defaultsFor interface =>
    .defaults ((l.types.annotation? interface).map fun i => cameTo (l.defaultsFor i) r)
  | .decodeValue bytes => .value (cameTo (l.decodeValue bytes) r)
  | .decode bytes => .single (cameTo (l.decode bytes) r)
  | .decodeMember bytes => .member (cameTo (l.decodeMember bytes) r)
  | .compileLiteral text => .compiled (cameTo (DocAnnotations.compileLiteral l text) r)
  | .resolveRoot node => .root (cameTo (DocAnnotations.resolveRoot l node) r)
  | .resolveAgainst i defaults node =>
    .completed (cameTo (DocAnnotations.resolveAgainst l i defaults node) r)
  | .resolveValue interface element node expected =>
    .resolved (cameTo (DocAnnotations.resolveValue l interface element node expected) r)
  | .invalidate .. => .removed
  | .invalidateModule _ => .removed

/-- The module whose entries an operation is about. -/
def module (l : Loader) : Operation → ModuleToken
  | .invalidate _ token => token
  | .invalidateModule token => token
  | _ => l.token

/-- Whether an operation only removes entries. -/
def removes : Operation → Bool
  | .invalidate .. => true
  | .invalidateModule _ => true
  | _ => false

end Operation

section

variable {ε α : Type} {R : Registry → Registry → Prop} {l : Loader} {r t : Registry}

lemma SameFrom.leftBy {p : WithRegistry ε α} (h : SameFrom R p) (related : R r t) :
    R (leftBy p r) (leftBy p t) := by
  rcases h.results related with ⟨a, r', t', ran, ran', next⟩ | ⟨e, r', t', ran, ran', next⟩
  · rw [DocAnnotations.leftBy, DocAnnotations.leftBy, ran, ran']
    exact next
  · rw [DocAnnotations.leftBy, DocAnnotations.leftBy, ran, ran']
    exact next

/-- Every operation that uses a loader answers the same with related registries, and leaves related
ones. -/
lemma Operation.same (answers : l.AnswersSame R) (related : R r t) :
    ∀ op : Operation, op.removes = false →
      op.answer l r = op.answer l t ∧ R (op.after l r) (op.after l t)
  | .defaultsFor interface, _ => by
      rw [answer, answer, after, after]
      cases found : l.types.annotation? interface with
      | none => exact ⟨rfl, related⟩
      | some i =>
          have same := answers i (TypeLookup.knows_of_annotation? found)
          exact ⟨congrArg (Answer.defaults ∘ some) (same.cameTo_eq related), same.leftBy related⟩
  | .decodeValue bytes, _ =>
      have same := sameFrom_decodeValue answers bytes
      ⟨congrArg Answer.value (same.cameTo_eq related), same.leftBy related⟩
  | .decode bytes, _ =>
      have same := sameFrom_decode answers bytes
      ⟨congrArg Answer.single (same.cameTo_eq related), same.leftBy related⟩
  | .decodeMember bytes, _ =>
      have same := sameFrom_decodeMember answers bytes
      ⟨congrArg Answer.member (same.cameTo_eq related), same.leftBy related⟩
  | .compileLiteral text, _ =>
      have same := sameFrom_compileLiteral answers text
      ⟨congrArg Answer.compiled (same.cameTo_eq related), same.leftBy related⟩
  | .resolveRoot node, _ =>
      have same := sameFrom_resolveRoot answers node
      ⟨congrArg Answer.root (same.cameTo_eq related), same.leftBy related⟩
  | .resolveAgainst i defaults node, _ =>
      have same := sameFrom_resolveAgainst answers i defaults node
      ⟨congrArg Answer.completed (same.cameTo_eq related), same.leftBy related⟩
  | .resolveValue interface element node expected, _ =>
      have same := sameFrom_resolveValue answers interface element node expected
      ⟨congrArg Answer.resolved (same.cameTo_eq related), same.leftBy related⟩

end

/-! ## Entries of one module -/

namespace Loader

variable {l : Loader} {R : Registry → Registry → Prop}

/-- Related registries have the same entries of the loader's module, and stay related when an entry
of an interface that the loader knows is added to both. -/
structure Shares (l : Loader) (R : Registry → Registry → Prop) : Prop where
  same : ∀ {r t}, R r t → ∀ name, r.get? name l.token = t.get? name l.token
  insertNew : ∀ {r t i a}, R r t → l.types.Knows i → r.get? i.name l.token = none →
    R (r.insertNew i.name l.token a) (t.insertNew i.name l.token a)

namespace Shares

variable (shares : l.Shares R)

include shares

/-- Loading through the cache comes to the same, if computing the defaults does. -/
lemma sameFrom_getOrPopulate {compute : Load Annotation} {i : Interface}
    (known : l.types.Knows i) (h : SameFrom R compute) :
    SameFrom R (Registry.getOrPopulate i.name l.token compute) := by
  refine .of_results fun r t related => ?_
  have same := shares.same related i.name
  cases found : r.get? i.name l.token with
  | some a =>
      rw [found] at same
      exact .inl ⟨a, r, t, Registry.getOrPopulate_of_present found,
        Registry.getOrPopulate_of_present same.symm, related⟩
  | none =>
      rw [found] at same
      rcases h.results related with ⟨a, r', t', ran, ran', next⟩ | ⟨e, r', t', ran, ran', next⟩
      · have same' := shares.same next i.name
        rw [Registry.getOrPopulate_of_ok found ran, Registry.getOrPopulate_of_ok same.symm ran']
        cases found' : r'.get? i.name l.token with
        | some b =>
            rw [found'] at same'
            rw [← same']
            exact .inl ⟨b, r', t', rfl, rfl, next⟩
        | none =>
            rw [found'] at same'
            rw [← same']
            exact .inl ⟨a, _, _, rfl, rfl, shares.insertNew next known found'⟩
      · exact .inr ⟨e, r', t', Registry.getOrPopulate_of_error found ran,
          Registry.getOrPopulate_of_error same.symm ran', next⟩

/-- Loading comes to the same from related registries at every level; the induction is on the levels
left. -/
lemma sameFrom_defaultsWithin (n : Nat) :
    ∀ i, l.types.Knows i → SameFrom R (l.defaultsWithin n i) := by
  induction n with
  | zero => exact fun i known => shares.sameFrom_getOrPopulate known (.throw _)
  | succ n ih =>
      exact fun i known => shares.sameFrom_getOrPopulate known
        ⟨followsUpTo_decodeDefaults (fun _ => trivial) (fun i known => (ih i known).follows) _ _ _⟩

/-- A loader asks only for entries of its own module. -/
lemma answersSame : l.AnswersSame R := shares.sameFrom_defaultsWithin _

end Shares

/-- Registries with the same entries of one module. -/
def SameEntries (token : ModuleToken) (r t : Registry) : Prop :=
  ∀ name, r.get? name token = t.get? name token

/-- Registries with the same entries of a module have them after the same is added to both. -/
lemma sameEntries_insertNew {r t : Registry} {token : ModuleToken} (h : SameEntries token r t)
    {name : String} {a : Annotation} (absent : r.get? name token = none) :
    SameEntries token (r.insertNew name token a) (t.insertNew name token a) := by
  intro other
  by_cases same : other = name
  · rw [same, Registry.get?_insertNew_self absent,
      Registry.get?_insertNew_self (h name ▸ absent)]
  · have apart : (other, token) ≠ (name, token) := by simp [same]
    rw [Registry.get?_insertNew_of_ne apart, Registry.get?_insertNew_of_ne apart, h other]

lemma shares_sameEntries (l : Loader) : l.Shares (SameEntries l.token) where
  same related := related
  insertNew related _ absent := sameEntries_insertNew related absent

/-- What a loader leaves of a registry: all entries of other modules, and in its own module only
entries of interfaces that it knows. -/
structure Leaves (l : Loader) (before after : Registry) : Prop where
  others : ∀ token, token ≠ l.token → SameEntries token after before
  known : (∀ {name a}, before.get? name l.token = some a → ∃ i, l.types.annotation? name = some i) →
    ∀ {name a}, after.get? name l.token = some a → ∃ i, l.types.annotation? name = some i

/-- What a loader adds to a registry is for its own module, whatever the relation started from. -/
lemma shares_leaves (l : Loader) (before : Registry) :
    l.Shares fun r t => r = t ∧ l.Leaves before r where
  same := fun ⟨same, _⟩ _ => by rw [same]
  insertNew := by
    rintro r _ i a ⟨rfl, leaves⟩ known absent
    refine ⟨rfl, ⟨fun token other name => ?_, fun all name b found => ?_⟩⟩
    · rw [Registry.get?_insertNew_of_ne (by simp [other]), leaves.others token other name]
    · by_cases same : name = i.name
      · exact ⟨i, same ▸ known⟩
      · rw [Registry.get?_insertNew_of_ne (by simp [same])] at found
        exact leaves.known all found

end Loader

/-! ## Removing entries -/

namespace Registry

variable {r t : Registry} {name interface : String} {token other : ModuleToken}

/-- Forgetting the defaults of an interface takes away its own entry in its module, and no other. -/
lemma get?_invalidate : (r.invalidate interface other).get? name token
    = if (name, token) = (interface, other) then none else r.get? name token := by
  rw [get?, invalidate, lookup_filter fun k : String × ModuleToken => k != (interface, other)]
  by_cases same : (name, token) = (interface, other)
  · simp [same]
  · rw [if_pos (bne_iff_ne.2 same), if_neg same, get?]

/-- Forgetting a module takes away its own entries, and no others. -/
lemma get?_invalidateModule : (r.invalidateModule other).get? name token
    = if token = other then none else r.get? name token := by
  rw [get?, invalidateModule, lookup_filter fun k : String × ModuleToken => k.2 != other]
  by_cases same : token = other
  · simp [same]
  · rw [if_pos (bne_iff_ne.2 same), if_neg same, get?]

end Registry

namespace Operation

variable {l : Loader} {r t : Registry}

/-- Removing entries is the same in registries with the same entries. -/
lemma sameEntries_after_of_removes {token : ModuleToken} (related : Loader.SameEntries token r t) :
    ∀ op : Operation, op.removes = true → Loader.SameEntries token (op.after l r) (op.after l t)
  | .invalidate interface other, _ => fun name => by
      rw [after, after, Registry.get?_invalidate, Registry.get?_invalidate, related name]
  | .invalidateModule other, _ => fun name => by
      rw [after, after, Registry.get?_invalidateModule, Registry.get?_invalidateModule,
        related name]

/-- Entries are removed from the module that the operation is about. -/
lemma get?_after_of_removes (token : ModuleToken) (name : String) :
    ∀ op : Operation, op.removes = true → (op.after l r).get? name token = r.get? name token ∨
      op.module l = token ∧ (op.after l r).get? name token = none
  | .invalidate interface other, _ => by
      rw [after, Registry.get?_invalidate, Operation.module]
      split_ifs with same
      · exact .inr ⟨(Prod.mk.inj same).2.symm, rfl⟩
      · exact .inl rfl
  | .invalidateModule other, _ => by
      rw [after, Registry.get?_invalidateModule, Operation.module]
      split_ifs with same
      · exact .inr ⟨same.symm, rfl⟩
      · exact .inl rfl

lemma answer_of_removes : ∀ op : Operation, op.removes = true → op.answer l r = .removed
  | .invalidate .., _ => rfl
  | .invalidateModule _, _ => rfl

lemma module_of_uses : ∀ op : Operation, op.removes = false → op.module l = l.token
  | .defaultsFor _, _ => rfl
  | .decodeValue _, _ => rfl
  | .decode _, _ => rfl
  | .decodeMember _, _ => rfl
  | .compileLiteral _, _ => rfl
  | .resolveRoot _, _ => rfl
  | .resolveAgainst .., _ => rfl
  | .resolveValue .., _ => rfl

/-- What an operation that uses a loader leaves of a registry. -/
lemma leaves_after (op : Operation) (uses : op.removes = false) :
    l.Leaves r (op.after l r) := by
  have start : l.Leaves r r := ⟨fun _ _ _ => rfl, fun all => all⟩
  exact (Operation.same (l.shares_leaves r).answersSame ⟨rfl, start⟩ op uses).2.2

/-- **An operation does not change entries of other modules.** -/
theorem sameEntries_after (op : Operation) {token : ModuleToken} (other : token ≠ op.module l) :
    Loader.SameEntries token (op.after l r) r := by
  intro name
  cases removes : op.removes with
  | true =>
      rcases get?_after_of_removes (l := l) (r := r) token name op removes
        with same | ⟨same, -⟩
      · exact same
      · exact absurd same.symm other
  | false =>
      rw [module_of_uses op removes] at other
      exact (leaves_after op removes).others token other name

/-- **An operation does not look at entries of other modules.** -/
theorem same_of_sameEntries (op : Operation) (related : Loader.SameEntries l.token r t) :
    op.answer l r = op.answer l t ∧
      Loader.SameEntries l.token (op.after l r) (op.after l t) := by
  cases removes : op.removes with
  | true =>
      exact ⟨by rw [answer_of_removes op removes, answer_of_removes op removes],
        sameEntries_after_of_removes related op removes⟩
  | false => exact Operation.same l.shares_sameEntries.answersSame related op removes

end Operation

/-! ## Entries that are computed from nothing -/

namespace Loader

variable {l : Loader} {r : Registry} {i : Interface} {a : Annotation}

/-- No default needs itself: loading defaults from nothing never ends because of too many loads. -/
def Unrecursive (l : Loader) : Prop :=
  ∀ i, l.types.Knows i → Finished ReadError.Settled (l.defaultsFor i .empty)

/-- What an entry is computed by: defaults are decoded, and those of other interfaces asked for. -/
def loadDefaults (l : Loader) (i : Interface) : Load Annotation :=
  l.decodeDefaults l.defaultsFor i.name i.elements (.empty i.name)

/-- Defaults that do not need themselves come to something when the registry is empty. -/
lemma settles_of_unrecursive (unrecursive : l.Unrecursive) (known : l.types.Knows i) :
    Settles (l.settledDefaults .empty i) := by
  intro t
  have down := defaultsWithin_follows l.types.interfaceNames.length i known .empty t
    (l.coherent_self .empty)
  have finished := unrecursive i known
  rw [defaultsFor] at finished
  cases ran : l.defaultsWithin l.types.interfaceNames.length i .empty with
  | ok a r' =>
      simp only [ran] at down
      obtain ⟨t', ran', -⟩ := down
      rw [ran']
      trivial
  | error e r' =>
      rw [ran] at finished
      simp only [ran] at down
      obtain ⟨t', ran', -⟩ := down finished
      rw [ran']
      exact finished

/-- Registries that have only entries that the loader would compute cannot be told apart by it. -/
lemma answersSame_of_coherent (unrecursive : l.Unrecursive) :
    l.AnswersSame fun r t => l.Coherent .empty r ∧ l.Coherent .empty t := by
  refine fun i known => .of_results fun r t ⟨hr, ht⟩ => ?_
  have settles := settles_of_unrecursive unrecursive known .empty
  have left := follows_defaultsWithin l.types.interfaceNames.length le_rfl i known .empty r hr
  have right := follows_defaultsWithin l.types.interfaceNames.length le_rfl i known .empty t ht
  rw [settledDefaults] at settles
  cases ran : l.defaultsFrom .empty l.types.interfaceNames.length i .empty with
  | ok a s =>
      simp only [ran] at left right
      obtain ⟨r', ranLeft, left⟩ := left
      obtain ⟨t', ranRight, right⟩ := right
      exact .inl ⟨a, r', t', ranLeft, ranRight, left, right⟩
  | error e s =>
      rw [ran] at settles
      simp only [ran] at left right
      obtain ⟨r', ranLeft, left⟩ := left settles
      obtain ⟨t', ranRight, right⟩ := right settles
      exact .inr ⟨e, r', t', ranLeft, ranRight, left, right⟩

/-- What is computed with no limit in sight is what an entry is computed by. -/
lemma loadDefaults_of_agrees (value : Agrees (pure a) (l.settledDefaults .empty i)) :
    ∃ r', l.loadDefaults i .empty = .ok a r' := by
  have level : l.defaultsFrom .empty (l.types.interfaceNames.length + 1) i
      = l.decodeDefaults (l.settledDefaults .empty) i.name i.elements (.empty i.name) :=
    defaultsFrom_of_absent rfl _
  have up : Agrees (l.settledDefaults .empty i)
      (l.defaultsFrom .empty (l.types.interfaceNames.length + 1) i) :=
    defaultsFrom_agrees_of_le _ (Nat.le_succ _) i
  obtain ⟨t, computed⟩ := (value.trans up).pure_at .empty
  rw [level] at computed
  have follows := follows_decodeDefaults (follows_defaultsWithin l.types.interfaceNames.length
    le_rfl) i.name i.elements (.empty i.name) .empty .empty (l.coherent_self .empty)
  rw [settledDefaults] at computed
  simp only [computed] at follows
  obtain ⟨r', loaded, -⟩ := follows
  exact ⟨r', loaded⟩

end Loader

/-! ## Several modules -/

/-- Modules, each with the loader that its token stands for. -/
structure Modules where
  loader : ModuleToken → Loader
  token_loader : ∀ token, (loader token).token = token

namespace Modules

variable {M : Modules} {r : Registry}

/-- The registry after an operation under a module. -/
def after (M : Modules) (r : Registry) (step : ModuleToken × Operation) : Registry :=
  step.2.after (M.loader step.1) r

/-- The registry after several operations on one that starts empty. -/
def registryAfter (M : Modules) (steps : List (ModuleToken × Operation)) : Registry :=
  steps.foldl M.after .empty

/-- What the operations of a module keep holds after all operations of all modules, if it says
nothing but that the entries of the module are of some kind. -/
lemma registryAfter_induction {token : ModuleToken} {I : Registry → Prop} (start : I .empty)
    (fewer : ∀ {r r' : Registry},
      (∀ name a, r'.get? name token = some a → r.get? name token = some a) → I r → I r')
    (own : ∀ {r : Registry} (op : Operation), op.removes = false → I r →
      I (op.after (M.loader token) r)) (steps : List (ModuleToken × Operation)) :
    I (M.registryAfter steps) := by
  have step : ∀ r s, I r → I (M.after r s) := by
    rintro r ⟨other, op⟩ holds
    rw [Modules.after]
    cases removes : op.removes with
    | true =>
        refine fewer (fun name a found => ?_) holds
        rcases Operation.get?_after_of_removes (l := M.loader other) (r := r) token name op removes
          with same | ⟨-, none⟩
        · rwa [← same]
        · rw [none] at found
          cases found
    | false =>
        by_cases same : token = other
        · subst same
          exact own op removes holds
        · refine fewer (fun name a found => ?_) holds
          have apart : token ≠ (M.loader other).token := by rwa [M.token_loader]
          rwa [(Operation.leaves_after op removes).others token apart name] at found
  have run : ∀ r, I r → I (steps.foldl M.after r) := by
    induction steps with
    | nil => exact fun _ holds => holds
    | cons s steps ih => exact fun r holds => ih _ (step r s holds)
  exact run .empty start

/-- Every entry belongs to an interface that its module knows, and is what the module computes from
nothing. -/
def Sound (M : Modules) (r : Registry) : Prop :=
  ∀ token name a, r.get? name token = some a → ∃ i,
    (M.loader token).types.annotation? name = some i ∧
      Agrees (pure a) ((M.loader token).settledDefaults .empty i)

lemma sound_empty : M.Sound .empty := nofun

/-- In a sound registry each module finds only what it would compute by itself. -/
lemma Sound.coherent (sound : M.Sound r) (token : ModuleToken) :
    (M.loader token).Coherent .empty r where
  keeps _ h := nomatch h
  entries := by
    intro i a known found
    rw [M.token_loader] at found
    obtain ⟨j, found', value⟩ := sound token i.name a found
    rw [known] at found'
    cases found'
    exact value

/-- Every operation keeps a registry sound. -/
lemma Sound.after (unrecursive : ∀ token, (M.loader token).Unrecursive) (sound : M.Sound r)
    (step : ModuleToken × Operation) : M.Sound (M.after r step) := by
  obtain ⟨own, op⟩ := step
  intro token name a found
  rw [Modules.after] at found
  cases removes : op.removes with
  | true =>
      rcases Operation.get?_after_of_removes (l := M.loader own) (r := r) token name op removes
        with same | ⟨-, none⟩
      · exact sound token name a (same ▸ found)
      · rw [none] at found
        cases found
  | false =>
      have leaves := Operation.leaves_after (l := M.loader own) (r := r) op removes
      by_cases same : token = own
      · subst same
        have coherent := sound.coherent token
        have next := (Operation.same (Loader.answersSame_of_coherent (unrecursive token))
          ⟨coherent, coherent⟩ op removes).2.1
        have found : (op.after (M.loader token) r).get? name (M.loader token).token = some a := by
          rwa [M.token_loader]
        obtain ⟨i, found'⟩ := leaves.known (fun {name a} h => by
          rw [M.token_loader] at h
          obtain ⟨i, known, -⟩ := sound token name a h
          exact ⟨i, known⟩) found
        have known := TypeLookup.knows_of_annotation? found'
        have named := (M.loader token).types.name_of_annotation? found'
        exact ⟨i, found', next.entries known (named.symm ▸ found)⟩
      · have other : token ≠ (M.loader own).token := by rwa [M.token_loader]
        rw [leaves.others token other name] at found
        exact sound token name a found

/-- Whatever the modules do in turn, the registry stays sound. -/
lemma sound_registryAfter (unrecursive : ∀ token, (M.loader token).Unrecursive)
    (steps : List (ModuleToken × Operation)) : M.Sound (M.registryAfter steps) := by
  have run : ∀ r, M.Sound r → M.Sound (steps.foldl M.after r) := by
    induction steps with
    | nil => exact fun _ sound => sound
    | cons step steps ih => exact fun r sound => ih _ (sound.after unrecursive step)
  exact run .empty sound_empty

/-- Every entry is what loading its defaults comes to with an empty registry. -/
lemma Sound.entry (sound : M.Sound r) {token : ModuleToken} {name : String} {a : Annotation}
    (found : r.get? name token = some a) : ∃ i r',
    (M.loader token).types.annotation? name = some i ∧
      (M.loader token).loadDefaults i .empty = .ok a r' := by
  obtain ⟨i, known, value⟩ := sound token name a found
  obtain ⟨r', loaded⟩ := Loader.loadDefaults_of_agrees value
  exact ⟨i, r', known, loaded⟩

/-- Every operation answers what it answers with an empty registry. -/
lemma Sound.answer (unrecursive : ∀ token, (M.loader token).Unrecursive) (sound : M.Sound r)
    (token : ModuleToken) (op : Operation) :
    op.answer (M.loader token) r = op.answer (M.loader token) .empty := by
  cases removes : op.removes with
  | true => rw [op.answer_of_removes removes, op.answer_of_removes removes]
  | false =>
      exact (Operation.same (Loader.answersSame_of_coherent (unrecursive token))
        ⟨sound.coherent token, (M.loader token).coherent_self .empty⟩ op removes).1

end Modules

/-- In a batch every occurrence comes to what it comes to alone. -/
lemma cameTo_compileOccurrences {l : Loader} (unrecursive : l.Unrecursive) :
    ∀ (os : List Occurrence) (found : List (Occurrence × Outcome)) {r : Registry},
      l.Coherent .empty r → cameTo (compileOccurrences l found os) r
        = (os.mapM fun o => (cameTo (compileOccurrence l o) .empty).map fun outcome =>
            (o, outcome)).map fun outcomes => found.reverse ++ outcomes
  | [], found, r, _ => by
      rw [List.mapM_nil, compileOccurrences, cameTo_pure]
      exact congrArg Except.ok (List.append_nil _).symm
  | o :: os, found, r, coherent => by
      have same := sameFrom_compileOccurrence (l.answersSame_of_coherent unrecursive) o
      rw [List.mapM_cons, compileOccurrences]
      rcases same.results ⟨coherent, l.coherent_self .empty⟩ with
        ⟨outcome, r', t', ran, ran', next, -⟩ | ⟨e, r', t', ran, ran', -⟩
      · rw [cameTo_bind_ok ran, cameTo_ok ran',
          cameTo_compileOccurrences unrecursive os ((o, outcome) :: found) next]
        cases os.mapM fun o => (cameTo (compileOccurrence l o) .empty).map fun outcome =>
            (o, outcome) with
        | error e => rfl
        | ok outcomes =>
            have moved : ((o, outcome) :: found).reverse ++ outcomes
                = found.reverse ++ (o, outcome) :: outcomes := by simp
            exact congrArg Except.ok moved
      · rw [cameTo_bind_error ran, cameTo_error ran']
        rfl

/-! ## The main statement -/

/-- **The registry makes no difference.**  After any operations of modules of which no default needs
itself, every entry is what loading its defaults comes to with an empty registry, and every further
operation, a batch included, answers what it answers with an empty registry.  An operation looks at
and changes the entries of its own module only. -/
theorem registry_makes_no_difference (M : Modules)
    (unrecursive : ∀ token, (M.loader token).Unrecursive)
    (steps : List (ModuleToken × Operation)) :
    let r := M.registryAfter steps
    (∀ token name a, r.get? name token = some a → ∃ i r',
      (M.loader token).types.annotation? name = some i ∧
        (M.loader token).loadDefaults i .empty = .ok a r') ∧
    (∀ token (op : Operation), op.answer (M.loader token) r = op.answer (M.loader token) .empty) ∧
    (∀ token (op : Operation) other, other ≠ op.module (M.loader token) →
      Loader.SameEntries other (op.after (M.loader token) r) r) ∧
    (∀ token (op : Operation) t, Loader.SameEntries token r t →
      op.answer (M.loader token) r = op.answer (M.loader token) t ∧
        Loader.SameEntries token (op.after (M.loader token) r) (op.after (M.loader token) t)) ∧
    (∀ token occurrences, cameTo (compileOccurrences (M.loader token) [] occurrences) r
      = occurrences.mapM fun o => (cameTo (compileOccurrence (M.loader token) o) .empty).map
          fun outcome => (o, outcome)) := by
  intro r
  have sound : M.Sound r := Modules.sound_registryAfter unrecursive steps
  refine ⟨fun token name a found => sound.entry found, sound.answer unrecursive,
    fun token op other apart => op.sameEntries_after apart, fun token op t same => ?_, ?_⟩
  · have own := M.token_loader token
    have both := op.same_of_sameEntries (l := M.loader token) (r := r) (t := t) (own.symm ▸ same)
    rwa [own] at both
  · intro token occurrences
    rw [cameTo_compileOccurrences (unrecursive token) occurrences [] (sound.coherent token)]
    cases occurrences.mapM fun o => (cameTo (compileOccurrence (M.loader token) o) .empty).map
        fun outcome => (o, outcome) <;> rfl

/-- The default of one interface is an annotation of another, which has a default of its own. -/
def linkedIndex : TypeIndex where
  annotations :=
    [⟨"p.Inner", [⟨"x", .int, "()I"⟩]⟩, ⟨"p.Outer", [⟨"at", .interface "p.Inner", "()Lp/Inner;"⟩]⟩]
  enums := []
  classes := []
  defaults :=
    ⟨[(("p.Inner", "x"), [73, 0, 0, 0, 7]),
      (("p.Outer", "at"), [64, 0, 7, 112, 46, 73, 110, 110, 101, 114, 0, 0])]⟩

/-- One module has these interfaces, another those of shapes, and all others have none. -/
def sampleModules : Modules where
  loader token :=
    if token = ⟨0⟩ then linkedIndex.loader ⟨0⟩
    else if token = ⟨1⟩ then sampleIndex.loader ⟨1⟩
    else TypeIndex.empty.loader token
  token_loader token := by
    split_ifs with first second
    · exact first.symm
    · exact second.symm
    · rfl

/-- If the defaults of each interface load from an empty registry, none needs itself. -/
lemma unrecursive_of_loads {index : TypeIndex} {token : ModuleToken}
    (loads : ∀ i ∈ index.annotations,
      (returned ((index.loader token).defaultsFor i .empty)).isSome = true) :
    (index.loader token).Unrecursive := by
  intro i known
  obtain ⟨d, loaded⟩ := Option.isSome_iff_exists.1 (loads i (index.mem_of_annotation? known))
  obtain ⟨r', ran⟩ := exists_of_returned loaded
  rw [ran]
  trivial

lemma unrecursive_sampleModules (token : ModuleToken) :
    (sampleModules.loader token).Unrecursive := by
  rw [sampleModules]
  dsimp only
  split_ifs
  · exact unrecursive_of_loads (by decide +kernel)
  · exact unrecursive_of_loads (by decide +kernel)
  · exact unrecursive_of_loads (by simp [TypeIndex.empty])

/-- After the inner entry was dropped and the outer one is still there, an outer annotation without
elements is read as it would be with an empty registry. -/
theorem registry_makes_no_difference_sampleModules :
    let r := sampleModules.registryAfter
      [(⟨0⟩, .compileLiteral "@Outer"), (⟨1⟩, .defaultsFor "p.Shape"),
        (⟨1⟩, .invalidate "p.Inner" ⟨0⟩)]
    let l := sampleModules.loader ⟨0⟩
    let bytes := [64, 0, 7, 112, 46, 79, 117, 116, 101, 114, 0, 0]
    (r.get? "p.Inner" ⟨0⟩).isNone = true ∧ (r.get? "p.Outer" ⟨0⟩).isSome = true ∧
      (r.get? "p.Shape" ⟨1⟩).isSome = true ∧
      (Operation.decode bytes).answer l r = (Operation.decode bytes).answer l .empty := by
  intro r l bytes
  refine ⟨by decide +kernel, by decide +kernel, by decide +kernel, ?_⟩
  exact (registry_makes_no_difference sampleModules unrecursive_sampleModules _).2.1 ⟨0⟩ _

end DocAnnotations
