import DocAnnotations.Proofs.Defaults.Decoding

/-!
# Where errors come from

Every fault of resolution is about the literal, but for one: the defaults of an interface do not
load.

**Faults of literals.**  `Faults` says that a check has only faults of the first sort, and each
check of a literal does.

**Computations that end.**  `Finishes E p` says that all errors of a computation are in `E`.  If
loading has errors in `E` only, whatever is known of these is known of the fault that wraps them,
wherever in a literal it arises (**`finishes_compileLiteral`**).

**Loaded indexes.**  Loading the defaults of an interface could need these very defaults.  The limit
on the loads under way then ends it, with an error that is not `Settled`.
**`defaultsEnd_of_ofSchema`**: over a loaded index loading always ends, whatever the registry holds.
-/

namespace DocAnnotations

open Attribute

/-! ## Faults of literals -/

/-- A fault that does not come from a limit on the loads under way. -/
def ResolveFault.Settled : ResolveFault → Prop
  | .defaultsUnavailable cause => cause.Settled
  | _ => True

/-- An error that does not come from a limit on the loads under way. -/
def CompileError.Settled : CompileError → Prop
  | .parse _ => True
  | .resolve e => e.fault.Settled

/-- A fault about defaults comes from an error in `E`. -/
def ResolveFault.From (E : ReadError → Prop) (fault : ResolveFault) : Prop :=
  ∀ cause, fault = .defaultsUnavailable cause → E cause

lemma ResolveFault.settled_iff {fault : ResolveFault} :
    fault.Settled ↔ fault.From ReadError.Settled := by
  cases fault <;> simp [ResolveFault.Settled, ResolveFault.From]

/-- No fault of a check is about defaults. -/
def Faults {α : Type} (x : Except ResolveFault α) : Prop :=
  ∀ fault, x = .error fault → ∀ cause, fault ≠ .defaultsUnavailable cause

namespace Faults

variable {α β : Type} {x : Except ResolveFault α} {f : α → Except ResolveFault β}

lemma ok (a : α) : Faults (.ok a) := nofun

lemma error {fault : ResolveFault} (own : ∀ cause, fault ≠ .defaultsUnavailable cause) :
    Faults (.error fault : Except ResolveFault α) := by
  rintro _ ⟨⟩
  exact own

/-- A check that follows another has faults of its own only, if both have. -/
lemma bind (h : Faults x) (next : ∀ a, Faults (f a)) : Faults (x >>= f) := by
  cases x with
  | ok a => exact next a
  | error fault => exact .error (h fault rfl)

end Faults

section

variable {types : TypeLookup} {element text otherName : String} {expected : ElementType}

lemma faults_integerValue (bits : Nat) : Faults (integerValue element expected bits text) := by
  unfold integerValue
  split
  · exact .error (by simp)
  · split_ifs
    · exact .error (by simp)
    · split
      · exact .ok _
      · exact .error (by simp)

lemma faults_floatingValue (format : Decimal.BinaryFormat) (own other : Char) :
    Faults (floatingValue element expected format own other otherName text) := by
  unfold floatingValue
  split
  · exact .ok _
  all_goals exact .error (by simp)

lemma faults_classValue : Faults (classValue types element text) := by
  unfold classValue
  split
  · exact .error (by simp)
  · split_ifs
    · exact .ok _
    · split
      · exact .ok _
      · exact .error (by simp)

lemma faults_enumValue (name : String) : Faults (enumValue types element name text) := by
  unfold enumValue
  split_ifs
  · exact .error (by simp)
  · split
    · exact .error (by simp)
    · split
      · exact .error (by simp)
      · split_ifs
        · exact .error (by simp)
        · exact .ok _
        · exact .error (by simp)

/-- No literal is at fault for defaults. -/
lemma faults_literalValue (kind : LiteralKind) :
    Faults (literalValue types element kind text expected) := by
  cases expected with
  | byte | short | int | long =>
      simp only [literalValue]
      split_ifs
      · exact (faults_integerValue _).bind fun _ => .ok _
      · exact .error (by simp)
  | float | double =>
      simp only [literalValue]
      split_ifs
      · exact (faults_floatingValue _ _ _).bind fun _ => .ok _
      · exact (faults_integerValue _).bind fun _ => .ok _
      · exact .error (by simp)
  | boolean =>
      simp only [literalValue]
      split_ifs
      · exact .ok _
      · exact .error (by simp)
  | char | string =>
      simp only [literalValue]
      split_ifs
      · split
        · exact .ok _
        · exact .error (by simp)
      · exact .error (by simp)
  | classRef =>
      simp only [literalValue]
      split_ifs
      · exact faults_classValue.bind fun _ => .ok _
      · exact .error (by simp)
  | enum name =>
      simp only [literalValue]
      split_ifs
      · exact (faults_enumValue name).bind fun _ => .ok _
      · exact .error (by simp)
  | interface | array => exact .error (by simp)

end

/-! ## Computations that end -/

/-- A computation whose errors are all in `E`. -/
def Finishes {ε σ α : Type} (E : ε → Prop) (p : EStateM ε σ α) : Prop := ∀ s, Finished E (p s)

namespace Finishes

variable {ε ε' σ α β : Type} {E : ε → Prop} {E' : ε' → Prop} {p : EStateM ε σ α}

lemma pure (a : α) : Finishes E (pure a : EStateM ε σ α) := fun _ => trivial

lemma throw {e : ε} (inside : E e) : Finishes E (throw e : EStateM ε σ α) := fun _ => inside

lemma bind {f : α → EStateM ε σ β} (first : Finishes E p) (next : ∀ a, Finishes E (f a)) :
    Finishes E (p >>= f) := by
  intro s
  have finished := first s
  simp only [Bind.bind, EStateM.bind]
  cases ran : p s with
  | ok a s' => exact next a s'
  | error e s' =>
      rw [ran] at finished
      exact finished

lemma error {e : ε} {s s' : σ} (h : Finishes E p) (ran : p s = .error e s') : E e := by
  have finished := h s
  rwa [ran] at finished

/-- A computation may be said to have more errors than it has. -/
lemma mono {F : ε → Prop} (h : Finishes E p) (inside : ∀ e, E e → F e) : Finishes F p := by
  intro s
  have finished := h s
  cases ran : p s with
  | ok a s' => trivial
  | error e s' =>
      rw [ran] at finished
      exact inside e finished

/-- A change made to errors takes those of the computation to those that are asked for. -/
lemma adaptExcept {g : ε → ε'} (h : Finishes E p) (inside : ∀ e, E e → E' (g e)) :
    Finishes E' (p.adaptExcept g) := by
  intro s
  have finished := h s
  simp only [EStateM.adaptExcept]
  cases ran : p s with
  | ok a s' => trivial
  | error e s' =>
      rw [ran] at finished
      exact inside e finished

end Finishes

variable {l : Loader} {E : ReadError → Prop}

/-- Loading the defaults of any interface has only errors in `E`, whatever the registry holds. -/
def Loader.FailsIn (l : Loader) (E : ReadError → Prop) : Prop :=
  ∀ i, l.types.Knows i → Finishes E (l.defaultsFor i)

/-- Loading the defaults of any interface ends, whatever the registry holds. -/
def Loader.DefaultsEnd (l : Loader) : Prop :=
  ∀ i, l.types.Knows i → Finishes ReadError.Settled (l.defaultsFor i)

lemma finishes_fillMissing (interface : String) (offset : Nat) (defaults : Annotation) :
    ∀ (elements : List Element) (a : Annotation),
      Finishes (fun e => e.fault.From E) (fillMissing interface offset defaults elements a)
  | [], _ => .pure _
  | e :: elements, a => by
      rw [fillMissing]
      split_ifs
      · exact finishes_fillMissing interface offset defaults elements a
      · cases defaults.get? e.name with
        | none => exact .throw (by simp [ResolveFault.From])
        | some v => exact finishes_fillMissing interface offset defaults elements _

/-- The fault of loading defaults is one in `E`, wrapped with the place that asked for them. -/
lemma finishes_defaultsAt (fails : l.FailsIn E) {i : Interface} (known : l.types.Knows i)
    (offset : Nat) : Finishes (fun e => e.fault.From E) (l.defaultsAt i offset) := by
  refine (fails i known).adaptExcept fun cause inside => ?_
  rintro _ ⟨⟩
  exact inside

mutual

/-- Resolving a value fails with a fault of its own, or because of defaults with an error in `E`;
the induction is on the tree. -/
theorem finishes_resolveValue (fails : l.FailsIn E) (interface element : String) :
    ∀ (n : Node) (expected : ElementType),
      Finishes (fun e => e.fault.From E) (resolveValue l interface element n expected)
  | .literal kind text span, expected => by
      have faults : Faults (literalValue l.types element kind text expected) :=
        faults_literalValue kind
      rw [resolveValue]
      cases found : literalValue l.types element kind text expected with
      | ok v => exact .pure _
      | error fault => exact .throw fun cause same => (faults fault found cause same).elim
  | .array nodes span, expected => by
      cases expected with
      | array inner =>
          rw [resolveValue]
          exact (finishes_resolveValues fails interface element inner nodes []).bind
            fun _ => .pure _
      | _ => exact .throw (by simp [ResolveFault.From])
  | .nested ⟨name, pairs, span⟩, expected => by
      cases expected with
      | interface declared =>
          rw [resolveValue]
          cases found : l.types.annotation? declared with
          | none => exact .throw (by simp [ResolveFault.From])
          | some i =>
              dsimp only
              split_ifs
              · have known := TypeLookup.knows_of_annotation? found
                exact (finishes_defaultsAt fails known _).bind fun _ =>
                  (finishes_resolvePairs fails i pairs _).bind fun _ =>
                    (finishes_fillMissing _ _ _ _ _).bind fun _ => .pure _
              · exact .throw (by simp [ResolveFault.From])
      | _ => exact .throw (by simp [ResolveFault.From])

lemma finishes_resolveValues (fails : l.FailsIn E) (interface element : String)
    (expected : ElementType) : ∀ (ns : List Node) (found : List Value),
      Finishes (fun e => e.fault.From E) (resolveValues l interface element expected ns found)
  | [], _ => .pure _
  | n :: ns, found => by
      rw [resolveValues]
      exact (finishes_resolveValue fails interface element n expected).bind fun v =>
        finishes_resolveValues fails interface element expected ns (v :: found)

/-- The same for the pairs of an annotation, each resolved for the element that it names. -/
lemma finishes_resolvePairs (fails : l.FailsIn E) (interface : Interface) :
    ∀ (ps : List PairNode) (a : Annotation),
      Finishes (fun e => e.fault.From E) (resolvePairs l interface ps a)
  | [], _ => .pure _
  | ⟨name, value, span⟩ :: ps, a => by
      rw [resolvePairs]
      cases interface.element? name with
      | none => exact .throw (by simp [ResolveFault.From])
      | some e =>
          dsimp only
          split_ifs
          · exact .throw (by simp [ResolveFault.From])
          · exact (finishes_resolveValue fails interface.name e.name value e.type).bind fun v =>
              finishes_resolvePairs fails interface ps (a.insert name v)

end

/-- The same for a whole annotation, whose interface is looked up at first. -/
lemma finishes_resolveRoot (fails : l.FailsIn E) (node : AnnotationNode) :
    Finishes (fun e => e.fault.From E) (resolveRoot l node) := by
  rw [resolveRoot]
  cases found : l.types.findAnnotation? node.name with
  | none => exact .pure _
  | some i =>
      exact (finishes_defaultsAt fails (l.types.annotation?_of_find found) _).bind fun _ =>
        ((finishes_resolvePairs fails i node.pairs _).bind
          fun _ => finishes_fillMissing _ _ _ _ _).bind fun _ => .pure _

/-- Whatever is known of the errors of loading defaults is known of the one fault of a literal that
is about them. -/
theorem finishes_compileLiteral (fails : l.FailsIn E) (text : String) :
    Finishes (fun e => ∀ error, e = .resolve error → error.fault.From E)
      (compileLiteral l text) := by
  rw [compileLiteral]
  cases AnnotationNode.parse text with
  | error e => exact .throw (by simp)
  | ok node =>
      refine (finishes_resolveRoot fails node).adaptExcept fun e inside => ?_
      rintro _ ⟨⟩
      exact inside

/-- Where loading defaults ends, compiling a literal does. -/
lemma Loader.DefaultsEnd.compileLiteral (ends : l.DefaultsEnd) (text : String) :
    Finishes CompileError.Settled (compileLiteral l text) := by
  intro r
  have finished := finishes_compileLiteral ends text r
  cases ran : DocAnnotations.compileLiteral l text r with
  | ok found r' => trivial
  | error e r' =>
      rw [ran] at finished
      cases e with
      | parse _ => trivial
      | resolve e => exact ResolveFault.settled_iff.2 (finished e rfl)

/-- Loading defaults has no errors but those of decoding them, whatever the registry holds. -/
lemma finishes_defaultsFor {i : Interface} {x : Except ReadError Annotation}
    (known : l.types.Knows i) (decodes : l.DecodesTo i x) (inside : ∀ e, x = .error e → E e) :
    Finishes E (l.defaultsFor i) := by
  intro r
  rw [decodes.defaultsFor_eq known]
  cases present : r.get? i.name l.token with
  | some a =>
      rw [Registry.getOrPopulate_of_present present]
      trivial
  | none =>
      rw [Registry.getOrPopulate_ofExcept present]
      cases x with
      | error e => exact inside e rfl
      | ok d => trivial

/-! ## Loaded indexes -/

/-- **Loading ends.**  The defaults of a loaded index ask for no others. -/
theorem defaultsEnd_of_ofSchema {schema : Schema} {index : TypeIndex}
    (loaded : TypeIndex.ofSchema schema = .ok index) (token : ModuleToken) :
    (index.loader token).DefaultsEnd := by
  intro i known
  obtain ⟨x, settled, decodes⟩ := exists_decodesTo_of_ofSchema loaded token i
  refine finishes_defaultsFor known decodes fun e same => ?_
  subst same
  exact settled

end DocAnnotations
