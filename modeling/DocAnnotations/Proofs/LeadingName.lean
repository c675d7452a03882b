import DocAnnotations.Proofs.Literal.Printed
import DocAnnotations.Proofs.Node.Grammar
import DocAnnotations.Proofs.Outcomes
import DocAnnotations.Proofs.Token.Name
import DocAnnotations.Proofs.TypeIndex
import Mathlib.Data.List.DropRight

/-!
# Leading names and opening names

There are two readings of the name at the front of a literal.  To the lexer it is the first token
behind an optional `@`, which goes on to the next blank or punctuation mark (`openingName?`).  An
occurrence is skipped before its literal is parsed by its leading name, which goes on as long as
there are letters, numerals, `_`, `$` and dots, and has no dots at its end (`leadingName`).  The
leading name is the front of the opening name (`leadingName_of_opening`), and all of it exactly for
those names that satisfy `ReadWhole`.

**`reportsUnknown_of_opening`**: an occurrence is reported as unknown for its leading name, or for
its opening name when the literal is well-formed.  So where the two names are the same it is
reported exactly when no interface is found under the name; and for every other name there is a
schema and a literal where this fails.
-/

namespace DocAnnotations

open Text Grammar

variable {literal n : String} {c : Char} {cs w rest : List Char} {offset more : Nat}

/-! ## Opening names -/

/-- What a text has behind an optional `@` and the blanks around it. -/
def behindSign (cs : List Char) : List Char :=
  trimStart ((dropFront? ['@'] (trimStart cs)).getD (trimStart cs))

/-- The token at the front of a text, where it is a name. -/
def frontName? : List Char → Option String
  | [] => none
  | c :: cs =>
    match scanToken 0 c cs with
    | .ok (.identifier, more) => some (String.ofList (c :: cs.take more))
    | _ => none

/-- The name that opens a literal: the first token behind an optional `@`, where it is a name. -/
def openingName? (literal : String) : Option String := frontName? (behindSign literal.toList)

/-- The text of a token that is a name. -/
def Token.name? (t : Token) : Option String := if t.kind = .identifier then some t.text else none

/-- The name that a list of tokens opens with, behind an optional `@`. -/
def firstName? : List Token → Option String
  | [] => none
  | t :: ts => if t.kind = .atSign then ts.head?.bind Token.name? else t.name?

lemma isBlank_of_trimStart (h : trimStart cs = c :: w) : isBlank c = false := by
  have first : (trimStart cs).head? = some c := by rw [h]; rfl
  have := List.head?_dropWhile_not isBlank cs
  rw [trimStart] at first
  rw [first] at this
  simpa using this

lemma trimStart_of_inked (inked : isBlank c = false) : trimStart (c :: cs) = c :: cs := by
  rw [trimStart, List.dropWhile_cons_of_neg (by simp [inked])]

/-- Blanks in front of a text only move its tokens. -/
lemma tokensFrom_trimStart : ∀ (cs : List Char) (offset : Nat),
    ∃ inner, tokensFrom offset 0 cs = tokensFrom inner 0 (trimStart cs)
  | [], offset => ⟨offset, rfl⟩
  | c :: cs, offset => by
      cases ink : isBlank c with
      | false => exact ⟨offset, by rw [trimStart_of_inked ink]⟩
      | true =>
          obtain ⟨inner, same⟩ := tokensFrom_trimStart cs (offset + c.utf8Size)
          refine ⟨inner, ?_⟩
          rw [tokensFrom_cons_blank ink, same, trimStart, trimStart,
            List.dropWhile_cons_of_pos ink]

/-- Without blanks at the front a text has ended, or its first token is cut off right there. -/
lemma ended_or_scanned {tokens : List Token}
    (cut : tokensFrom offset 0 (trimStart cs) = .ok tokens) :
    (trimStart cs = [] ∧ tokens = [Token.endOfInput offset]) ∨
      ∃ c w kind more span ts, trimStart cs = c :: w ∧ scanToken 0 c w = .ok (kind, more) ∧
        tokens = ⟨kind, String.ofList (c :: w.take more), span⟩ :: ts := by
  cases front : trimStart cs with
  | nil =>
      rw [front, tokensFrom] at cut
      exact .inl ⟨rfl, (Except.ok.inj cut).symm⟩
  | cons c w =>
      rw [front] at cut
      obtain ⟨kind, more, others, scan, -, rfl⟩ :=
        (tokensFrom_cons_ok (isBlank_of_trimStart front)).1 cut
      exact .inr ⟨c, w, kind, more, _, others, rfl, scanToken_offset scan, rfl⟩

/-- What is at the front of a text without blanks there is its first token. -/
lemma frontName?_of_tokens {tokens : List Token}
    (cut : tokensFrom offset 0 (trimStart cs) = .ok tokens) :
    frontName? (trimStart cs) = tokens.head?.bind Token.name? := by
  rcases ended_or_scanned cut with ⟨front, rfl⟩ | ⟨c, w, kind, more, span, ts, front, scan, rfl⟩
  · rw [front]
    rfl
  · rw [front, frontName?, scan]
    cases kind <;> rfl

/-- If the first token is an at sign, so is the first character that is not blank. -/
lemma exists_of_atSign {t : Token} {ts : List Token}
    (cut : tokensFrom offset 0 (trimStart cs) = .ok (t :: ts)) (sign : t.kind = .atSign) :
    ∃ w, trimStart cs = '@' :: w := by
  rcases ended_or_scanned cut with ⟨-, same⟩ | ⟨c, w, kind, more, span, others, front, scan, same⟩
  · cases same
    cases sign
  · cases same
    cases sign
    exact ⟨w, by rw [front, eq_atSign scan]⟩

/-- Behind an at sign blanks are skipped, so that the name may stand apart from it. -/
lemma behindSign_of_atSign (h : trimStart cs = '@' :: w) : behindSign cs = trimStart w := by
  rw [behindSign, h]
  rfl

lemma behindSign_of_ne (h : ∀ w, trimStart cs ≠ '@' :: w) : behindSign cs = trimStart cs := by
  have bare : dropFront? ['@'] (trimStart cs) = none := by
    cases front : trimStart cs with
    | nil => rfl
    | cons c w =>
        have other : c ≠ '@' := by
          rintro rfl
          exact h w front
        simp [dropFront?, other.symm]
  rw [behindSign, bare]
  exact List.dropWhile_idempotent isBlank cs

/-- **The opening name is the first name among the tokens**, wherever a literal has tokens. -/
theorem openingName?_of_tokenize {tokens : List Token} (cut : tokenize literal = .ok tokens) :
    openingName? literal = firstName? tokens := by
  obtain ⟨offset, moved⟩ := tokensFrom_trimStart literal.toList 0
  rw [tokenize, moved] at cut
  by_cases marked : ∃ w, trimStart literal.toList = '@' :: w
  · obtain ⟨w, front⟩ := marked
    rw [front] at cut
    obtain ⟨kind, more, others, scan, next, rfl⟩ :=
      (tokensFrom_cons_ok (isBlank_of_trimStart front)).1 cut
    cases scan
    -- the tokens behind the sign are those of the text behind the blanks that follow it
    obtain ⟨inner, moved⟩ := tokensFrom_trimStart w (offset + '@'.utf8Size)
    rw [moved] at next
    rw [openingName?, behindSign_of_atSign front, frontName?_of_tokens next]
    rfl
  · rw [openingName?, behindSign_of_ne (not_exists.1 marked), frontName?_of_tokens cut]
    cases tokens with
    | nil => rfl
    | cons t ts =>
        have unmarked : t.kind ≠ .atSign := fun sign => marked (exists_of_atSign cut sign)
        rw [firstName?, if_neg unmarked]
        rfl

/-- The name of a well-formed literal opens it. -/
lemma openingName?_of_parse {node : AnnotationNode}
    (parsed : AnnotationNode.parse literal = .ok node) : openingName? literal = some node.name := by
  have opens : ∀ {ts : List Token} {depth : Nat}, IsAnnotation ts node depth →
      ∃ t us, ts = t :: us ∧ t.kind = .identifier ∧ node.name = t.text := by
    intro ts depth derived
    cases derived with
    | bare named => exact ⟨_, _, rfl, named, rfl⟩
    | empty named => exact ⟨_, _, rfl, named, rfl⟩
    | arguments named => exact ⟨_, _, rfl, named, rfl⟩
  obtain ⟨tokens, depth, cut, derived, -⟩ := annotation_parse_iff.1 parsed
  rw [openingName?_of_tokenize cut]
  cases derived with
  | plain inner =>
      obtain ⟨t, us, rfl, named, same⟩ := opens inner
      simp [firstName?, Token.name?, named, same]
  | marked mark inner =>
      obtain ⟨t, us, rfl, named, same⟩ := opens inner
      simp [firstName?, Token.name?, mark, named, same]

/-! ## Opening names as lexemes -/

/-- An opening name stands at the front as a lexeme and ends where names stop. -/
lemma lexeme_of_opening (opens : openingName? literal = some n) :
    ∃ rest, behindSign literal.toList = n.toList ++ rest ∧ Stops rest
      ∧ IsLexeme .identifier n.toList := by
  cases front : behindSign literal.toList with
  | nil =>
      rw [openingName?, front] at opens
      cases opens
  | cons c cs =>
      rw [openingName?, front, frontName?] at opens
      split at opens
      · next more scan =>
        have name : n = String.ofList (c :: cs.takeWhile isNameChar) := by
          rw [List.prefix_iff_eq_take.1 (List.takeWhile_prefix isNameChar),
            ← length_of_identifier scan]
          exact (Option.some.inj opens).symm
        have stops : Stops (cs.dropWhile isNameChar) := by
          intro d first
          have stop := List.head?_dropWhile_not isNameChar cs
          rw [Option.mem_def.1 first] at stop
          simpa using stop
        have inked : isBlank c = false := isBlank_of_trimStart front
        refine ⟨cs.dropWhile isNameChar, ?_, stops, c, cs.takeWhile isNameChar, ?_, inked, nofun,
          ?_⟩
        · rw [name, String.toList_ofList, List.cons_append, List.takeWhile_append_dropWhile]
        · rw [name, String.toList_ofList]
        · refine (scanToken_append stops (by decide)).1 ?_
          rw [List.takeWhile_append_dropWhile, ← length_of_identifier scan]
          exact scan
      · cases opens

/-- A name is the opening name wherever it is at the front and names stop behind it. -/
lemma openingName?_append (name : IsLexeme .identifier n.toList) (stops : Stops rest) :
    openingName? (String.ofList (n.toList ++ rest)) = some n := by
  obtain ⟨c, w, same, inked, -, scan⟩ := name
  have front : trimStart (n.toList ++ rest) = c :: (w ++ rest) := by
    rw [same, List.cons_append, trimStart_of_inked inked]
  have bare : ∀ v, trimStart (n.toList ++ rest) ≠ '@' :: v := by
    intro v marked
    rw [front, List.cons.injEq] at marked
    rw [marked.1] at scan
    cases scan
  have scan : scanToken 0 c (w ++ rest) = .ok (.identifier, w.length) :=
    (scanToken_append stops (by decide)).2 scan
  rw [openingName?, String.toList_ofList, behindSign_of_ne bare, front, frontName?, scan]
  simp [← same]

/-! ## The two names of a literal -/

/-- The front of a name that consists of letters, numerals, `_`, `$` and dots, without dots at its
end. -/
def plainFront (name : String) : String :=
  String.ofList ((name.toList.takeWhile isJavaNameChar).rdropWhile (· == '.'))

/-- A name of letters, numerals, `_`, `$` and dots that does not end in a dot.  These are the names
that are their own plain fronts (`plainFront_eq_self`). -/
structure ReadWhole (name : String) : Prop where
  chars : ∀ c ∈ name.toList, isJavaNameChar c = true
  last : name.toList.getLast? ≠ some '.'

/-- A name is cut out of a literal as a whole if and only if all its characters are such as the
lookup takes, and it does not end in a dot. -/
lemma readWhole_iff : ReadWhole n ↔
    n.toList.all isJavaNameChar = true ∧ n.toList.getLast? ≠ some '.' := by
  rw [List.all_eq_true]
  exact ⟨fun h => ⟨h.chars, h.last⟩, fun h => ⟨h.1, h.2⟩⟩

instance (name : String) : Decidable (ReadWhole name) := decidable_of_iff' _ readWhole_iff

/-- **The leading name is the plain front of the opening name.** -/
theorem leadingName_of_opening (opens : openingName? literal = some n) :
    leadingName literal = plainFront n := by
  obtain ⟨rest, front, stops, -⟩ := lexeme_of_opening opens
  have foreign : ∀ c ∈ rest.head?, isJavaNameChar c = false := fun c first => by
    cases plain : isJavaNameChar c with
    | false => rfl
    | true => exact absurd (isNameChar_of_isJavaNameChar plain) (by simp [stops c first])
  have same : leadingName literal = String.ofList
      (((behindSign literal.toList).takeWhile isJavaNameChar).rdropWhile (· == '.')) := rfl
  rw [same, front, NumberText.takeWhile_append_of_stop foreign, plainFront]

/-- What the lookup takes of a name is the whole name if and only if the name is read as a whole. -/
lemma plainFront_eq_self : plainFront n = n ↔ ReadWhole n := by
  rw [plainFront, ← String.toList_inj, String.toList_ofList]
  constructor
  · intro same
    have shorter := (List.rdropWhile_prefix (p := (· == '.')) (l :=
      n.toList.takeWhile isJavaNameChar)).length_le
    have taken : n.toList.takeWhile isJavaNameChar = n.toList := by
      refine (List.takeWhile_prefix isJavaNameChar).eq_of_length_le ?_
      rwa [same] at shorter
    refine ⟨List.takeWhile_eq_self_iff.1 taken, fun dotted => ?_⟩
    rw [taken, List.rdropWhile_eq_self_iff] at same
    have inked : n.toList ≠ [] := by
      intro none
      rw [none] at dotted
      cases dotted
    rw [List.getLast?_eq_some_getLast inked, Option.some.injEq] at dotted
    exact same inked (by simpa using dotted)
  · rintro ⟨chars, last⟩
    rw [List.takeWhile_eq_self_iff.2 chars, List.rdropWhile_eq_self_iff]
    intro inked dotted
    exact last (by rw [List.getLast?_eq_some_getLast inked]; simpa using dotted)

/-! ## Occurrences -/

variable {l : Loader} {o : Occurrence} {r r' : Registry}

/-- An occurrence is reported as an annotation that was not found. -/
def Loader.ReportsUnknown (l : Loader) (o : Occurrence) (r : Registry) : Prop :=
  ∃ name r', compileOccurrence l o r = .ok (.unknownName name) r'

/-- A literal whose interface is unknown compiles to nothing, and the registry stays as it was. -/
lemma compileLiteral_of_unknown {node : AnnotationNode}
    (parsed : AnnotationNode.parse literal = .ok node)
    (unknown : l.types.findAnnotation? node.name = none) :
    compileLiteral l literal r = .ok none r := by
  simp only [compileLiteral, parsed, resolveRoot, unknown]
  rfl

/-- A known name never comes to nothing. -/
lemma ensures_isSome {node : AnnotationNode} {i : Interface}
    (known : l.types.findAnnotation? node.name = some i) :
    Ensures (fun _ => True) (resolveRoot l node) fun found => found.isSome = true := by
  have any : ∀ {ε α : Type} (p : WithRegistry ε α), Ensures (fun _ => True) p fun _ => True := by
    intro ε α p r _
    cases p r <;> simp
  unfold resolveRoot
  rw [known]
  exact (any _).bind fun d _ => (any _).bind fun a _ => Ensures.pure rfl

/-- A literal that compiles is well-formed, and it comes to nothing exactly when no interface is
found under its name. -/
lemma found_of_compileLiteral {found : Option Annotation}
    (ran : compileLiteral l literal r = .ok found r') :
    ∃ node, AnnotationNode.parse literal = .ok node
      ∧ (found = none ↔ l.types.findAnnotation? node.name = none) := by
  cases parsed : AnnotationNode.parse literal with
  | error e =>
      simp only [compileLiteral, parsed] at ran
      cases ran
  | ok node =>
      refine ⟨node, rfl, ?_⟩
      cases sought : l.types.findAnnotation? node.name with
      | none =>
          rw [compileLiteral_of_unknown parsed sought] at ran
          cases ran
          simp
      | some i =>
          simp only [compileLiteral, parsed] at ran
          have ensures := (ensures_isSome sought).adaptExcept CompileError.resolve
          have some := (ensures.ok trivial ran).1
          simp [← Option.isSome_iff_ne_none, some]

/-- An occurrence is reported as unknown at once, or because its literal comes to nothing. -/
lemma reportsUnknown_iff : l.ReportsUnknown o r ↔ l.skips o.literal = true ∨
    ∃ node, AnnotationNode.parse o.literal = .ok node
      ∧ l.types.findAnnotation? node.name = none := by
  cases tried : l.skips o.literal with
  | true => simpa using ⟨_, r, compileOccurrence_of_skips tried r⟩
  | false =>
      simp only [Bool.false_eq_true, false_or]
      constructor
      · rintro ⟨name, r', ran⟩
        cases compiled : compileLiteral l o.literal r with
        | ok found s =>
            rw [compileOccurrence_of_ok tried compiled] at ran
            obtain ⟨node, parsed, unknown⟩ := found_of_compileLiteral compiled
            cases found with
            | none => exact ⟨node, parsed, unknown.1 rfl⟩
            | some a => cases ran
        | error e s =>
            rw [compileOccurrence_of_error tried compiled] at ran
            split at ran <;> cases ran
      · rintro ⟨node, parsed, unknown⟩
        exact ⟨_, r, compileOccurrence_of_ok tried (compileLiteral_of_unknown parsed unknown)⟩

/-- The two ways to be reported, by the names of a literal. -/
lemma reportsUnknown_iff_of_opening (opens : openingName? o.literal = some n) :
    l.ReportsUnknown o r ↔
      (plainFront n ≠ "" ∧ l.types.findAnnotation? (plainFront n) = none) ∨
      (l.types.findAnnotation? n = none ∧ ∃ node, AnnotationNode.parse o.literal = .ok node) := by
  have skips : l.skips o.literal = true ↔
      plainFront n ≠ "" ∧ l.types.findAnnotation? (plainFront n) = none := by
    rw [Loader.skips, leadingName_of_opening opens]
    simp
  rw [reportsUnknown_iff, skips]
  refine or_congr_right ⟨?_, ?_⟩
  · rintro ⟨node, parsed, unknown⟩
    have same := (openingName?_of_parse parsed).symm.trans opens
    rw [Option.some.inj same] at unknown
    exact ⟨unknown, node, parsed⟩
  · rintro ⟨unknown, node, parsed⟩
    have same := (openingName?_of_parse parsed).symm.trans opens
    exact ⟨node, parsed, by rwa [Option.some.inj same]⟩

lemma ne_empty_of_isLexeme (name : IsLexeme .identifier n.toList) : n ≠ "" := by
  rintro rfl
  obtain ⟨c, w, same, -⟩ := name
  cases same

/-! ## Names that are not read whole -/

/-- A schema of one interface without elements. -/
def soleSchema (name : String) : Schema := ⟨[⟨name, []⟩], [], []⟩

/-- The index of a schema of one interface without elements. -/
def soleIndex (name : String) : TypeIndex := ⟨[⟨name, []⟩], [], [], .empty⟩

lemma soleIndex_annotation? (name : String) :
    (soleIndex name).annotation? name = some ⟨name, []⟩ := by
  simp [TypeIndex.annotation?, soleIndex]

/-- A schema with one interface, without elements, loads whatever the interface is called. -/
lemma ofSchema_soleSchema (name : String) :
    TypeIndex.ofSchema (soleSchema name) = .ok (soleIndex name) := by
  have order : dependencyOrder (soleIndex name).references [name] = .ok [name] := by
    simp [dependencyOrder, visitInterface, TypeIndex.references, soleIndex_annotation?,
      Interface.references, Bind.bind, Except.bind, pure, Except.pure]
  have defaults : addDefaults (soleIndex name).lookup (soleSchema name).annotations .empty name
      = .ok .empty := by
    have found : (soleIndex name).lookup.annotation? name = some ⟨name, []⟩ :=
      soleIndex_annotation? name
    simp only [addDefaults, found, soleSchema, List.find?_cons, beq_self_eq_true]
    rfl
  change dependencyOrder (soleIndex name).references [name] >>= (fun order =>
    order.foldlM (addDefaults (soleIndex name).lookup (soleSchema name).annotations) .empty >>=
      fun defaults => .ok { soleIndex name with defaults }) = _
  rw [order]
  change (addDefaults (soleIndex name).lookup (soleSchema name).annotations .empty name >>= pure)
    >>= (fun defaults => .ok { soleIndex name with defaults }) = _
  rw [defaults]
  rfl

/-- The one interface is found by its name. -/
lemma soleIndex_findAnnotation? (name : String) :
    (soleIndex name).findAnnotation? name = some ⟨name, []⟩ := by
  rw [TypeIndex.findAnnotation?, soleIndex_annotation?]

/-- Under another name nothing is found, as long as it is not the simple name of the interface. -/
lemma soleIndex_findAnnotation?_of_ne {name other : String} (ne : name ≠ other)
    (simple : '.' ∉ other.toList → simpleName name ≠ other) :
    (soleIndex name).findAnnotation? other = none := by
  have unknown : (soleIndex name).annotation? other = none := by
    simp [TypeIndex.annotation?, soleIndex, ne]
  rw [TypeIndex.findAnnotation?, unknown]
  by_cases dotted : '.' ∈ other.toList
  · simp [dotted]
  · simp [dotted, soleIndex, Interface.simpleName, simple dotted]

/-- Behind the name of a well-formed literal comes a parenthesis or the end. -/
lemma kind_behind_name {tokens ts : List Token} {t u : Token} {a : AnnotationNode} {depth : Nat}
    (derived : IsRoot tokens a depth) (same : tokens = t :: u :: ts)
    (named : t.kind = .identifier) : u.kind = .leftParen ∨ u.kind = .endOfInput := by
  cases derived with
  | plain inner final =>
      cases inner with
      | bare _ =>
          cases same
          exact .inr final
      | empty _ left _ =>
          cases same
          exact .inl left
      | arguments _ left _ _ =>
          simp only [List.cons_append, List.cons.injEq] at same
          exact .inl (same.2.1 ▸ left)
  | marked mark inner final =>
      simp only [List.cons_append, List.cons.injEq] at same
      rw [same.1, named] at mark
      cases mark

/-- Two names are tokens, but no well-formed literal. -/
lemma two_names (name : IsLexeme .identifier n.toList) :
    (∃ tokens, tokenize (String.ofList (n.toList ++ " x".toList)) = .ok tokens) ∧
      ¬ ∃ node, AnnotationNode.parse (String.ofList (n.toList ++ " x".toList)) = .ok node := by
  have second : IsLexeme .identifier "x".toList := JavaName.isLexeme_name (by decide) (by decide)
  have lexes := (lexes_word name 0).before (by decide : isNameChar ' ' = false)
    ((lexes_blank _).then (lexes_word second _))
  have two := tokenize_of_lexes lexes stops_nil
  refine ⟨⟨_, two⟩, ?_⟩
  rintro ⟨node, parsed⟩
  obtain ⟨tokens, depth, cut, derived, -⟩ := annotation_parse_iff.1 parsed
  rcases kind_behind_name derived (Except.ok.inj (cut.symm.trans two)) rfl with kind | kind <;>
    cases kind

/-- A text with tokens that is not well-formed fails when it is not skipped. -/
lemma fails_of_not_parse (tried : l.skips o.literal = false)
    (lexed : ∃ tokens, tokenize o.literal = .ok tokens)
    (broken : ¬ ∃ node, AnnotationNode.parse o.literal = .ok node) :
    ∃ d, compileOccurrence l o r = .ok (.failed d) r ∧ d.code = .parseError := by
  obtain ⟨e, parsed⟩ : ∃ e, AnnotationNode.parse o.literal = .error e := by
    cases parsed : AnnotationNode.parse o.literal with
    | ok node => exact absurd ⟨node, parsed⟩ broken
    | error e => exact ⟨e, rfl⟩
  have ran : compileLiteral l o.literal r = .error (.parse e) r := by
    simp only [compileLiteral, parsed]
    rfl
  have failed := compileOccurrence_of_error tried ran
  cases lexical : (CompileError.parse e).lexError? with
  | none =>
      rw [lexical] at failed
      exact ⟨_, failed, rfl⟩
  | some cause =>
      obtain ⟨tokens, cut⟩ := lexed
      rw [tokenize_of_compileLiteral ran lexical] at cut
      cases cut

/-- **Where the two names differ, free text behind a name can make it fail.**  For a name that is
not read whole there are a schema that declares no interface of the name, and a literal that opens
with it and fails. -/
theorem exists_failing (name : IsLexeme .identifier n.toList) (cut : ¬ ReadWhole n) :
    ∃ schema index literal, TypeIndex.ofSchema schema = .ok index ∧ openingName? literal = some n
      ∧ index.findAnnotation? n = none ∧ ∀ token (o : Occurrence) r, o.literal = literal →
        ∃ d, compileOccurrence (index.loader token) o r = .ok (.failed d) r
          ∧ d.code = .parseError := by
  have other : plainFront n ≠ n := plainFront_eq_self.not.2 cut
  have simple : '.' ∉ n.toList → simpleName (plainFront n) ≠ n := by
    intro undotted
    have undotted : '.' ∉ (plainFront n).toList := by
      rw [plainFront, String.toList_ofList]
      exact fun mem => undotted ((List.takeWhile_prefix _).subset
        ((List.rdropWhile_prefix (· == '.') _).subset mem))
    rwa [simpleName, splitLast?_of_not_mem undotted]
  have opens : openingName? (String.ofList (n.toList ++ " x".toList)) = some n :=
    openingName?_append name (stops_cons.2 (by decide))
  -- the front is the name of an interface, so the literal is parsed, and the free text fails
  refine ⟨soleSchema (plainFront n), soleIndex (plainFront n), _, ofSchema_soleSchema _, opens,
    soleIndex_findAnnotation?_of_ne other simple, ?_⟩
  intro token o r same
  obtain ⟨lexed, broken⟩ := two_names name
  have tried : ((soleIndex (plainFront n)).loader token).skips o.literal = false := by
    have found : ((soleIndex (plainFront n)).loader token).types.findAnnotation? (plainFront n)
        = some ⟨plainFront n, []⟩ := soleIndex_findAnnotation? _
    rw [Loader.skips, same, leadingName_of_opening opens, found]
    simp
  rw [← same] at lexed broken
  exact fails_of_not_parse tried lexed broken

/-! ## The main statement -/

/-- A name that is read whole decides alone whether a literal that opens with it is skipped. -/
lemma ReadWhole.skips_iff (whole : ReadWhole n) (opens : openingName? o.literal = some n) :
    l.skips o.literal = true ↔ l.types.findAnnotation? n = none := by
  obtain ⟨-, -, -, name⟩ := lexeme_of_opening opens
  rw [Loader.skips, leadingName_of_opening opens, plainFront_eq_self.2 whole]
  simp [ne_empty_of_isLexeme name]

/-- **There are two readings of one name.**  Where a literal opens with a name, the occurrence is
reported as unknown when no interface is found under the plain front of the name, or when none is
found under the name and the literal is well-formed.  For a name that is read whole this is when
none is found under it: then the occurrence is reported by that name whatever follows it, and a
literal that compiles is never skipped.  For no other name does this hold of all loaded indexes and
all literals. -/
theorem reportsUnknown_of_opening (name : IsLexeme .identifier n.toList) :
    (∀ (l : Loader) (o : Occurrence) (r : Registry), openingName? o.literal = some n →
      (l.ReportsUnknown o r ↔
        (plainFront n ≠ "" ∧ l.types.findAnnotation? (plainFront n) = none) ∨
        (l.types.findAnnotation? n = none ∧
          ∃ node, AnnotationNode.parse o.literal = .ok node)))
    ∧ (ReadWhole n → ∀ (l : Loader) (o : Occurrence) (r : Registry),
      openingName? o.literal = some n →
        (l.ReportsUnknown o r ↔ l.types.findAnnotation? n = none)
        ∧ (l.types.findAnnotation? n = none →
          compileOccurrence l o r = .ok (.unknownName n) r)
        ∧ ∀ a r', compileLiteral l o.literal r = .ok (some a) r' →
          compileOccurrence l o r = .ok (.resolved a) r')
    ∧ (ReadWhole n ↔ ∀ schema index, TypeIndex.ofSchema schema = .ok index →
      ∀ token (o : Occurrence) r, openingName? o.literal = some n →
        ((index.loader token).ReportsUnknown o r ↔ index.findAnnotation? n = none)) := by
  have agrees : ReadWhole n → ∀ (l : Loader) (o : Occurrence) (r : Registry),
      openingName? o.literal = some n →
        (l.ReportsUnknown o r ↔ l.types.findAnnotation? n = none) := by
    intro whole l o r opens
    rw [reportsUnknown_iff_of_opening opens, plainFront_eq_self.2 whole]
    simpa [ne_empty_of_isLexeme name] using fun unknown _ _ => unknown
  refine ⟨fun l o r opens => reportsUnknown_iff_of_opening opens, fun whole l o r opens =>
    ⟨agrees whole l o r opens, fun unknown => ?_, fun a r' ran => ?_⟩, fun whole _ index _ token =>
    agrees whole (index.loader token), fun all => ?_⟩
  · rw [compileOccurrence_of_skips ((whole.skips_iff opens).2 unknown),
      leadingName_of_opening opens, plainFront_eq_self.2 whole]
  · obtain ⟨node, parsed, found⟩ := found_of_compileLiteral ran
    have same := (openingName?_of_parse parsed).symm.trans opens
    rw [Option.some.inj same] at found
    have tried : l.skips o.literal = false :=
      Bool.eq_false_iff.2 fun skips => nomatch found.2 ((whole.skips_iff opens).1 skips)
    exact compileOccurrence_of_ok tried ran
  · by_contra cut
    obtain ⟨schema, index, literal, loaded, opens, unknown, fails⟩ := exists_failing name cut
    let o : Occurrence := ⟨"", "", 0, .wholeClass, literal⟩
    obtain ⟨d, failed, -⟩ := fails ⟨0⟩ o .empty rfl
    obtain ⟨_, _, ran⟩ := (all schema index loaded ⟨0⟩ o .empty opens).2 unknown
    rw [failed] at ran
    cases ran

/-- An ordinary tag is skipped by its name whatever follows; an interface whose name has a currency
sign is not found by the front of that name, though its literal compiles. -/
theorem reportsUnknown_of_opening_currency :
    IsLexeme .identifier "author".toList ∧ ReadWhole "author"
    ∧ compileOccurrence ((soleIndex "p.Prix€").loader ⟨0⟩)
        ⟨"p.C", "C.java", 1, .wholeClass, "@author Jane Doe"⟩ .empty
      = .ok (.unknownName "author") .empty
    ∧ IsLexeme .identifier "Prix€".toList ∧ ¬ ReadWhole "Prix€"
    ∧ ((soleIndex "p.Prix€").loader ⟨0⟩).ReportsUnknown
        ⟨"p.C", "C.java", 2, .wholeClass, "@Prix€"⟩ .empty
    ∧ ∃ a r, compileLiteral ((soleIndex "p.Prix€").loader ⟨0⟩) "@Prix€" .empty
      = .ok (some a) r := by
  have author : IsLexeme .identifier "author".toList :=
    isLexeme_of_nameChars (by decide +kernel) (by decide) (by decide)
  have prix : IsLexeme .identifier "Prix€".toList :=
    isLexeme_of_nameChars (by decide +kernel) (by decide) (by decide)
  have whole : ReadWhole "author" := by decide +kernel
  refine ⟨author, whole, ?_, prix, by decide +kernel, ?_, ?_⟩
  · exact ((reportsUnknown_of_opening author).2.1 whole _ _ _ (by decide +kernel)).2.1
      (by decide +kernel)
  · exact ((reportsUnknown_of_opening prix).1 _ _ _ (by decide +kernel)).2
      (.inl ⟨by decide +kernel, by decide +kernel⟩)
  · exact ⟨⟨"p.Prix€", []⟩, _, rfl⟩

end DocAnnotations
