import DocAnnotations.Diagnostic
import DocAnnotations.Text.Hex

/-!
# Compiling a batch

Every occurrence of a batch is judged on its own: its literal is resolved, it is skipped when its
name is that of no annotation interface, or it fails.  Of several annotations of one type at one
member the first is accepted and the others fail.  Then the accepted annotations of each member
become one attribute; a member whose annotations cannot be written has none, and all its
annotations count as failed.  Messages about single occurrences are in the order of the batch, those
about members behind them in the order of the members.
-/

namespace DocAnnotations

open Text Attribute

/-! ## Single occurrences -/

/-- What a literal comes to. -/
inductive Outcome where
  | resolved (a : Annotation)
  | unknownName (name : String)
  | failed (diagnostic : Diagnostic)

/-- The name at the front of a literal, after blanks and an optional `@`: letters, numerals, `_`,
`$` and dots, without dots at its end. -/
def leadingName (literal : String) : String :=
  let cs := trimStart literal.toList
  let cs := trimStart ((dropFront? ['@'] cs).getD cs)
  let name := cs.takeWhile fun c => isLetterOrNumeral c || c == '_' || c == '$' || c == '.'
  String.ofList (name.reverse.dropWhile (· == '.')).reverse

/-- What the literal of an occurrence comes to.  A leading name of no interface is enough to skip
it, whatever follows.  A literal that has no tokens stops the batch. -/
def compileOccurrence (l : Loader) (o : Occurrence) : WithRegistry LexError Outcome := fun r =>
  let name := leadingName o.literal
  if !name.isEmpty && (l.types.findAnnotation? name).isNone then .ok (.unknownName name) r
  else match compileLiteral l o.literal r with
    | .ok (some a) r => .ok (.resolved a) r
    | .ok none r => .ok (.unknownName name) r
    | .error (.parse (.lexical e)) r => .error e r
    | .error e r => .ok (.failed (.ofCompileError o e)) r

/-- What several occurrences come to, added to those before, the last of these first. -/
def compileOccurrences (l : Loader) :
    List (Occurrence × Outcome) → List Occurrence →
      WithRegistry LexError (List (Occurrence × Outcome))
  | found, [] => return found.reverse
  | found, o :: os => do
    let outcome ← compileOccurrence l o
    compileOccurrences l ((o, outcome) :: found) os

/-! ## Verdicts -/

/-- What becomes of an occurrence. -/
inductive Verdict where
  | accepted (a : Annotation)
  | skipped (name : String)
  | failed (diagnostic : Diagnostic)

/-- The verdicts on occurrences; `taken` are the annotation types that members have already. -/
def judge : (taken : List (Target × String)) → List (Occurrence × Outcome) →
    List (Occurrence × Verdict)
  | _, [] => []
  | taken, (o, .resolved a) :: rest =>
    if taken.contains (o.target, a.typeName) then
      (o, .failed (.ofDuplicate o a.typeName)) :: judge taken rest
    else (o, .accepted a) :: judge ((o.target, a.typeName) :: taken) rest
  | taken, (o, .unknownName name) :: rest => (o, .skipped name) :: judge taken rest
  | taken, (o, .failed d) :: rest => (o, .failed d) :: judge taken rest

/-- The annotation of an accepted occurrence. -/
def Verdict.annotation? : Verdict → Option Annotation
  | accepted a => some a
  | _ => none

/-- The diagnostic of a failed occurrence. -/
def Verdict.diagnostic? : Verdict → Option Diagnostic
  | failed d => some d
  | _ => none

/-- The message about a skipped occurrence. -/
def skipMessage? (o : Occurrence) : Verdict → Option String
  | .skipped name => some s!"annotation not found: {name} ({o.file}:{o.line})"
  | _ => none

/-! ## Members -/

/-- The accepted annotations of a member, and its first accepted occurrence. -/
structure Group where
  target : Target
  first : Occurrence
  annotations : List Annotation

/-- Adds an annotation to the group of its member; groups are in the order of the members. -/
def addToGroups (o : Occurrence) (a : Annotation) : List Group → List Group
  | [] => [⟨o.target, o, [a]⟩]
  | g :: groups =>
    match o.target.compare g.target with
    | .lt => ⟨o.target, o, [a]⟩ :: g :: groups
    | .eq => { g with annotations := g.annotations ++ [a] } :: groups
    | .gt => g :: addToGroups o a groups

/-- The groups of all accepted occurrences. -/
def groupsOf (verdicts : List (Occurrence × Verdict)) : List Group :=
  verdicts.foldl (fun groups (o, v) => match v with
    | .accepted a => addToGroups o a groups
    | _ => groups) []

/-- The bytes of the attribute of a group. -/
def Group.encoded (g : Group) : Except EncodeError (List UInt8) := memberBytes g.annotations

/-- An attribute ready to be written into a class file. -/
structure MemberAttribute where
  target : Target
  bytes : List UInt8
deriving DecidableEq, Inhabited

/-- The attribute of a group that can be written. -/
def Group.attribute? (g : Group) : Option MemberAttribute :=
  match g.encoded with
  | .ok bytes => some ⟨g.target, bytes⟩
  | .error _ => none

/-- The diagnostic of a group that cannot be written. -/
def Group.diagnostic? (g : Group) : Option Diagnostic :=
  match g.encoded with
  | .ok _ => none
  | .error e => some (.ofEncodeError g.first e)

/-! ## Reports -/

/-- The counts of a batch. -/
structure Summary where
  occurrences : Nat := 0
  accepted : Nat := 0
  failed : Nat := 0
  skipped : Nat := 0
  attributes : Nat := 0
deriving DecidableEq, Inhabited

/-- Whether some occurrence failed. -/
def Summary.hasFailures (s : Summary) : Bool := 0 < s.failed

/-- All that comes out of a batch. -/
structure Report where
  summary : Summary
  /-- Messages about skipped occurrences. -/
  infos : List String
  errors : List Diagnostic
  /-- Annotations in the order of acceptance. -/
  accepted : List Annotation
  /-- Attributes in the order of the members. -/
  attributes : List MemberAttribute

/-- How many annotations stand in groups that cannot be written. -/
def unwritable (groups : List Group) : Nat :=
  ((groups.filter fun g => g.diagnostic?.isSome).flatMap Group.annotations).length

/-- The report on judged occurrences. -/
def Report.ofVerdicts (verdicts : List (Occurrence × Verdict)) : Report :=
  let groups := groupsOf verdicts
  let accepted := verdicts.filterMap fun (_, v) => v.annotation?
  let failures := verdicts.filterMap fun (_, v) => v.diagnostic?
  let infos := verdicts.filterMap fun (o, v) => skipMessage? o v
  let attributes := groups.filterMap Group.attribute?
  { summary :=
      { occurrences := verdicts.length
        accepted := accepted.length - unwritable groups
        failed := failures.length + unwritable groups
        skipped := infos.length
        attributes := attributes.length }
    infos
    errors := failures ++ groups.filterMap Group.diagnostic?
    accepted
    attributes }

/-- Compiles a batch of occurrences. -/
def compileBatch (l : Loader) (occurrences : List Occurrence) : WithRegistry LexError Report := do
  let outcomes ← compileOccurrences l [] occurrences
  return .ofVerdicts (judge [] outcomes)

/-- The document of an attribute. -/
def MemberAttribute.toJson (a : MemberAttribute) : Json :=
  .object [("class_name", .string a.target.className), ("member", a.target.member.toJson),
    ("attribute", .string attributeName), ("bytes", .string (hexOfBytes a.bytes))]

end DocAnnotations
