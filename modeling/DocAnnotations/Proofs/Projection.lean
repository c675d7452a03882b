import DocAnnotations.Projection
import DocAnnotations.Proofs.Attribute.Origin
import Mathlib.Data.List.Find

/-!
# What is seen of annotations

The annotations of a member are found by name and read through their interfaces.

A name refers to the first annotation that has it as its qualified or its simple name.  Types in
packages are therefore found by their own names, but a type that is in no package can be hidden, by
an annotation in front whose simple name is the same.  **`findNamed?_typeName`** says when this is.

A reader checks the values of elements against the declared types, and an accessor takes values of
one kind.  These are two different tests; **`projections_sure`** says that they agree on whatever is
read, so that elements are never of a wrong type and interfaces never missing.  What can be missing
are values, and exactly those that neither the bytes nor the source of defaults have.
-/

namespace DocAnnotations

open Attribute Text
open Annotation (contains isNamed)

/-! ## Annotations by name -/

lemma splitLast?_ne_none {mark : Char} : ∀ {cs : List Char}, mark ∈ cs → splitLast? mark cs ≠ none
  | c :: cs, inside, h => by
      rw [splitLast?] at h
      cases found : splitLast? mark cs with
      | some parts => simp [found] at h
      | none =>
          have behind : mark ∉ cs := fun inside => splitLast?_ne_none inside found
          have here : mark = c := (List.mem_cons.1 inside).resolve_right behind
          simp [found, ← here] at h

/-- Behind the last mark of a text there is no mark. -/
lemma not_mem_of_splitLast? {mark : Char} : ∀ {cs front ds : List Char},
    splitLast? mark cs = some (front, ds) → mark ∉ ds
  | c :: cs, front, ds, h => by
      rw [splitLast?] at h
      cases found : splitLast? mark cs with
      | some parts =>
          rw [found] at h
          cases h
          exact not_mem_of_splitLast? found
      | none =>
          simp only [found, Option.ite_none_right_eq_some] at h
          obtain ⟨-, same⟩ := h
          cases same
          exact fun inside => splitLast?_ne_none inside found

/-- A simple name has no dot. -/
lemma not_mem_simpleName (name : String) : '.' ∉ (simpleName name).toList := by
  rw [simpleName]
  cases found : splitLast? '.' name.toList with
  | some parts => simpa using not_mem_of_splitLast? found
  | none => exact fun inside => splitLast?_ne_none inside found

variable {front back : List Annotation} {a : Annotation}

/-- Under the full name of an annotation, an earlier one with this as its simple name is found
first. -/
lemma findNamed?_append (apart : ∀ b ∈ front, b.typeName ≠ a.typeName) :
    findNamed? a.typeName (front ++ a :: back)
      = some ((front.find? fun b => b.simpleName == a.typeName).getD a) := by
  have simple : ∀ b ∈ front, b.isNamed a.typeName = (b.simpleName == a.typeName) := fun b hb => by
    simp [isNamed, apart b hb]
  have own : ((a :: back).find? fun b => b.isNamed a.typeName) = some a :=
    List.find?_cons_of_pos (by simp [isNamed])
  rw [findNamed?, List.find?_append, List.find?_congr simple, own]
  cases front.find? fun b => b.simpleName == a.typeName <;> rfl

/-- **Where annotations are found again.**  In a list of annotations of different types the own name
of an annotation refers to it exactly if none in front of it has this name as its simple name;
otherwise it refers to the first of those.  So every annotation whose type is in a package is found,
and one whose type is in none may be hidden by an annotation in front of it, though its own name is
the exact one. -/
theorem findNamed?_typeName (distinct : ((front ++ a :: back).map Annotation.typeName).Nodup) :
    let found := findNamed? a.typeName (front ++ a :: back)
    (found = some a ↔ ∀ b ∈ front, b.simpleName ≠ a.typeName) ∧
      (∀ b, (front.find? fun b => b.simpleName == a.typeName) = some b →
        found = some b ∧ b.typeName ≠ a.typeName) ∧
      ('.' ∈ a.typeName.toList → found = some a) := by
  intro found
  have apart : ∀ b ∈ front, b.typeName ≠ a.typeName := by
    rw [List.map_append, List.nodup_append] at distinct
    exact fun b hb => distinct.2.2 _ (List.mem_map_of_mem hb) _ (by simp)
  have answer : found = some ((front.find? fun b => b.simpleName == a.typeName).getD a) :=
    findNamed?_append apart
  have alone : (∀ b ∈ front, b.simpleName ≠ a.typeName) → found = some a := fun none => by
    rw [answer, List.find?_eq_none.2 (by simpa using none), Option.getD_none]
  refine ⟨⟨fun same => ?_, alone⟩, fun b first => ?_, fun dotted => alone fun b _ same => ?_⟩
  · cases first : front.find? fun b => b.simpleName == a.typeName with
    | none => simpa using List.find?_eq_none.1 first
    | some b =>
        rw [answer, first, Option.getD_some, Option.some.injEq] at same
        exact absurd (congrArg Annotation.typeName same) (apart b (List.mem_of_find?_eq_some first))
  · exact ⟨by rw [answer, first, Option.getD_some], apart b (List.mem_of_find?_eq_some first)⟩
  · rw [← same] at dotted
    exact not_mem_simpleName b.typeName dotted

/-- An annotation of a type in a package hides one whose type has the same simple name and is in no
package. -/
theorem findNamed?_typeName_hidden :
    let packaged : Annotation := .empty "p.A"
    let own : Annotation := .empty "A"
    ([packaged, own].map Annotation.typeName).Nodup ∧
      findNamed? own.typeName [packaged, own] = some packaged ∧
      findNamed? own.typeName [own, packaged] = some own ∧
      findNamed? packaged.typeName [own, packaged] = some packaged := by
  intro packaged own
  have first : (([packaged] ++ own :: []).map Annotation.typeName).Nodup := by decide
  have last : (([] ++ own :: [packaged]).map Annotation.typeName).Nodup := by decide
  have behind : (([own] ++ packaged :: []).map Annotation.typeName).Nodup := by decide
  have hides : packaged.simpleName = own.typeName := by decide +kernel
  refine ⟨first, ?_, ?_, ?_⟩
  · exact ((findNamed?_typeName first).2.1 packaged (by simp [hides])).1
  · exact (findNamed?_typeName last).1.2 nofun
  · exact (findNamed?_typeName behind).2.2 (by decide)

/-! ## Accessors -/

namespace Accessor

lemma mapM_eq_some_iff {α : Type} {f : Value → Option α} {g : α → Value}
    (exact : ∀ v x, f v = some x ↔ v = g x) :
    ∀ (vs : List Value) (xs : List α), vs.mapM f = some xs ↔ vs = xs.map g
  | [], xs => by cases xs <;> simp
  | v :: vs, xs => by
      simp only [List.mapM_cons, Option.bind_eq_bind, Option.bind_eq_some_iff, exact,
        mapM_eq_some_iff exact vs]
      cases xs <;> simp

/-- An accessor reads exactly the values that it can be turned back into. -/
lemma read?_eq_some_iff (a : Accessor) :
    ∀ (v : Value) (x : a.Carrier), a.read? v = some x ↔ v = a.toValue x := by
  induction a with
  | list item ih =>
      intro v xs
      cases v with
      | array vs => simpa [read?, toValue] using mapM_eq_some_iff ih vs xs
      | _ => simp [read?, toValue]
  | _ => intro v x; cases v <;> simp [read?, toValue]

lemma exists_of_allConform {type : ElementType} {α : Type} {f : Value → Option α}
    (reads : ∀ v, v.conforms type = true → ∃ x, f v = some x) :
    ∀ vs : List Value, allConform vs type = true → ∃ xs, vs.mapM f = some xs
  | [], _ => ⟨[], rfl⟩
  | v :: vs, conform => by
      rw [allConform, Bool.and_eq_true] at conform
      obtain ⟨x, first⟩ := reads v conform.1
      obtain ⟨xs, rest⟩ := exists_of_allConform reads vs conform.2
      exact ⟨x :: xs, by simp [List.mapM_cons, first, rest]⟩

/-- The accessor that suits a type reads all values of the type. -/
lemma exists_read? (type : ElementType) :
    ∀ v : Value, v.conforms type = true → ∃ x, (ofElementType type).read? v = some x := by
  induction type with
  | array element ih =>
      intro v conforms
      cases v with
      | array vs =>
          rw [Value.conforms] at conforms
          exact exists_of_allConform ih vs conforms
      | _ => simp [Value.conforms] at conforms
  | _ =>
      intro v conforms
      cases v <;> first | exact ⟨_, rfl⟩ | cases conforms

end Accessor

/-! ## What projections answer -/

variable {p q : Projection} {element : String}

namespace Projection

/-- An element is returned if and only if the interface declares it and the annotation has it. -/
lemma get_eq_ok_iff {v : Value} : p.get element = .ok v ↔
    (p.interface.element? element).isSome = true ∧ p.annotation.get? element = some v := by
  rw [get]
  cases p.interface.element? element <;> cases p.annotation.get? element <;> simp

/-- What an accessor reads of an element is its value. -/
lemma getAs_eq_ok_iff {accessor : Accessor} {x : accessor.Carrier} :
    p.getAs accessor element = .ok x ↔ p.get element = .ok (accessor.toValue x) := by
  rw [getAs, bind_eq_ok_iff]
  constructor
  · rintro ⟨v, got, read⟩
    cases found : accessor.read? v with
    | none =>
        rw [found] at read
        cases read
    | some y =>
        rw [found] at read
        cases read
        rw [got, (accessor.read?_eq_some_iff v x).1 found]
  · intro got
    refine ⟨_, got, ?_⟩
    rw [(accessor.read?_eq_some_iff _ x).2 rfl]
    rfl

/-- A nested annotation is projected if and only if the element is there and the projection of its
value succeeds. -/
lemma nested_eq_ok_iff : p.nested element = .ok q ↔
    ∃ a, p.get element = .ok (.nested a) ∧ ofAnnotation p.types a = .ok q := by
  rw [nested, bind_eq_ok_iff]
  exact exists_congr fun a => and_congr_left' getAs_eq_ok_iff

section

variable {e : ProjectionError} (failed : p.get element = .error e)

include failed

lemma getAs_of_error (accessor : Accessor) : p.getAs accessor element = .error e := by
  rw [getAs, failed]
  rfl

lemma nested_of_error : p.nested element = .error e := by
  rw [nested, getAs_of_error failed]
  rfl

end

end Projection

/-! ## Decoded annotations -/

variable {l : Loader} {t u : Layout}

namespace Loader

/-- Neither the bytes of an annotation nor the source of defaults have a value for an element. -/
def Omits (l : Loader) (t : Layout) (interface element : String) : Prop :=
  ¬ t.Names element ∧ l.defaults interface element = none

/-- An element is read, unless it is omitted; then it is reported as missing. -/
def Answered (l : Loader) (t : Layout) (p : Projection) (element : String) {α : Type}
    (answer : Except ProjectionError α) : Prop :=
  (l.Omits t p.interface.name element ∧
      answer = .error (.missingValue p.interface.name element)) ∨
    ¬ l.Omits t p.interface.name element ∧ ∃ x, answer = .ok x

/-- All that can be asked of a projection, where its annotation is laid out as `t`: each declared
element, read by the accessor of its type, and the annotations among them, projected in turn. -/
structure Sure (l : Loader) (t : Layout) (p : Projection) : Prop where
  reads : ∀ e ∈ p.interface.elements,
    l.Answered t p e.name (p.getAs (.ofElementType e.type) e.name)
  projects : ∀ e ∈ p.interface.elements, ∀ name, e.type = .interface name →
    l.Answered t p e.name (p.nested e.name)
  laidOut : ∀ element q, p.nested element = .ok q →
    ∃ u, l.LaysOut t p.interface.name element u

/-- The projections that are reached from one by projecting the annotations inside it, each with
the layout of its annotation. -/
inductive Reaches (l : Loader) (t : Layout) (p : Projection) : Layout → Projection → Prop
  | start : Reaches l t p t p
  | nested {u v : Layout} {q r : Projection} {element : String} (reached : Reaches l t p u q)
    (laid : l.LaysOut u q.interface.name element v) (projected : q.nested element = .ok r) :
    Reaches l t p v r

/-- A projection of an annotation that was read from what is laid out as `t`. -/
structure Projects (l : Loader) (t : Layout) (p : Projection) : Prop where
  types : p.types = l.types
  found : l.types.annotation? p.annotation.typeName = some p.interface
  approved : (Value.nested p.annotation).Everywhere l.Approves
  origin : l.Origin t (.nested p.annotation)

/-- An approved annotation can be projected, and its projection goes with the layout that it was
read from. -/
lemma exists_projects {a : Annotation} (approved : (Value.nested a).Everywhere l.Approves)
    (origin : l.Origin t (.nested a)) :
    ∃ p, Projection.ofAnnotation l.types a = .ok p ∧ p.annotation = a ∧ l.Projects t p := by
  obtain ⟨i, found, -⟩ := approved.here
  refine ⟨⟨a, i, l.types⟩, ?_, rfl, rfl, found, approved, origin⟩
  rw [Projection.ofAnnotation, found]

namespace Projects

lemma interface_name (h : l.Projects t p) : p.interface.name = p.annotation.typeName :=
  l.types.name_of_annotation? h.found

/-- The values that an annotation has are those that are not omitted. -/
lemma contains_iff (h : l.Projects t p) {e : Element} (declared : e ∈ p.interface.elements) :
    p.annotation.contains e.name = true ↔ ¬ l.Omits t p.interface.name e.name := by
  cases h.origin with
  | plain plain => exact absurd rfl (plain _)
  | nested given named inside =>
      constructor
      · rintro has ⟨unnamed, none⟩
        obtain ⟨u, laid⟩ := given e.name has
        rw [← h.interface_name] at laid
        cases laid with
        | pair mem same => exact unnamed ⟨_, mem, same⟩
        | default _ _ stored =>
            rw [none] at stored
            cases stored
      · intro present
        by_cases names : t.Names e.name
        · exact named e.name names
        · obtain ⟨i, found, -, -, supplied⟩ := h.approved.here
          rw [h.found] at found
          cases found
          refine supplied e declared (Option.isSome_iff_ne_none.2 fun none => present ?_)
          exact ⟨names, none⟩

variable (once : l.types.DeclaresOnce)

include once

/-- A declared element is read unless it is omitted, and then its value is of its type. -/
lemma get_cases (h : l.Projects t p) {e : Element} (declared : e ∈ p.interface.elements) :
    (l.Omits t p.interface.name e.name ∧
        p.get e.name = .error (.missingValue p.interface.name e.name)) ∨
      (¬ l.Omits t p.interface.name e.name ∧
        ∃ v, p.get e.name = .ok v ∧ p.annotation.get? e.name = some v ∧
          v.conforms e.type = true) := by
  have known : p.interface.element? e.name = some e :=
    Interface.element?_of_mem (once _ (TypeLookup.knows_of_annotation? h.found)) declared
  have contains := h.contains_iff declared
  unfold Annotation.contains at contains
  rw [Projection.get, known, if_neg (by simp)]
  cases found : p.annotation.get? e.name with
  | none =>
      rw [found] at contains
      exact .inl ⟨by simpa using contains, rfl⟩
  | some v =>
      rw [found] at contains
      obtain ⟨i, found', -, declares, -⟩ := h.approved.here
      rw [h.found] at found'
      cases found'
      obtain ⟨e', known', conforms⟩ := declares _ (mem_of_lookupElement found)
      rw [known] at known'
      cases known'
      exact .inr ⟨contains.1 rfl, v, rfl, rfl, conforms⟩

omit once

/-- An annotation inside is projected in turn, and has come from where it is laid out. -/
lemma nested (h : l.Projects t p) {element : String} (projected : p.nested element = .ok q)
    (laid : l.LaysOut t p.interface.name element u) : l.Projects u q := by
  obtain ⟨a, got, same⟩ := Projection.nested_eq_ok_iff.1 projected
  have found : p.annotation.get? element = some (.nested a) := (Projection.get_eq_ok_iff.1 got).2
  have approved : (Value.nested a).Everywhere l.Approves :=
    (everywhere_nested.1 h.approved).2 _ (mem_of_lookupElement found)
  have origin : l.Origin u (.nested a) := by
    rw [h.interface_name] at laid
    cases h.origin with
    | plain plain => exact absurd rfl (plain _)
    | nested _ _ inside => exact inside element _ u found laid
  obtain ⟨q', same', -, projects⟩ := exists_projects approved origin
  rw [← h.types, same] at same'
  cases same'
  exact projects

include once

/-- Such a projection answers whatever it is asked. -/
lemma sure (h : l.Projects t p) : l.Sure t p where
  reads e declared := by
    rcases h.get_cases once declared with ⟨omits, failed⟩ | ⟨present, v, got, -, conforms⟩
    · exact .inl ⟨omits, Projection.getAs_of_error failed _⟩
    · obtain ⟨x, read⟩ := Accessor.exists_read? e.type v conforms
      rw [Accessor.read?_eq_some_iff] at read
      exact .inr ⟨present, x, Projection.getAs_eq_ok_iff.2 (read ▸ got)⟩
  projects e declared name type := by
    rcases h.get_cases once declared with ⟨omits, failed⟩ | ⟨present, v, got, found, conforms⟩
    · exact .inl ⟨omits, Projection.nested_of_error failed⟩
    · rw [type] at conforms
      cases v with
      | nested a =>
          have approved : (Value.nested a).Everywhere l.Approves :=
            (everywhere_nested.1 h.approved).2 _ (mem_of_lookupElement found)
          obtain ⟨i, known, -⟩ := approved.here
          refine .inr ⟨present, ⟨a, i, p.types⟩, Projection.nested_eq_ok_iff.2 ⟨a, got, ?_⟩⟩
          rw [Projection.ofAnnotation, h.types, known]
      | _ => simp [Value.conforms] at conforms
  laidOut element q projected := by
    obtain ⟨a, got, -⟩ := Projection.nested_eq_ok_iff.1 projected
    have found := (Projection.get_eq_ok_iff.1 got).2
    rw [h.interface_name]
    cases h.origin with
    | plain plain => exact absurd rfl (plain _)
    | nested given named inside =>
        exact given element (by rw [contains, found, Option.isSome_some])

/-- Whatever is reached from a projection through nested ones is as sure as the projection. -/
lemma sure_of_reaches (h : l.Projects t p) (reached : l.Reaches t p u q) : l.Sure u q := by
  have projects : l.Projects u q := by
    clear once
    induction reached with
    | start => exact h
    | nested _ laid projected ih => exact ih.nested projected laid
  exact projects.sure once

end Projects

end Loader

/-- What is read from any bytes is approved, whatever modules have used the registry. -/
lemma Modules.approved_of_decodeMember {M : Modules} {token : ModuleToken}
    (once : (M.loader token).types.DeclaresOnce)
    (finds : (M.loader token).types.FindsLoadable) {steps : List (ModuleToken × Operation)}
    {bytes : List UInt8} {annotations : List Annotation} {r' : Registry}
    (decoded : (M.loader token).decodeMember bytes (M.registryAfter steps)
      = .ok annotations r') :
    ∀ a ∈ annotations, (Value.nested a).Everywhere (M.loader token).Approves := by
  have answers := Loader.answersGood_approves once
  have keeps : (M.loader token).Keeps (M.loader token).Approves :=
    ⟨answers, finds, assembled_approves _⟩
  have holds : (M.loader token).Holds (M.loader token).Approves (M.registryAfter steps) := by
    refine registryAfter_induction Loader.holds_empty (fun fewer holds i a known found => ?_)
      (fun op _ holds => holds_after keeps (fun _ h => h) holds op) steps
    rw [M.token_loader] at found
    exact holds i a known (by rw [M.token_loader]; exact fewer i.name a found)
  have accepts := (M.loader token).accepts_approves fun _ _ => True
  exact ((Loader.ensures_decodeMember accepts answers.answersWith bytes).ok holds decoded).1

/-- **Decoded annotations answer without surprises.**  Over the types of a loaded index, whatever
modules have used the registry and whatever source of defaults there is, the bytes that are read as
annotations are those of some layouts, and then each annotation can be projected.  Each declared
element of it is read by the accessor of its type, and as a projection if it is an annotation,
except those that the bytes of the annotation omit and the source of defaults does not have, which
are reported as missing; nothing else is reported.  The same holds of the projections of the
annotations inside, to any depth, where the bytes are those of the pair or of the default that the
annotation was read from. -/
theorem projections_sure {schema : Schema} {index : TypeIndex}
    (loaded : TypeIndex.ofSchema schema = .ok index) (M : Modules) (token : ModuleToken)
    (visible : (M.loader token).types = index.lookup) (steps : List (ModuleToken × Operation))
    {bytes : List UInt8} {annotations : List Annotation} {r' : Registry}
    (decoded : (M.loader token).decodeMember bytes (M.registryAfter steps)
      = .ok annotations r') :
    let l := M.loader token
    (∃ items, IsLaidOut bytes items) ∧ ∀ items, IsLaidOut bytes items →
      List.Forall₂ (fun t a => ∃ p, Projection.ofAnnotation l.types a = .ok p ∧
        ∀ u q, l.Reaches t p u q → l.Sure u q) items annotations := by
  intro l
  have once : l.types.DeclaresOnce := visible ▸ TypeIndex.declaresOnce loaded
  obtain ⟨items, few, fits, same⟩ := exists_layouts_of_decodeMember decoded
  refine ⟨⟨items, few, fits, same⟩, fun items laid => ?_⟩
  have origins := Modules.origin_of_decodeMember laid decoded
  have approved : ∀ a ∈ annotations, (Value.nested a).Everywhere l.Approves :=
    Modules.approved_of_decodeMember once (visible ▸ index.findsLoadable) decoded
  have both := (List.forall₂_and_left _ _).2 ⟨approved, origins.flip⟩
  refine (both.imp fun a t ⟨approved, origin⟩ => ?_).flip
  obtain ⟨p, projected, -, projects⟩ := Loader.exists_projects approved origin
  exact ⟨p, projected, fun u q reached => projects.sure_of_reaches once reached⟩

/-- A shape at a point, read after another module used the registry: the coordinate of the point
and the keys of the shape come from defaults, and its mark is missing. -/
theorem projections_sure_shape :
    let l := sampleModules.loader ⟨1⟩
    let r := sampleModules.registryAfter
      [(⟨0⟩, .compileLiteral "@Outer"), (⟨1⟩, .defaultsFor "p.Point")]
    let bytes := [0, 1, 64, 0, 7, 112, 46, 83, 104, 97, 112, 101, 0, 1, 0, 2, 97, 116, 64, 0, 7,
      112, 46, 80, 111, 105, 110, 116, 0, 0]
    ∃ a r', l.decodeMember bytes r = .ok [a] r' ∧ a.contains "keys" = true ∧
      a.contains "mark" = false ∧ ∃ t, IsLaidOut bytes [t] ∧
        ∃ p, Projection.ofAnnotation l.types a = .ok p ∧
          ∀ u q, l.Reaches t p u q → l.Sure u q := by
  intro l r bytes
  have read : (returned (l.decodeMember bytes r)).any (fun annotations => annotations.length == 1 &&
      annotations.all fun a => a.contains "keys" && !a.contains "mark") = true := by
    decide +kernel
  obtain ⟨annotations, decoded, has⟩ := (Option.any_eq_true _ _).1 read
  obtain ⟨r', ran⟩ := exists_of_returned decoded
  obtain ⟨⟨items, laid⟩, sure⟩ :=
    projections_sure ofSchema_sampleSchema sampleModules ⟨1⟩ rfl _ ran
  simp only [Bool.and_eq_true, beq_iff_eq, List.length_eq_one_iff] at has
  obtain ⟨⟨a, rfl⟩, has⟩ := has
  rw [List.all_cons, List.all_nil, Bool.and_true, Bool.and_eq_true, Bool.not_eq_true'] at has
  cases sure items laid with
  | cons first rest =>
      cases rest
      exact ⟨a, r', ran, has.1, has.2, _, laid, first⟩

end DocAnnotations
