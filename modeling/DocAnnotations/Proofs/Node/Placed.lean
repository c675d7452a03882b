import DocAnnotations.Proofs.Node.Canonical
import DocAnnotations.Proofs.Token.Slice

/-!
# Spans are faithful

A part of a tree is derived from tokens that stand next to each other in the text, and a mark or the
end of input follows them.

**Spans of tokens in a row.**  The span of the part goes from the first of these tokens to the last:
it `Frames` them.

**Parts of a derivation.**  Whatever a walk through a tree visits is derived from some of the tokens
of the whole, with others around them (`inductive_walk`).

**Reading a slice again.**  So the slice of the text there has the same tokens, and it is read as
the same part, moved to the front (`StandsIn.rereads`).

**`parse_placed`**: this is true of a whole annotation and of all values in it.  The spans of what
is directly below a node are within its span, in order and apart from each other, and a pair goes
from its name or its lone value to the end of its value.
-/

namespace DocAnnotations

open Grammar Text

variable {text : String} {s outer : Span} {t : Token} {ts us : List Token}

/-! ## Spans of tokens in a row -/

/-- Tokens that are not empty and do not overlap, in order. -/
structure InRow (ts : List Token) : Prop where
  some : ∀ t ∈ ts, t.span.start < t.span.stop
  apart : ts.Pairwise fun t u => t.span.stop ≤ u.span.start

/-- Some of the tokens are in a row if all are. -/
lemma InRow.sublist (h : InRow us) (sub : ts.Sublist us) : InRow ts where
  some t mem := h.some t (sub.subset mem)
  apart := h.apart.sublist sub

/-- A span that frames tokens in a row holds each of them. -/
lemma Span.Frames.bounds (h : s.Frames ts) (row : InRow ts) :
    ∀ t ∈ ts, s.start ≤ t.span.start ∧ t.span.stop ≤ s.stop := by
  obtain ⟨first, head, last, final, rfl⟩ := h
  intro t mem
  obtain ⟨us, rfl⟩ := List.head?_eq_some_iff.1 head
  obtain ⟨vs, whole⟩ := List.getLast?_eq_some_iff.1 final
  have pos := row.some
  constructor
  · rcases List.mem_cons.1 mem with rfl | later
    · exact le_rfl
    · have := (List.pairwise_cons.1 row.apart).1 t later
      have := pos first List.mem_cons_self
      dsimp only
      omega
  · rw [whole] at mem row
    rcases List.mem_append.1 mem with before | last'
    · have := (List.pairwise_append.1 row.apart).2.2 t before last List.mem_cons_self
      have := row.some last (by simp)
      dsimp only
      omega
    · rw [List.mem_singleton.1 last']

/-- Joining the span of the first token with that of the last ones frames all of them. -/
lemma Span.Frames.to (ts : List Token) (h : s.Frames us) (row : InRow (t :: ts ++ us)) :
    (t.span.to s).Frames (t :: ts ++ us) := by
  have bounds := h.bounds (row.sublist (List.sublist_append_right _ _))
  obtain ⟨first, head, last, final, rfl⟩ := h
  refine ⟨t, rfl, last, ?_, ?_⟩
  · rw [List.getLast?_append, Option.mem_def.1 final]
    rfl
  · have mem : first ∈ us := List.mem_of_mem_head? head
    have mem' : last ∈ us := List.mem_of_mem_getLast? final
    have before := (List.pairwise_append.1 row.apart).2.2 t List.mem_cons_self
    have pos := row.some t List.mem_cons_self
    have := before first mem
    have := before last mem'
    have := row.some last (by simp [mem'])
    rw [Span.to, Span.mk.injEq]
    constructor <;> dsimp only <;> omega

lemma Span.Frames.single (t : Token) : t.span.Frames [t] := ⟨t, rfl, t, rfl, rfl⟩

/-- **The span of a part goes from its first token to its last.** -/
theorem inductive_frames : Inductive (fun ts n _ => InRow ts → n.span.Frames ts)
    (fun ts p _ => InRow ts → p.span.Frames ts) fun ts a _ => InRow ts → a.span.Frames ts where
  literal _ _ := .single _
  emptyArray _ _ row := Span.Frames.to [] (.single _) row
  array _ _ _ row := (Span.Frames.single _).to _ row
  nested _ _ inner row :=
    Span.Frames.to [] (inner (row.sublist (List.sublist_cons_self _ _))) row
  pair {_ equals _ _ _} _ _ _ value row := Span.Frames.to [equals]
    (value (row.sublist (List.sublist_append_right [_, _] _))) row
  bare _ _ := .single _
  empty {_ opened _} _ _ _ row := Span.Frames.to [opened] (.single _) row
  pairs _ _ _ _ row := (Span.Frames.single _).to _ row
  lone _ _ _ _ _ row := (Span.Frames.single _).to _ row

/-! ## Spans of lists -/

/-- Spans within an outer one, in order and apart from each other. -/
def Span.Holds (outer : Span) (inner : List Span) : Prop :=
  (∀ s ∈ inner, outer.start ≤ s.start ∧ s.start < s.stop ∧ s.stop ≤ outer.stop) ∧
    inner.Pairwise fun s t => s.stop ≤ t.start

/-- A wider span holds whatever a span inside it holds. -/
lemma Span.Holds.mono {inner : List Span} (h : s.Holds inner) (start : outer.start ≤ s.start)
    (stop : s.stop ≤ outer.stop) : outer.Holds inner := by
  refine ⟨fun t mem => ?_, h.2⟩
  obtain ⟨first, pos, last⟩ := h.1 t mem
  exact ⟨start.trans first, pos, last.trans stop⟩

/-- A span from the first to the last of some tokens is not empty. -/
lemma Span.Frames.pos (h : s.Frames ts) (row : InRow ts) : s.start < s.stop := by
  have bounds := h.bounds row
  obtain ⟨first, head, -⟩ := h
  have mem := List.mem_of_mem_head? head
  have := row.some first mem
  have := bounds first mem
  omega

/-- What frames tokens holds what frames a part of them. -/
lemma Span.Frames.around (before after : List Token) (h : s.Frames ts)
    (whole : outer.Frames (before ++ ts ++ after)) (row : InRow (before ++ ts ++ after)) :
    outer.start ≤ s.start ∧ s.stop ≤ outer.stop := by
  have bounds := whole.bounds row
  obtain ⟨first, head, last, final, rfl⟩ := h
  exact ⟨(bounds first (by simp [List.mem_of_mem_head? head])).1,
    (bounds last (by simp [List.mem_of_mem_getLast? final])).2⟩

/-- What frames tokens ends before what frames later ones. -/
lemma Span.Frames.before (between : List Token) (h : s.Frames ts) (later : outer.Frames us)
    (row : InRow (ts ++ (between ++ us))) : s.stop ≤ outer.start := by
  obtain ⟨first, head, last, final, rfl⟩ := h
  obtain ⟨first', head', last', final', rfl⟩ := later
  exact (List.pairwise_append.1 row.apart).2.2 last (List.mem_of_mem_getLast? final) first'
    (List.mem_append_right _ (List.mem_of_mem_head? head'))

/-- From the start of one span to the end of a later one, all tokens of both are framed. -/
lemma Span.Frames.append (between : List Token) (h : s.Frames ts) (later : outer.Frames us) :
    Span.Frames ⟨s.start, outer.stop⟩ (ts ++ (between ++ us)) := by
  obtain ⟨first, head, -, -, rfl⟩ := h
  obtain ⟨-, -, last, final, rfl⟩ := later
  refine ⟨first, ?_, last, ?_, rfl⟩
  · rw [List.head?_append, Option.mem_def.1 head]
    rfl
  · rw [List.getLast?_append, List.getLast?_append, Option.mem_def.1 final]
    rfl

/-- Something frames the tokens of a list, and the spans of the items are within, in order and apart
from each other. -/
lemma exists_frames {α : Type} {Item : List Token → α → Nat → Prop} (spanOf : α → Span)
    {xs : List α} {depth : Nat}
    (frames : ∀ {ts x depth}, Item ts x depth → InRow ts → (spanOf x).Frames ts)
    (items : Separated Item ts xs depth) (row : InRow ts) :
    ∃ s : Span, s.Frames ts ∧ s.Holds (xs.map spanOf) := by
  induction items with
  | @last ts x _ item =>
      have framed := frames item row
      refine ⟨spanOf x, framed, ?_, List.pairwise_singleton _ _⟩
      exact List.forall_mem_singleton.2 ⟨le_rfl, framed.pos row, le_rfl⟩
  | @more ts us comma x xs _ _ item mark items ih =>
      have front := row.sublist (List.sublist_append_left _ _)
      have back := row.sublist
        ((List.sublist_cons_self _ _).trans (List.sublist_append_right ts _))
      have framed := frames item front
      obtain ⟨s, rest, inside, apart⟩ := ih back
      have order := framed.before [comma] rest row
      have pos := framed.pos front
      have pos' := rest.pos back
      refine ⟨_, framed.append [comma] rest, List.forall_mem_cons.2 ⟨?_, ?_⟩,
        List.pairwise_cons.2 ⟨fun t mem => order.trans (inside t mem).1, apart⟩⟩
      · exact ⟨le_rfl, pos, by dsimp only; omega⟩
      · intro t mem
        have := inside t mem
        exact ⟨by dsimp only; omega, this.2⟩

/-! ## Parts of a derivation -/

/-- Some of the tokens derive the part with no more levels, and a mark comes next, if anything
does. -/
def Derives {α : Type} (Item : List Token → α → Nat → Prop) (ts : List Token) (x : α)
    (depth : Nat) : Prop :=
  ∃ before part after deep, ts = before ++ part ++ after ∧ Item part x deep ∧ deep ≤ depth ∧
    ∀ t ∈ after.head?, t.kind.isMark = true

namespace Derives

variable {α β : Type} {Item : List Token → α → Nat → Prop} {Other : List Token → β → Nat → Prop}
  {x : α} {y : β} {depth deep : Nat}

lemma refl (item : Item ts x depth) : Derives Item ts x depth :=
  ⟨[], ts, [], depth, by simp, item, le_rfl, by simp⟩

/-- More tokens around do not matter if they go on with a mark. -/
lemma around (h : Derives Item ts x depth) (before after : List Token)
    (marked : ∀ t ∈ after.head?, t.kind.isMark = true) (le : depth ≤ deep) :
    Derives Item (before ++ ts ++ after) x deep := by
  obtain ⟨front, part, rest, inner, rfl, item, few, mark⟩ := h
  refine ⟨before ++ front, part, rest ++ after, inner, by simp only [List.append_assoc], item,
    few.trans le, ?_⟩
  cases rest with
  | nil => exact marked
  | cons u us => exact mark

/-- What is derived inside something derived is derived inside the whole. -/
lemma trans (h : Derives Other ts y depth)
    (inner : ∀ {ts deep}, Other ts y deep → Derives Item ts x deep) : Derives Item ts x depth := by
  obtain ⟨front, part, rest, deep, rfl, other, few, mark⟩ := h
  exact (inner other).around front rest mark few

/-- Every item of a list is derived from a part of its tokens. -/
lemma of_separated {xs : List α} (items : Separated Item ts xs depth) :
    ∀ x ∈ xs, Derives Item ts x depth := by
  induction items with
  | last item => exact List.forall_mem_singleton.2 (.refl item)
  | @more ts us comma x xs first later item mark items ih =>
      refine List.forall_mem_cons.2 ⟨?_, fun y mem => ?_⟩
      · exact (Derives.refl item).around [] (comma :: us)
          (fun t head => by cases Option.mem_some_iff.1 head; rw [mark]; rfl) (le_max_left _ _)
      · have inner : Derives Item (ts ++ [comma] ++ us ++ []) y (max first later) :=
          (ih y mem).around (ts ++ [comma]) [] (by simp) (le_max_right _ _)
        simpa using inner

/-- A part of what is enclosed in delimiters. -/
lemma enclosed {opened closed : Token} (h : Derives Item ts x depth)
    (right : closed.kind.isMark = true) (le : depth ≤ deep) :
    Derives Item (opened :: ts ++ [closed]) x deep :=
  h.around [opened] [closed] (fun t head => by cases Option.mem_some_iff.1 head; exact right) le

/-- A part of what comes behind a token. -/
lemma behind (h : Derives Item ts x depth) (t : Token) (le : depth ≤ deep) :
    Derives Item (t :: ts) x deep := by
  have inner : Derives Item ([t] ++ ts ++ []) x deep := h.around [t] [] (by simp) le
  simpa using inner

end Derives

/-- A walk through several values visits what the walks through each of them visit. -/
lemma mem_walkValues {p : Node × Nat} {k : Nat} {ns : List Node} :
    p ∈ walkValues k ns ↔ ∃ n ∈ ns, p ∈ n.walk k := by
  induction ns with
  | nil => simp [walkValues]
  | cons n ns ih => simp [walkValues, ih]

/-- A walk through several pairs visits what the walks through the value of each visit. -/
lemma mem_walkPairs {p : Node × Nat} {k : Nat} {ps : List PairNode} :
    p ∈ walkPairs k ps ↔ ∃ q ∈ ps, p ∈ q.value.walk k := by
  induction ps with
  | nil => simp [walkPairs]
  | cons q ps ih =>
      obtain ⟨name, value, span⟩ := q
      simp [walkPairs, ih]

/-- **Every value in a tree is derived from a part of the tokens of the tree.** -/
theorem inductive_walk : Inductive
    (fun ts n depth => ∀ k, ∀ p ∈ n.walk k, Derives IsValue ts p.1 depth)
    (fun ts q depth => ∀ k, ∀ p ∈ q.value.walk k, Derives IsValue ts p.1 depth)
    fun ts a depth => ∀ k, ∀ p ∈ walkPairs k a.pairs, Derives IsValue ts p.1 depth where
  literal raw k := by
    rw [Node.walk]
    exact List.forall_mem_singleton.2 (.refl (.literal raw))
  emptyArray left right k := by
    rw [Node.walk, walkValues]
    exact List.forall_mem_singleton.2 (.refl (.emptyArray left right))
  array left items right k := by
    rw [Node.walk]
    refine List.forall_mem_cons.2 ⟨.refl (.array left (items.imp And.left) right), fun p mem => ?_⟩
    obtain ⟨n, element, below⟩ := mem_walkValues.1 mem
    exact ((Derives.of_separated items n element).trans fun item => item.2 _ p below).enclosed
      (by rw [right]; rfl) (Nat.le_succ _)
  nested {_ _ a _} mark derived inner k := by
    obtain ⟨name, pairs, span⟩ := a
    rw [Node.walk]
    exact List.forall_mem_cons.2 ⟨.refl (.nested mark derived), fun p mem =>
      (inner _ p mem).behind _ (Nat.le_succ _)⟩
  pair _ _ _ value k p mem := ((value k p mem).behind _ le_rfl).behind _ le_rfl
  bare _ k := by simp [walkPairs]
  empty _ _ _ k := by simp [walkPairs]
  pairs _ _ items right k p mem := by
    obtain ⟨q, listed, below⟩ := mem_walkPairs.1 mem
    exact (((Derives.of_separated items q listed).trans fun item => item.2 _ p below).enclosed
      (by rw [right]; rfl) (Nat.le_succ _)).behind _ le_rfl
  lone _ _ _ value right k p mem := by
    obtain ⟨q, listed, below⟩ := mem_walkPairs.1 mem
    cases List.mem_singleton.1 listed
    exact ((value k p below).enclosed (by rw [right]; rfl) (Nat.le_succ _)).behind _ le_rfl

/-! ## Parts of a text -/

/-- The tokens stand in a row in a text, no word has a word behind it, and a mark comes next. -/
structure StandsIn (text : String) (ts : List Token) : Prop where
  cut : ∃ front u us, tokenize text = .ok (front ++ ts ++ u :: us) ∧ u.kind.isMark = true
  apart : WordsApart ts
  row : InRow ts

/-- Tokens that stand in a text stand there without those around them, up to a mark. -/
lemma StandsIn.of_part (before after : List Token) (h : StandsIn text (before ++ ts ++ after))
    (marked : ∀ t ∈ after.head?, t.kind.isMark = true) : StandsIn text ts where
  cut := by
    obtain ⟨front, u, us, cut, mark⟩ := h.cut
    cases after with
    | nil => exact ⟨front ++ before, u, us, by rw [cut]; simp, mark⟩
    | cons x xs => exact ⟨front ++ before, x, xs ++ u :: us, by rw [cut]; simp, marked x rfl⟩
  apart := h.apart.infix ⟨before, after, rfl⟩
  row := h.row.sublist (List.IsInfix.sublist ⟨before, after, rfl⟩)

/-- The tokens of a whole literal up to the end of input. -/
lemma standsIn_of_tokenize (front : List Token) {closing : Token} {a : AnnotationNode}
    {depth : Nat} (cut : tokenize text = .ok (front ++ ts ++ [closing]))
    (final : closing.kind = .endOfInput) (derived : IsAnnotation ts a depth) :
    StandsIn text ts where
  cut := ⟨front, closing, [], cut, by rw [final]; rfl⟩
  apart := (inductive_keepsApart.of_annotated derived _
    (.cons (by rw [final]; rfl) List.isChain_nil)).left_of_append
  row := by
    have row := (tokensFrom_iff_tiled.1 cut).rising
    obtain ⟨inner, -, closes⟩ := List.pairwise_append.1 row
    refine ⟨fun t mem => (closes t (by simp [mem]) closing (by simp)).1, ?_⟩
    exact ((List.pairwise_append.1 inner).2.1).imp And.right

/-! ### Reading a slice again -/

/-- The slice of the text at the span of the value is read as the value, moved to the front. -/
def Node.Rereads (text : String) (n : Node) : Prop :=
  ∃ part, n.span.slice? text = some part ∧
    Node.parse part = .ok (n.respan (Span.earlier n.span.start)) ∧
    (n.respan (Span.earlier n.span.start)).respan (Span.later n.span.start) = n

/-- The slice of the text at the span of the annotation is read as the annotation, moved to the
front. -/
def AnnotationNode.Rereads (text : String) (a : AnnotationNode) : Prop :=
  ∃ part, a.span.slice? text = some part ∧
    AnnotationNode.parse part = .ok (a.respan (Span.earlier a.span.start)) ∧
    (a.respan (Span.earlier a.span.start)).respan (Span.later a.span.start) = a

/-- Tokens that are moved to the front and back again are where they were. -/
lemma map_later_earlier (frames : s.Frames ts) (row : InRow ts) :
    (ts.map (Token.respan (Span.earlier s.start))).map (Token.respan (Span.later s.start))
      = ts := by
  rw [List.map_map]
  refine (List.map_congr_left fun t mem => ?_).trans (List.map_id ts)
  obtain ⟨kind, text, start, stop⟩ := t
  have first := (frames.bounds row _ mem).1
  have pos := row.some _ mem
  dsimp only at first pos
  simp only [Function.comp_apply, Token.respan, Span.earlier, Span.later, id, Token.mk.injEq,
    Span.mk.injEq, true_and]
  omega

/-- The tokens of a part of a text, moved to the front, are those of its slice. -/
lemma StandsIn.exists_slice (h : StandsIn text ts) (frames : s.Frames ts) (balanced : Balanced ts) :
    ∃ part closing, s.slice? text = some part ∧
      tokenize part = .ok (ts.map (Token.respan (Span.earlier s.start)) ++ [closing]) ∧
      closing.kind = .endOfInput := by
  obtain ⟨front, u, us, cut, mark⟩ := h.cut
  obtain ⟨part, slice, cut'⟩ := DocAnnotations.exists_slice cut frames h.apart
    (fun t mem => (balanced.kinds t mem).1) mark
  exact ⟨part, _, slice, cut', rfl⟩

/-- **A value in a text is read again from its slice.** -/
theorem StandsIn.rereads (h : StandsIn text ts) {n : Node} {depth : Nat}
    (derived : IsValue ts n depth) (few : depth ≤ maxNesting) : n.Rereads text := by
  have frames := inductive_frames.of_value derived h.row
  obtain ⟨part, closing, slice, cut, final⟩ := h.exists_slice frames (balanced_of_isValue derived)
  have moved := (inductive_respan (Span.earlier_to n.span.start)).of_value derived
  refine ⟨part, slice, node_parse_iff.2 ⟨_, depth, cut, .value moved final, few⟩, ?_⟩
  have back := (inductive_respan (Span.later_to n.span.start)).of_value moved
  rw [map_later_earlier frames h.row] at back
  exact isValue_unique back derived

/-- **An annotation in a text is read again from its slice.** -/
theorem StandsIn.rereads_annotated (h : StandsIn text ts) {a : AnnotationNode} {depth : Nat}
    (derived : IsAnnotation ts a depth) (few : depth ≤ maxNesting) : a.Rereads text := by
  have frames := inductive_frames.of_annotated derived h.row
  obtain ⟨part, closing, slice, cut, final⟩ :=
    h.exists_slice frames (balanced_of_annotated derived)
  have moved := (inductive_respan (Span.earlier_to a.span.start)).of_annotated derived
  refine ⟨part, slice, annotation_parse_iff.2 ⟨_, depth, cut, .plain moved final, few⟩, ?_⟩
  have back := (inductive_respan (Span.later_to a.span.start)).of_annotated moved
  rw [map_later_earlier frames h.row] at back
  exact annotated_unique back derived

/-! ### Pairs -/

/-- From the start of the pair up to its value there is its name and an equals sign, with blanks
around it. -/
def PairNode.NamedIn (text : String) (p : PairNode) : Prop :=
  ∃ gap gap' : List Char, (∀ c ∈ gap ++ gap', isBlank c = true) ∧
    Span.slice? ⟨p.span.start, p.value.span.start⟩ text
      = some (String.ofList (p.name.toList ++ gap ++ '=' :: gap'))

/-- A pair goes from its name, or from its lone value, to the end of its value. -/
structure PairNode.Placed (text : String) (p : PairNode) : Prop where
  start : (p.name = "value" ∧ p.span = p.value.span) ∨ p.NamedIn text
  stop : p.span.stop = p.value.span.stop
  holds : p.span.Holds [p.value.span]

/-- The pairs of an annotation and their values are within it, in order and apart from each
other. -/
structure AnnotationNode.Placed (text : String) (a : AnnotationNode) : Prop where
  pairs : a.span.Holds (a.pairs.map PairNode.span)
  values : a.span.Holds (a.pairs.map fun p => p.value.span)
  each : ∀ p ∈ a.pairs, p.Placed text

/-- What is directly below a value is within it, in order and apart from each other. -/
structure Node.Placed (text : String) (n : Node) : Prop where
  children : n.span.Holds (n.children.map Node.span)
  nested : ∀ a, n = .nested a → a.Placed text

/-- The text between a name, an equals sign and what follows. -/
lemma exists_gaps {name equals t : Token} {front after : List Token}
    (cut : tokenize text = .ok (front ++ name :: equals :: t :: after))
    (mark : equals.kind = .equals) : ∃ gap gap' : List Char, (∀ c ∈ gap ++ gap', isBlank c = true) ∧
      Span.slice? ⟨name.span.start, t.span.start⟩ text
        = some (String.ofList (name.text.toList ++ gap ++ '=' :: gap')) := by
  obtain ⟨before, behind, whole, tiled⟩ := (tokensFrom_iff_tiled.1 cut).behind (by simp)
  obtain ⟨gap₀, rest, rfl, -, -, start, stop, tiled⟩ := tiled.exists_of_cons
  obtain ⟨gap, rest', rfl, blank, scans, start', stop', tiled⟩ := tiled.exists_of_cons
  obtain ⟨gap', rest, rfl, blank', start''⟩ := tiled.exists_gap
  have sign : equals.text.toList = ['='] := by
    obtain ⟨c, listed, same⟩ := scans.exists_mark (by rw [mark]; rfl)
    rw [mark] at listed
    have only : ∀ m ∈ marks, m.2 = .equals → m.1 = '=' := by decide
    have found : c = '=' := only _ listed rfl
    rw [same, found]
  refine ⟨gap, gap', ?_, slice?_iff.2 ⟨before ++ gap₀, rest, ?_, ?_, ?_⟩⟩
  · intro c mem
    exact (List.mem_append.1 mem).elim (blank c) (blank' c)
  · rw [String.toList_ofList, whole, sign]
    simp only [List.append_assoc, List.cons_append, List.nil_append]
  · rw [byteCount_append, start, Nat.zero_add]
  · rw [sign] at stop'
    simp only [byteCount] at stop'
    simp only [String.toList_ofList, byteCount_append, byteCount]
    omega

lemma Span.Holds.single (pos : s.start < s.stop) (start : outer.start ≤ s.start)
    (stop : s.stop ≤ outer.stop) : outer.Holds [s] :=
  ⟨List.forall_mem_singleton.2 ⟨start, pos, stop⟩, List.pairwise_singleton _ _⟩

/-- A lone value is placed as the pair that it stands for, which has its span. -/
lemma placed_lone {v : Node} {depth : Nat} (row : InRow ts) (derived : IsValue ts v depth) :
    PairNode.Placed text ⟨"value", v, v.span⟩ where
  start := .inl ⟨rfl, rfl⟩
  stop := rfl
  holds := .single ((inductive_frames.of_value derived row).pos row) le_rfl le_rfl

/-- A pair is placed where its tokens stand, its name in front of its value. -/
lemma StandsIn.placed_pair (h : StandsIn text ts) {p : PairNode} {depth : Nat}
    (derived : IsPair ts p depth) : p.Placed text := by
  have frames := inductive_frames.of_pair derived h.row
  cases derived with
  | @pair name equals ts v _ named mark value =>
      have row := h.row.sublist (List.sublist_append_right [name, equals] ts)
      have inner := inductive_frames.of_value value row
      have pos := inner.pos row
      have bounds := inner.around [name, equals] []
        (by simpa using frames) (by simpa using h.row)
      obtain ⟨front, u, us, cut, -⟩ := h.cut
      obtain ⟨_, ⟨⟩, last, final, same⟩ := frames
      obtain ⟨t, head, last', final', same'⟩ := inner
      have ends : last = last' := by
        have whole : (name :: equals :: ts).getLast? = ts.getLast?.or _ :=
          List.getLast?_append (l := [name, equals])
        rw [Option.mem_def.1 final, Option.mem_def.1 final'] at whole
        exact Option.some.inj whole
      subst ends
      obtain ⟨vs, rfl⟩ := List.head?_eq_some_iff.1 head
      refine ⟨.inr ?_, ?_, .single pos bounds.1 bounds.2⟩
      · have gaps := exists_gaps
          (show tokenize text = .ok (front ++ name :: equals :: t :: (vs ++ u :: us)) by
            rw [cut]
            simp) mark
        rw [PairNode.NamedIn]
        rwa [same, same']
      · rw [same, same']

/-- The values of pairs are as far apart as the pairs. -/
lemma Span.Holds.values {ps : List PairNode} (h : outer.Holds (ps.map PairNode.span))
    (each : ∀ p ∈ ps, p.Placed text) : outer.Holds (ps.map fun p => p.value.span) := by
  obtain ⟨inside, apart⟩ := h
  have within : ∀ p ∈ ps, p.span.start ≤ p.value.span.start ∧
      p.value.span.start < p.value.span.stop ∧ p.value.span.stop ≤ p.span.stop :=
    fun p mem => (each p mem).holds.1 _ List.mem_cons_self
  rw [List.pairwise_map] at apart
  constructor
  · intro s mem
    obtain ⟨p, listed, rfl⟩ := List.mem_map.1 mem
    obtain ⟨start, pos, stop⟩ := within p listed
    obtain ⟨first, -, last⟩ := inside _ (List.mem_map_of_mem listed)
    exact ⟨first.trans start, pos, stop.trans last⟩
  · rw [List.pairwise_map]
    refine apart.imp_of_mem fun {p q} left right order => ?_
    exact (within p left).2.2.trans (order.trans (within q right).1)

/-- An annotation stays placed when its span takes in more of the text. -/
lemma AnnotationNode.Placed.mono {a : AnnotationNode} (h : a.Placed text)
    (start : s.start ≤ a.span.start) (stop : a.span.stop ≤ s.stop) :
    AnnotationNode.Placed text { a with span := s } where
  pairs := h.pairs.mono start stop
  values := h.values.mono start stop
  each := h.each

/-- What stands in parentheses stands within the annotation. -/
lemma placed_of_pairs {ps : List PairNode} {name : String} (before after : List Token)
    (frames : s.Frames ts) (holds : s.Holds (ps.map PairNode.span))
    (each : ∀ p ∈ ps, p.Placed text) (whole : outer.Frames (before ++ ts ++ after))
    (row : InRow (before ++ ts ++ after)) : AnnotationNode.Placed text ⟨name, ps, outer⟩ := by
  obtain ⟨start, stop⟩ := frames.around before after whole row
  have pairs := holds.mono start stop
  exact ⟨pairs, pairs.values each, each⟩

/-- An annotation is placed where its tokens stand, and so is everything inside it. -/
lemma StandsIn.placed_annotated (h : StandsIn text ts) {a : AnnotationNode} {depth : Nat}
    (derived : IsAnnotation ts a depth) : a.Placed text := by
  have frames := inductive_frames.of_annotated derived h.row
  cases derived with
  | bare => exact ⟨by simp [Span.Holds], by simp [Span.Holds], by simp⟩
  | empty => exact ⟨by simp [Span.Holds], by simp [Span.Holds], by simp⟩
  | @arguments name opened closed ts ps depth named left inner right =>
      have marked : ∀ t ∈ [closed].head?, t.kind.isMark = true := by
        rintro _ ⟨⟩
        rw [right]
        rfl
      have stands : StandsIn text ts := h.of_part [name, opened] [closed] marked
      cases inner with
      | pairs items =>
          obtain ⟨s, inside, holds⟩ := exists_frames PairNode.span inductive_frames.of_pair
            items stands.row
          refine placed_of_pairs [name, opened] [closed] inside holds (fun p mem => ?_)
            frames h.row
          obtain ⟨before, part, after, deep, rfl, derived, -, mark⟩ :=
            Derives.of_separated items p mem
          exact (stands.of_part before after mark).placed_pair derived
      | @lone _ v _ value =>
          have inside := inductive_frames.of_value value stands.row
          refine placed_of_pairs [name, opened] [closed] inside
            (.single (inside.pos stands.row) le_rfl le_rfl) ?_ frames h.row
          exact List.forall_mem_singleton.2 (placed_lone stands.row value)

/-- A value is placed where its tokens stand, and so is everything inside it. -/
lemma StandsIn.placed (h : StandsIn text ts) {n : Node} {depth : Nat}
    (derived : IsValue ts n depth) : n.Placed text := by
  have frames := inductive_frames.of_value derived h.row
  cases derived with
  | literal => exact ⟨by simp [Node.children, Span.Holds], nofun⟩
  | emptyArray => exact ⟨by simp [Node.children, Span.Holds], nofun⟩
  | @array opened closed ts ns _ left items right =>
      have row : InRow ts := h.row.sublist
        (List.IsInfix.sublist ⟨[opened], [closed], rfl⟩)
      obtain ⟨s, inside, holds⟩ := exists_frames Node.span inductive_frames.of_value items
        row
      obtain ⟨start, stop⟩ := inside.around [opened] [closed] frames h.row
      exact ⟨holds.mono start stop, nofun⟩
  | @nested sign ts a _ mark inner =>
      have row : InRow ts := h.row.sublist (List.sublist_cons_self _ _)
      have stands : StandsIn text ts :=
        StandsIn.of_part [sign] [] (by simpa using h) (by simp)
      have inside := inductive_frames.of_annotated inner row
      obtain ⟨start, stop⟩ := inside.around [sign] []
        (by simpa using frames) (by simpa using h.row)
      have placed := (stands.placed_annotated inner).mono start stop
      refine ⟨?_, fun b same => ?_⟩
      · have values := placed.values
        rw [Node.children, List.map_map]
        exact values
      · cases same
        exact placed

/-! ## The main statement -/

/-- **Spans are faithful.**  The slice of a text at the span of its annotation, or of any value in
it, is read as this part of the tree, moved to the front; and spans are nested, ordered and apart
as the parts of the tree are. -/
theorem parse_placed {a : AnnotationNode} (parsed : AnnotationNode.parse text = .ok a) :
    a.Rereads text ∧ a.Placed text ∧ ∀ p ∈ a.walk, p.1.Rereads text ∧ p.1.Placed text := by
  obtain ⟨tokens, depth, cut, root, few⟩ := annotation_parse_iff.1 parsed
  obtain ⟨ts, stands, derived⟩ : ∃ ts, StandsIn text ts ∧ IsAnnotation ts a depth := by
    cases root with
    | plain inner final => exact ⟨_, standsIn_of_tokenize [] cut final inner, inner⟩
    | @marked sign _ _ _ _ mark inner final =>
        exact ⟨_, standsIn_of_tokenize [sign] cut final inner, inner⟩
  refine ⟨stands.rereads_annotated derived few, stands.placed_annotated derived, fun p mem => ?_⟩
  obtain ⟨before, part, after, deep, rfl, value, fewer, mark⟩ :=
    inductive_walk.of_annotated derived 1 p mem
  have inner := stands.of_part before after mark
  exact ⟨inner.rereads value (fewer.trans few), inner.placed value⟩

/-- Values in an array and in annotations, with blanks and letters of more than one byte. -/
def sampleNesting : String := "\n@p.Ä( v = \x7b 'é', @B(-1L) \x7d,\tw=@C)"

/-- The annotation and the five values in it stand where they are written and are read again. -/
theorem parse_placed_sampleNesting : ∃ a, AnnotationNode.parse sampleNesting = .ok a ∧
    a.span = ⟨2, 36⟩ ∧ a.walk.map (fun p => (p.1.span.start, p.1.span.stop)) =
      [(12, 29), (14, 18), (20, 27), (23, 26), (33, 35)] ∧
    a.Rereads sampleNesting ∧ ∀ p ∈ a.walk, p.1.Rereads sampleNesting := by
  have spans : (AnnotationNode.parse sampleNesting).toOption.map (fun a =>
      (a.span, a.walk.map fun p => (p.1.span.start, p.1.span.stop))) =
      some (⟨2, 36⟩, [(12, 29), (14, 18), (20, 27), (23, 26), (33, 35)]) := by
    decide +kernel
  cases parsed : AnnotationNode.parse sampleNesting with
  | error e =>
      rw [parsed] at spans
      cases spans
  | ok a =>
      rw [parsed] at spans
      obtain ⟨rereads, -, below⟩ := parse_placed parsed
      have both := Option.some.inj spans
      exact ⟨a, rfl, congrArg Prod.fst both, congrArg Prod.snd both, rereads,
        fun p mem => (below p mem).1⟩

end DocAnnotations
