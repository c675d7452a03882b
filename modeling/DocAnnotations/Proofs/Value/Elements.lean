import DocAnnotations.Value
import DocAnnotations.TypeLookup
import Mathlib.Data.List.Nodup
import Mathlib.Data.String.Basic
import Mathlib.Data.List.Perm.Subperm

/-!
# Elements by name

**Lookup and insertion.**  `Annotation.get?` is the view of the elements of an annotation: each
operation on elements has one equation through it.

**Order.**  `Annotation.Ordered` is what the operations keep, names in strictly rising order; with
it an annotation has as many elements as names, and two annotations with the same lookups are the
same (`Ordered.ext`).

**Counting.**  **`perm_of_length_le`** is the counting argument behind the completion of
annotations: one whose elements are all declared, and which has at least as many elements as were
declared, has just these.
-/

namespace DocAnnotations

/-! ## Lookup and insertion -/

/-- Under the inserted name stands the inserted value, and under others what stood there. -/
lemma lookupElement_insertElement (name other : String) (value : Value) :
    ∀ es : List (String × Value), lookupElement other (insertElement name value es)
      = if name = other then some value else lookupElement other es
  | [] => by simp [insertElement, lookupElement]
  | (n, v) :: es => by
      have ih := lookupElement_insertElement name other value es
      by_cases hlt : name < n
      · simp [insertElement, lookupElement, hlt]
      · by_cases heq : name = n
        · subst heq
          by_cases h : name = other <;> simp [insertElement, lookupElement, h]
        · by_cases h : n = other
          · subst h
            simp [insertElement, lookupElement, hlt, heq]
          · simp [insertElement, lookupElement, hlt, heq, h, ih]

lemma mem_insertElement {name : String} {value : Value} {p : String × Value} :
    ∀ {es : List (String × Value)}, p ∈ insertElement name value es → p = (name, value) ∨ p ∈ es
  | [], h => by simpa [insertElement] using h
  | (n, v) :: es, h => by
      rw [insertElement] at h
      split_ifs at h with hlt heq
      · simpa using h
      · rcases List.mem_cons.1 h with h | h
        · exact Or.inl h
        · exact Or.inr (List.mem_cons_of_mem _ h)
      · rcases List.mem_cons.1 h with h | h
        · exact Or.inr (h ▸ List.mem_cons_self)
        · rcases mem_insertElement h with h | h
          · exact Or.inl h
          · exact Or.inr (List.mem_cons_of_mem _ h)

/-- A name behind all others goes to the end. -/
lemma insertElement_of_forall_lt {name : String} {value : Value} :
    ∀ {es : List (String × Value)}, (∀ p ∈ es, p.1 < name) →
      insertElement name value es = es ++ [(name, value)]
  | [], _ => rfl
  | (n, v) :: es, h => by
      obtain ⟨hn, hes⟩ := List.forall_mem_cons.1 h
      rw [insertElement, if_neg (not_lt_of_gt hn), if_neg (ne_of_gt hn),
        insertElement_of_forall_lt hes, List.cons_append]

/-- Different names may be set in either order. -/
lemma insertElement_comm {name other : String} {v w : Value} (apart : name ≠ other) :
    ∀ es : List (String × Value),
      insertElement name v (insertElement other w es)
        = insertElement other w (insertElement name v es)
  | [] => by grind [insertElement]
  | (n, u) :: es => by
      have ih := insertElement_comm (v := v) (w := w) apart es
      grind [insertElement]

/-- A new name makes room for itself. -/
lemma length_insertElement {name : String} {value : Value} :
    ∀ {es : List (String × Value)}, name ∉ es.map Prod.fst →
      (insertElement name value es).length = es.length + 1
  | [], _ => rfl
  | (n, v) :: es, h => by
      rw [List.map_cons, List.mem_cons, not_or] at h
      rw [insertElement, if_neg h.1]
      split_ifs
      · rfl
      · rw [List.length_cons, List.length_cons, length_insertElement h.2]

lemma mem_of_lookupElement {name : String} {value : Value} :
    ∀ {es : List (String × Value)}, lookupElement name es = some value → (name, value) ∈ es
  | (n, v) :: es, h => by
      rw [lookupElement] at h
      split_ifs at h with hn
      · cases h
        exact hn ▸ List.mem_cons_self
      · exact List.mem_cons_of_mem _ (mem_of_lookupElement h)

/-- Where no name stands twice, every element is found under its name. -/
lemma lookupElement_of_mem {name : String} {value : Value} :
    ∀ {es : List (String × Value)}, (es.map Prod.fst).Nodup → (name, value) ∈ es →
      lookupElement name es = some value
  | (n, v) :: es, nodup, h => by
      rw [List.map_cons, List.nodup_cons] at nodup
      rw [lookupElement]
      rcases List.mem_cons.1 h with same | h
      · cases same
        exact if_pos rfl
      · have apart : n ≠ name := by
          rintro rfl
          exact nodup.1 (List.mem_map.2 ⟨_, h, rfl⟩)
        rw [if_neg apart, lookupElement_of_mem nodup.2 h]

/-- Something is found under a name if and only if it is the name of an element. -/
lemma isSome_lookupElement (name : String) :
    ∀ es : List (String × Value), (lookupElement name es).isSome ↔ name ∈ es.map Prod.fst
  | [] => by simp [lookupElement]
  | (n, v) :: es => by
      by_cases h : n = name
      · simp [lookupElement, h]
      · simp [lookupElement, h, Ne.symm h, isSome_lookupElement name es]

/-! ## Declared elements -/

/-- What is found under a key that occurs once is the item of the key. -/
lemma find?_of_nodup {α : Type} {key : α → String} {x : α} : ∀ {xs : List α},
    (xs.map key).Nodup → x ∈ xs → (xs.find? fun y => key y == key x) = some x
  | y :: ys, nodup, h => by
      rw [List.map_cons, List.nodup_cons] at nodup
      rcases List.mem_cons.1 h with rfl | h
      · simp
      · have apart : key y ≠ key x := fun same => nodup.1 (same ▸ List.mem_map_of_mem h)
        rw [List.find?_cons_of_neg (by simpa using apart)]
        exact find?_of_nodup nodup.2 h

/-- The element found under a name that is declared once is the one that was declared. -/
lemma Interface.element?_of_mem {i : Interface} (nodup : (i.elements.map Element.name).Nodup)
    {e : Element} (h : e ∈ i.elements) : i.element? e.name = some e :=
  find?_of_nodup nodup h

lemma Interface.mem_of_element? {i : Interface} {name : String} {e : Element}
    (h : i.element? name = some e) : e ∈ i.elements ∧ e.name = name :=
  ⟨List.mem_of_find?_eq_some h, by simpa using List.find?_some h⟩

namespace Annotation

variable {a d : Annotation} {name other : String} {value : Value}

@[simp] lemma typeName_empty (typeName : String) : (empty typeName).typeName = typeName := rfl

@[simp] lemma elements_empty (typeName : String) : (empty typeName).elements = [] := rfl

@[simp] lemma get?_empty (typeName name : String) : (empty typeName).get? name = none := rfl

@[simp] lemma typeName_insert : (a.insert name value).typeName = a.typeName := rfl

/-- The inserted value replaces what stood under its name. -/
lemma get?_insert :
    (a.insert name value).get? other = if name = other then some value else a.get? other :=
  lookupElement_insertElement name other value a.elements

/-- Values under different names can be inserted in either order. -/
lemma insert_comm (apart : name ≠ other) (v w : Value) :
    (a.insert other w).insert name v = (a.insert name v).insert other w := by
  simp only [insert, insertElement_comm apart]

lemma contains_iff : a.contains name = true ↔ name ∈ a.elements.map Prod.fst :=
  isSome_lookupElement name a.elements

lemma contains_insert :
    (a.insert name value).contains other = true ↔ name = other ∨ a.contains other = true := by
  rw [contains, get?_insert]
  by_cases h : name = other <;> simp [h, contains]

lemma mem_insert {p : String × Value} (h : p ∈ (a.insert name value).elements) :
    p = (name, value) ∨ p ∈ a.elements :=
  mem_insertElement h

@[simp] lemma typeName_insertNew : (a.insertNew name value).typeName = a.typeName := by
  unfold insertNew
  split <;> rfl

/-- A value is inserted as new only where nothing stands under its name. -/
lemma get?_insertNew :
    (a.insertNew name value).get? other
      = (a.get? other).or (if name = other then some value else none) := by
  unfold insertNew contains
  cases h : a.get? name with
  | none =>
      by_cases hn : name = other
      · subst hn
        simp [get?_insert, h]
      · simp [get?_insert, hn]
  | some v =>
      by_cases hn : name = other
      · subst hn
        simp [h]
      · simp [hn]

lemma mem_insertNew {p : String × Value} (h : p ∈ (a.insertNew name value).elements) :
    p = (name, value) ∨ p ∈ a.elements := by
  unfold insertNew at h
  split at h
  · exact Or.inr h
  · exact mem_insert h

lemma size_insert (new : ¬ a.contains name = true) : (a.insert name value).size = a.size + 1 :=
  length_insertElement fun h => new (contains_iff.2 h)

/-! ## Order -/

/-- The names of the elements rise strictly. -/
def Ordered (a : Annotation) : Prop := a.elements.Pairwise fun p q => p.1 < q.1

lemma ordered_empty (typeName : String) : (empty typeName).Ordered := List.Pairwise.nil

lemma Ordered.nodup (h : a.Ordered) : (a.elements.map Prod.fst).Nodup :=
  List.pairwise_map.2 (h.imp fun hlt => ne_of_lt hlt)

/-- An annotation in order is known by its name and by what is found under each element name. -/
lemma Ordered.ext (ha : a.Ordered) (hd : d.Ordered) (typeName : a.typeName = d.typeName)
    (same : ∀ n, a.get? n = d.get? n) : a = d := by
  have mem : ∀ p, p ∈ a.elements ↔ p ∈ d.elements := fun p =>
    ⟨fun hp => mem_of_lookupElement ((same p.1).symm.trans (lookupElement_of_mem ha.nodup hp)),
      fun hp => mem_of_lookupElement ((same p.1).trans (lookupElement_of_mem hd.nodup hp))⟩
  have perm : a.elements.Perm d.elements :=
    (List.perm_ext_iff_of_nodup (ha.nodup.of_map _) (hd.nodup.of_map _)).2 mem
  have elements : a.elements = d.elements :=
    perm.eq_of_pairwise (fun _ _ _ _ below above => absurd above (lt_asymm below)) ha hd
  cases a
  cases d
  exact congrArg₂ Annotation.mk typeName elements

/-- Inserting an element in its place keeps the names in strictly rising order. -/
lemma pairwise_insertElement : ∀ {es : List (String × Value)},
    es.Pairwise (fun p q => p.1 < q.1) →
      (insertElement name value es).Pairwise fun p q => p.1 < q.1
  | [], _ => List.pairwise_singleton _ _
  | (n, v) :: es, h => by
      obtain ⟨first, rest⟩ := List.pairwise_cons.1 h
      rw [insertElement]
      split_ifs with hlt heq
      · refine List.pairwise_cons.2 ⟨List.forall_mem_cons.2 ⟨hlt, ?_⟩, h⟩
        exact fun p hp => lt_trans hlt (first p hp)
      · exact List.pairwise_cons.2 ⟨heq ▸ first, rest⟩
      · refine List.pairwise_cons.2 ⟨fun p hp => ?_, pairwise_insertElement rest⟩
        rcases mem_insertElement hp with rfl | hp
        · exact lt_of_le_of_ne (not_lt.1 hlt) (Ne.symm heq)
        · exact first p hp

lemma Ordered.insert (h : a.Ordered) : (a.insert name value).Ordered := pairwise_insertElement h

lemma Ordered.insertNew (h : a.Ordered) : (a.insertNew name value).Ordered := by
  unfold Annotation.insertNew
  split
  · exact h
  · exact h.insert

/-- Where elements in order stand behind those of an annotation, the first of them is new, goes to
the end, and leaves the others behind it; so whatever its value becomes. -/
lemma insert_behind (typeName : String) {own es : List (String × Value)} {v : Value}
    (behind : ∀ p ∈ own, ∀ q ∈ (name, v) :: es, p.1 < q.1)
    (ordered : ((name, v) :: es).Pairwise fun p q => p.1 < q.1) (value : Value) :
    ¬ contains ⟨typeName, own⟩ name = true ∧
      insert ⟨typeName, own⟩ name value = ⟨typeName, own ++ [(name, value)]⟩ ∧
      ∀ p ∈ own ++ [(name, value)], ∀ q ∈ es, p.1 < q.1 := by
  have last : ∀ p ∈ own, p.1 < name := fun p hp => behind p hp (name, v) List.mem_cons_self
  refine ⟨?_, ?_, fun p hp q hq => ?_⟩
  · rw [contains_iff, List.mem_map]
    rintro ⟨p, hp, same⟩
    exact absurd same (ne_of_lt (last p hp))
  · rw [insert, insertElement_of_forall_lt last]
  · rcases List.mem_append.1 hp with hp | hp
    · exact behind p hp q (List.mem_cons_of_mem _ hq)
    · rw [List.mem_singleton.1 hp]
      exact (List.pairwise_cons.1 ordered).1 q hq

/-! ## Counting -/

/-- An annotation that has only elements of a list of names, and at least as many as the list is
long, has each of the names once and no others; so the list has no name twice. -/
lemma perm_of_length_le (ordered : a.Ordered) {names : List String}
    (declared : ∀ p ∈ a.elements, p.1 ∈ names) (h : names.length ≤ a.size) :
    (a.elements.map Prod.fst).Perm names := by
  have sub : a.elements.map Prod.fst ⊆ names := by
    intro n hn
    obtain ⟨p, hp, rfl⟩ := List.mem_map.1 hn
    exact declared p hp
  exact (ordered.nodup.subperm sub).perm_of_length_le (by simpa [size] using h)

/-- An annotation that has all elements of a list of different names has at least as many as the
list is long. -/
lemma length_le_size {names : List String} (nodup : names.Nodup)
    (h : ∀ n ∈ names, a.contains n = true) : names.length ≤ a.size := by
  have sub : names ⊆ a.elements.map Prod.fst := fun n hn => contains_iff.1 (h n hn)
  simpa [size] using (nodup.subperm sub).length_le

end Annotation

end DocAnnotations
