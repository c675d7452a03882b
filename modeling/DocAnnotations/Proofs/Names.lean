import DocAnnotations.Proofs.Literal.Printed
import DocAnnotations.Proofs.Unchanged

/-!
# The names of a schema

Texts and descriptors both rely on names that have no characters of their own syntax.  A schema has
Java-style names when its types, elements and constants have (`Schema.JavaNames`).

**`javaNames_of_ofSchema`**: all that a loaded index finds is declared in its schema or of the
platform, so the lookup has such names too.

None of them has a character with a meaning in descriptors (`TypeLookup.JavaNames.plainNames`), and
each is found under its qualified name (`TypeIndex.findsQualified`), since an exact name is looked
for before a simple one.
-/

namespace DocAnnotations

variable {schema : Schema} {index : TypeIndex} {types : TypeLookup}

/-- All names are Java-style.  Interfaces and elements, whose names stand alone where they are
written, are not called like truth words; constants have no dot and are not called `class`. -/
structure Schema.JavaNames (schema : Schema) : Prop where
  types : ∀ name ∈ schema.typeNames, JavaName name
  interfaces : ∀ d ∈ schema.annotations, isTruthWord d.name.toList = false
  elements : ∀ d ∈ schema.annotations, ∀ e ∈ d.elements,
    JavaName e.name ∧ isTruthWord e.name.toList = false
  constants : ∀ e ∈ schema.enums, ∀ constant ∈ e.constants,
    JavaName constant ∧ '.' ∉ constant.toList ∧ constant ≠ "class"

/-- The names of the language have none of the marks of descriptors in them. -/
lemma JavaName.plainName {name : String} (h : JavaName name) : PlainName name := by
  have other : ∀ n ∈ ['/', ';', '(', ')'].map Char.toNat,
      isJavaNameChar (Char.ofNat n) = false := by
    decide +kernel
  intro c hc
  have same := other c.toNat (List.mem_map_of_mem hc)
  rw [c.ofNat_toNat] at same
  exact h.not_mem same

/-- Java-style names can be told from their descriptors. -/
lemma TypeLookup.JavaNames.plainNames (names : types.JavaNames) : types.PlainNames where
  classes known := (names.classes known).plainName
  enums found := (names.enums found).1.plainName

/-- **A loaded index has the names of its schema**, and those of the platform. -/
theorem javaNames_of_ofSchema (loaded : TypeIndex.ofSchema schema = .ok index)
    (names : schema.JavaNames) : index.lookup.JavaNames where
  classes known := by
    have platform : ∀ name ∈ platformClasses, JavaName name := by decide +kernel
    exact (TypeIndex.mem_of_isClass loaded known).elim (names.types _) (platform _)
  enums {name e} found := by
    obtain ⟨_, _, -, -, -, -, enums, -⟩ := TypeIndex.ofSchema_ok loaded
    have mem : e ∈ index.enums := List.mem_of_find?_eq_some found
    rw [enums, mem_sortedBy] at mem
    exact ⟨names.types _ (TypeIndex.mem_of_enumeration? loaded found), names.constants e mem⟩
  interfaces {name i} found := by
    have mem : i ∈ index.annotations := index.mem_of_annotation? found
    have named : i.name = name := index.name_of_annotation? found
    obtain ⟨-, d, hd, same⟩ := TypeIndex.declared_of_mem loaded mem
    have listed : d.name ∈ schema.typeNames :=
      List.mem_append_left _ (List.mem_append_left _ (List.mem_map_of_mem hd))
    rw [← named, same]
    refine ⟨⟨names.types _ listed, names.interfaces d hd⟩, fun e he => ?_⟩
    obtain ⟨⟨d', hd', -, e', he', same'⟩, -⟩ := TypeIndex.element_of_mem loaded mem he
    exact same' ▸ names.elements d' hd' e' he'

/-- What an index has is found by its qualified name. -/
lemma TypeIndex.findsQualified (index : TypeIndex) : index.lookup.FindsQualified where
  classes {name} known := if_pos known
  interfaces {name i} found := by
    have found : index.annotation? name = some i := found
    change index.findAnnotation? name = some i
    rw [TypeIndex.findAnnotation?, found]

end DocAnnotations
