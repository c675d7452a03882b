import DocAnnotations.ElementType

/-!
# Types visible to a module

An annotation interface declares elements in an order; an enum type declares constants.

A `TypeLookup` answers which interfaces, enums and classes a module can see, by qualified name or as
a name is written in source.  It is a record of functions, so that the index of a schema is one of
many, and whatever is said of a lookup is said of all.

`TypeLookup.Knows` says of an interface that it is found under its own name.
-/

namespace DocAnnotations

open Text

/-- A declared element. -/
structure Element where
  name : String
  type : ElementType
  descriptor : String
deriving DecidableEq, Inhabited

/-- An annotation interface, its elements in declared order. -/
structure Interface where
  name : String
  elements : List Element
deriving DecidableEq, Inhabited

namespace Interface

/-- The declared element of a name. -/
def element? (i : Interface) (name : String) : Option Element :=
  i.elements.find? fun e => e.name == name

/-- The last segment of the interface name. -/
def simpleName (i : Interface) : String := Text.simpleName i.name

/-- Whether a name, as written in source, refers to the interface. -/
def isNamed (i : Interface) (name : String) : Bool := i.name == name || i.simpleName == name

end Interface

/-- An enum type and its constants. -/
structure EnumType where
  name : String
  constants : List String
deriving DecidableEq, Inhabited

namespace EnumType

/-- Whether the enum declares a constant. -/
def hasConstant (e : EnumType) (constant : String) : Bool := e.constants.contains constant

/-- The last segment of the enum's name. -/
def simpleName (e : EnumType) : String := Text.simpleName e.name

end EnumType

/-- What a module sees of the declared types.  The last fields say what every lookup keeps: an
interface is found under its own name, and there are finitely many. -/
structure TypeLookup where
  /-- The interface of a qualified name. -/
  annotation? : String → Option Interface
  /-- The enum of a qualified name. -/
  enumeration? : String → Option EnumType
  /-- Whether a qualified name is that of a class that can be loaded. -/
  isClass : String → Bool
  /-- The interface that a name refers to as written in source. -/
  findAnnotation? : String → Option Interface
  /-- The qualified name of the class that a name refers to as written in source. -/
  findClass? : String → Option String
  /-- The qualified names of all interfaces. -/
  interfaceNames : List String
  name_of_annotation? : ∀ {name : String} {i : Interface}, annotation? name = some i → i.name = name
  mem_interfaceNames : ∀ {name : String} {i : Interface},
    annotation? name = some i → name ∈ interfaceNames
  annotation?_of_find : ∀ {name : String} {i : Interface},
    findAnnotation? name = some i → annotation? i.name = some i

/-- Whether an interface is the one that its name stands for. -/
def TypeLookup.Knows (types : TypeLookup) (i : Interface) : Prop :=
  types.annotation? i.name = some i

theorem TypeLookup.knows_of_annotation? {types : TypeLookup} {name : String} {i : Interface}
    (h : types.annotation? name = some i) : types.Knows i := by
  rw [TypeLookup.Knows, types.name_of_annotation? h, h]

/-- A lookup that hides the given names and understands qualified names only. -/
def TypeLookup.hiding (types : TypeLookup) (hidden : List String) : TypeLookup where
  annotation? name := if hidden.contains name then none else types.annotation? name
  enumeration? name := if hidden.contains name then none else types.enumeration? name
  isClass name := !hidden.contains name && types.isClass name
  findAnnotation? name := if hidden.contains name then none else types.annotation? name
  findClass? name := if !hidden.contains name && types.isClass name then some name else none
  interfaceNames := types.interfaceNames
  name_of_annotation? {name i} h := by
    split at h
    · cases h
    · exact types.name_of_annotation? h
  mem_interfaceNames {name i} h := by
    split at h
    · cases h
    · exact types.mem_interfaceNames h
  annotation?_of_find {name i} h := by
    split at h
    · cases h
    · rename_i hidden
      rw [types.name_of_annotation? h, if_neg hidden, h]

end DocAnnotations
