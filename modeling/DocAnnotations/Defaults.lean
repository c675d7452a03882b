import DocAnnotations.TypeLookup
import DocAnnotations.Value

/-!
# Defaults of annotation elements

**Stored defaults.**  The default of an element is kept in the form of an attribute value.  A
`DefaultsSource` gives these bytes for an interface and an element; `DefaultsTable` is the source
that a loaded index has.

**The registry.**  Decoded defaults are cached in a `Registry`, one entry for each interface and
module; an entry stays until it is invalidated, and it is never replaced.

**Loaders.**  A `Loader` is what a module decodes with: the types it can see, a source of defaults,
and the token that its entries have in the registry.
-/

namespace DocAnnotations

/-! ## Stored defaults -/

/-- The bytes of the default of an element, given its interface and its name. -/
abbrev DefaultsSource := String → String → Option (List UInt8)

/-- Stored defaults, each under an interface and an element. -/
structure DefaultsTable where
  entries : List ((String × String) × List UInt8)
deriving DecidableEq, Inhabited

namespace DefaultsTable

/-- No defaults. -/
def empty : DefaultsTable := ⟨[]⟩

/-- The default of an element. -/
def get? (t : DefaultsTable) : DefaultsSource := fun interface element =>
  t.entries.lookup (interface, element)

/-- The table with the default of an element set. -/
def insert (t : DefaultsTable) (interface element : String) (bytes : List UInt8) :
    DefaultsTable :=
  ⟨((interface, element), bytes) :: t.entries.filter fun e => e.1 != (interface, element)⟩

/-- How many defaults there are. -/
def size (t : DefaultsTable) : Nat := t.entries.length

end DefaultsTable

/-! ## The registry -/

/-- The identity of one loaded version of a module. -/
structure ModuleToken where
  id : UInt64
deriving DecidableEq, Inhabited

/-- Decoded defaults, each under an interface and a module. -/
structure Registry where
  entries : List ((String × ModuleToken) × Annotation)

namespace Registry

/-- A registry without entries. -/
def empty : Registry := ⟨[]⟩

instance : Inhabited Registry := ⟨empty⟩

/-- The entry of an interface in a module. -/
def get? (r : Registry) (interface : String) (token : ModuleToken) : Option Annotation :=
  r.entries.lookup (interface, token)

/-- The registry with an entry added, unless there is one. -/
def insertNew (r : Registry) (interface : String) (token : ModuleToken) (a : Annotation) :
    Registry :=
  match r.get? interface token with
  | some _ => r
  | none => ⟨((interface, token), a) :: r.entries⟩

/-- The registry without the entry of an interface in a module. -/
def invalidate (r : Registry) (interface : String) (token : ModuleToken) : Registry :=
  ⟨r.entries.filter fun e => e.1 != (interface, token)⟩

/-- The registry without the entries of a module. -/
def invalidateModule (r : Registry) (token : ModuleToken) : Registry :=
  ⟨r.entries.filter fun e => e.1.2 != token⟩

/-- How many entries there are. -/
def size (r : Registry) : Nat := r.entries.length

end Registry

/-- A computation that may add entries to a registry; those added before a failure stay. -/
abbrev WithRegistry (ε α : Type) := EStateM ε Registry α

/-- The entry of an interface in a module.  Where there is none it is computed and, if that
succeeds, stored. -/
def Registry.getOrPopulate {ε : Type} (interface : String) (token : ModuleToken)
    (compute : WithRegistry ε Annotation) : WithRegistry ε Annotation := do
  match (← get).get? interface token with
  | some a => return a
  | none =>
    let a ← compute
    match (← get).get? interface token with
    | some present => return present
    | none =>
      modify fun r => r.insertNew interface token a
      return a

/-! ## Loaders -/

/-- All that is needed to load the types and defaults of one module. -/
structure Loader where
  types : TypeLookup
  defaults : DefaultsSource
  token : ModuleToken

end DocAnnotations
