import DocAnnotations.Attribute.Encode
import DocAnnotations.Resolve
import DocAnnotations.Schema

/-!
# The index of declared types

An index is made from a schema: names are unique, element types are those that annotations allow,
and no interface contains itself.

**The index.**  It finds interfaces, enums and classes by qualified name, or as a name is written in
source; the classes of the platform are found as well.  A qualified name comes before a simple one.

**Dependency order.**  Interfaces are put into an order in which each follows those that its
elements refer to.

**Defaults.**  In that order the default literals are resolved and encoded, so a default may use the
defaults of the interfaces it refers to.  Every default is compiled with a loader of its own, which
has the table as far as it is filled.
-/

namespace DocAnnotations

open Text Attribute

/-! ## Errors -/

/-- What is wrong with a default literal. -/
inductive DefaultFault where
  | parse (error : ParseError)
  | resolve (error : ResolveError)
  | encode (error : EncodeError)
deriving DecidableEq

/-- The text of the fault. -/
def DefaultFault.message : DefaultFault → String
  | parse error => error.message
  | resolve error => error.message
  | encode error => error.message

/-- Why a schema has no index. -/
inductive SchemaError where
  | malformed (error : Json.DecodeError)
  | duplicateType (name : String)
  | duplicateElement (interface element : String)
  | invalidDescriptor (interface element descriptor : String) (cause : DescriptorError)
  | unsupportedElementType (interface element descriptor : String)
  | cyclicTypes (path : List String)
  | invalidDefault (interface element : String) (cause : DefaultFault)
deriving DecidableEq

/-- The text of the error. -/
def SchemaError.message : SchemaError → String
  | malformed error =>
    s!"malformed schema at {Json.renderPath error.path}: {error.fault.message}"
  | duplicateType name => s!"duplicate type found: {name}"
  | duplicateElement interface element =>
    s!"duplicate element [{element}] in annotation [{interface}]"
  | invalidDescriptor interface element descriptor cause =>
    s!"element [{interface}.{element}]: invalid descriptor `{descriptor}`: "
      ++ cause.message descriptor
  | unsupportedElementType interface element descriptor =>
    s!"element [{interface}.{element}]: unsupported element type `{descriptor}`"
  | cyclicTypes path => "cyclic annotation element types: " ++ String.intercalate " -> " path
  | invalidDefault interface element cause =>
    s!"element [{interface}.{element}]: invalid default: {cause.message}"

/-- The error of the tokens of a default, where that is what the error is. -/
def SchemaError.lexError? : SchemaError → Option LexError
  | invalidDefault _ _ (.parse error) => error.lexError?
  | _ => none

/-! ## The index -/

/-- The classes that every module can load without declaring them. -/
def platformClasses : List String :=
  ["java.io.Serializable", "java.lang.Boolean", "java.lang.Byte", "java.lang.CharSequence",
   "java.lang.Character", "java.lang.Class", "java.lang.Comparable", "java.lang.Double",
   "java.lang.Enum", "java.lang.Error", "java.lang.Exception", "java.lang.Float",
   "java.lang.Integer", "java.lang.Iterable", "java.lang.Long", "java.lang.Number",
   "java.lang.Object", "java.lang.Runnable", "java.lang.RuntimeException", "java.lang.Short",
   "java.lang.String", "java.lang.Thread", "java.lang.Throwable", "java.lang.Void",
   "java.lang.annotation.Annotation", "java.util.Collection", "java.util.Date", "java.util.List",
   "java.util.Map", "java.util.Set"]

/-- All types of a schema, each list in the order of the names, and the encoded defaults. -/
structure TypeIndex where
  annotations : List Interface
  enums : List EnumType
  classes : List String
  defaults : DefaultsTable
deriving DecidableEq, Inhabited

namespace TypeIndex

/-- The index of an empty schema. -/
def empty : TypeIndex := ⟨[], [], [], .empty⟩

variable (index : TypeIndex)

/-- The interface of a qualified name. -/
def annotation? (name : String) : Option Interface :=
  index.annotations.find? fun i => i.name == name

/-- The enum of a qualified name. -/
def enumeration? (name : String) : Option EnumType := index.enums.find? fun e => e.name == name

/-- Whether a qualified name is that of a declared type or of a platform class. -/
def isClass (name : String) : Bool :=
  index.classes.contains name || (index.annotation? name).isSome
    || (index.enumeration? name).isSome || platformClasses.contains name

/-- The names of all declared types. -/
def names : List String :=
  index.classes ++ index.annotations.map Interface.name ++ index.enums.map EnumType.name

/-- The class that a name as written in source refers to: the class of that qualified name, the
only declared type of that simple name, or the class of that name in `java.lang`. -/
def findClass? (name : String) : Option String :=
  if index.isClass name then some name
  else if name.toList.contains '.' then none
  else match index.names.filter fun n => simpleName n == name with
    | [] =>
      let platform := "java.lang." ++ name
      if platformClasses.contains platform then some platform else none
    | [only] => some only
    | _ => none

/-- The interface that a name as written in source refers to: the interface of that qualified name,
or the only one of that simple name. -/
def findAnnotation? (name : String) : Option Interface :=
  match index.annotation? name with
  | some i => some i
  | none =>
    if name.toList.contains '.' then none
    else match index.annotations.filter fun i => i.simpleName == name with
      | [only] => some only
      | _ => none

theorem name_of_annotation? {name : String} {i : Interface}
    (h : index.annotation? name = some i) : i.name = name := by
  simpa using List.find?_some h

theorem mem_of_annotation? {name : String} {i : Interface}
    (h : index.annotation? name = some i) : i ∈ index.annotations :=
  List.mem_of_find?_eq_some h

/-- The only interface of a simple name is also the first of its qualified name. -/
theorem annotation?_of_find {name : String} {i : Interface}
    (h : index.findAnnotation? name = some i) : index.annotation? i.name = some i := by
  unfold findAnnotation? at h
  split at h
  · next j found =>
    cases h
    rw [index.name_of_annotation? found, found]
  · split at h
    · cases h
    · split at h
      · next only alone =>
        cases h
        have mem : i ∈ index.annotations.filter fun j => j.simpleName == name := by simp [alone]
        obtain ⟨listed, named⟩ := List.mem_filter.1 mem
        have found : (index.annotation? i.name).isSome := by
          simpa [annotation?] using ⟨i, listed, rfl⟩
        obtain ⟨j, hj⟩ := Option.isSome_iff_exists.1 found
        have same : j.simpleName = i.simpleName := by
          rw [Interface.simpleName, Interface.simpleName, index.name_of_annotation? hj]
        have : j ∈ index.annotations.filter fun j => j.simpleName == name :=
          List.mem_filter.2 ⟨index.mem_of_annotation? hj, same ▸ named⟩
        rw [alone, List.mem_singleton] at this
        rw [hj, this]
      · cases h

/-- The index as a lookup. -/
def lookup : TypeLookup where
  annotation? := index.annotation?
  enumeration? := index.enumeration?
  isClass := index.isClass
  findAnnotation? := index.findAnnotation?
  findClass? := index.findClass?
  interfaceNames := index.annotations.map Interface.name
  name_of_annotation? := index.name_of_annotation?
  mem_interfaceNames h :=
    List.mem_map.2 ⟨_, index.mem_of_annotation? h, index.name_of_annotation? h⟩
  annotation?_of_find := index.annotation?_of_find

end TypeIndex

/-! ## Element types -/

/-- The type of an element that is no array, given which names are enums and interfaces. -/
def scalarType? (isEnum isAnnotation : String → Bool) : BaseType → Option ElementType
  | .keyword name => ElementType.ofKeyword? name
  | .object name =>
    if name = "java.lang.String" then some .string
    else if name = "java.lang.Class" then some .classRef
    else if isEnum name then some (.enum name)
    else if isAnnotation name then some (.interface name)
    else none

/-- The type of an element: a scalar or a one-dimensional array of scalars. -/
def elementType? (isEnum isAnnotation : String → Bool) (ty : TypeDescriptor) :
    Option ElementType :=
  match ty.dimensions with
  | 0 => scalarType? isEnum isAnnotation ty.base
  | 1 => (scalarType? isEnum isAnnotation ty.base).map .array
  | _ => none

/-- The elements of an interface declaration, added to those already declared. -/
def declareElements (isEnum isAnnotation : String → Bool) (interface : String) :
    List Element → List ElementDeclaration → Except SchemaError (List Element)
  | declared, [] => .ok declared
  | declared, e :: elements =>
    if declared.any fun d => d.name == e.name then
      .error (.duplicateElement interface e.name)
    else match elementReturnType e.descriptor with
      | .error cause => .error (.invalidDescriptor interface e.name e.descriptor cause)
      | .ok descriptor =>
        match elementType? isEnum isAnnotation descriptor with
        | none => .error (.unsupportedElementType interface e.name e.descriptor)
        | some type =>
          declareElements isEnum isAnnotation interface
            (declared ++ [⟨e.name, type, e.descriptor⟩]) elements

/-! ## Dependency order -/

/-- The interfaces that an interface refers to, in the order of its elements. -/
def Interface.references (i : Interface) : List String :=
  i.elements.filterMap fun e => e.type.referenced?

/-- Adds an interface to those done, behind all that it refers to.  `path` leads to it, its last
step first, and at most `bound` more steps are taken; an interface that its own path holds closes a
cycle. -/
def visitInterface (references : String → List String) :
    (bound : Nat) → (path done : List String) → String → Except SchemaError (List String)
  | bound, path, done, name =>
    if done.contains name then .ok done
    else if path.contains name then .error (.cyclicTypes (name :: path).reverse)
    else match bound with
      | 0 => .ok done
      | bound + 1 => do
        let done ← (references name).foldlM
          (fun done r => visitInterface references bound (name :: path) done r) done
        return done ++ [name]

/-- The names in an order in which each follows all that it refers to. -/
def dependencyOrder (references : String → List String) (names : List String) :
    Except SchemaError (List String) :=
  names.foldlM (fun done name => visitInterface references names.length [] done name) []

/-! ## Defaults -/

/-- The bytes of a default literal for an element of an interface. -/
def compileDefault (l : Loader) (interface : Interface) (element : Element) (literal : String) :
    WithRegistry DefaultFault (List UInt8) := do
  match Node.parse literal with
  | .error e => throw (.parse e)
  | .ok node =>
    let v ← (resolveValue l interface.name element.name node element.type).adaptExcept .resolve
    match valueBytes v with
    | .ok bytes => return bytes
    | .error e => throw (.encode e)

/-- The defaults of an interface, given the literals of its elements, behind those already
compiled. -/
def compileDefaults (l : Loader) (interface : Interface) :
    List (String × List UInt8) → List ElementDeclaration →
      WithRegistry SchemaError (List (String × List UInt8))
  | found, [] => return found.reverse
  | found, d :: declarations => do
    match d.default, interface.element? d.name with
    | some literal, some element =>
      let bytes ← (compileDefault l interface element literal).adaptExcept
        (.invalidDefault interface.name d.name)
      compileDefaults l interface ((d.name, bytes) :: found) declarations
    | _, _ => compileDefaults l interface found declarations

/-- Adds the defaults of one declared interface to a table that has those of the interfaces that it
refers to. -/
def addDefaults (types : TypeLookup) (declarations : List InterfaceDeclaration)
    (table : DefaultsTable) (name : String) : Except SchemaError DefaultsTable :=
  match types.annotation? name, declarations.find? fun d => d.name == name with
  | some interface, some declaration =>
    let l : Loader := ⟨types, table.get?, ⟨0⟩⟩
    match (compileDefaults l interface [] declaration.elements).run .empty with
    | .ok found _ => .ok (found.foldl (fun table e => table.insert name e.1 e.2) table)
    | .error e _ => .error e
  | _, _ => .ok table

/-! ## From a schema -/

/-- The first name that occurs among those before it. -/
def firstDuplicate? : (seen : List String) → List String → Option String
  | _, [] => none
  | seen, name :: names =>
    if seen.contains name then some name else firstDuplicate? (name :: seen) names

/-- An item put behind all items at the front that have a lesser key. -/
def insertBy {α : Type} (key : α → String) (item : α) : List α → List α
  | [] => [item]
  | other :: items =>
    if key other < key item then other :: insertBy key item items else item :: other :: items

/-- The items in the order of a key; those of one key stay in their order. -/
def sortedBy {α : Type} (key : α → String) (items : List α) : List α :=
  items.foldr (insertBy key) []

/-- The index of a schema. -/
def TypeIndex.ofSchema (schema : Schema) : Except SchemaError TypeIndex := do
  let declared := schema.annotations.map InterfaceDeclaration.name
    ++ schema.enums.map EnumType.name ++ schema.classes
  if let some name := firstDuplicate? [] declared then throw (.duplicateType name)
  let isEnum := fun name => schema.enums.any fun e => e.name == name
  let isAnnotation := fun name => schema.annotations.any fun a => a.name == name
  let interfaces ← schema.annotations.mapM fun a => do
    return (⟨a.name, ← declareElements isEnum isAnnotation a.name [] a.elements⟩ : Interface)
  let index : TypeIndex :=
    { annotations := sortedBy Interface.name interfaces
      enums := sortedBy EnumType.name schema.enums
      classes := sortedBy id schema.classes
      defaults := .empty }
  let references := fun name => match index.annotation? name with
    | some i => i.references
    | none => []
  let order ← dependencyOrder references (index.annotations.map Interface.name)
  let defaults ← order.foldlM (addDefaults index.lookup schema.annotations) .empty
  return { index with defaults }

/-- The index of a schema that was decoded. -/
def TypeIndex.ofDecoded (schema : Json.Decoded Schema) : Except SchemaError TypeIndex := do
  TypeIndex.ofSchema (← schema.mapError .malformed)

/-- The index of a schema document. -/
def TypeIndex.ofJson (j : Json) : Except SchemaError TypeIndex :=
  TypeIndex.ofDecoded (Schema.decoder.ofTree j)

/-- The index of the schema document in a text. -/
def TypeIndex.ofText (text : String) : Except SchemaError TypeIndex :=
  TypeIndex.ofDecoded (Schema.decoder.ofString text)

/-- The loader of an index with its own defaults. -/
def TypeIndex.loader (index : TypeIndex) (token : ModuleToken) : Loader :=
  ⟨index.lookup, index.defaults.get?, token⟩

end DocAnnotations
