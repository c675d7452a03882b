import DocAnnotations.Attribute.Decode

/-!
# Loading defaults, and decoding with them

The defaults of an interface are decoded on first use and then cached.  Decoding a default may need
the defaults of other interfaces, and so on.

A chain of loads longer than there are interfaces would need the defaults of one interface for
themselves, and ends in an error: `Loader.defaultsWithin` counts the loads that may still be under
way, so that it is a recursion on the count, and `Loader.defaultsFor` starts it with enough for
every chain without a repetition.

`Loader.decode` and its like for values and members read whole attributes with these answers.
-/

namespace DocAnnotations

open Attribute

namespace Loader

/-- Decodes the defaults of some elements of an interface and adds them to those already decoded.
`defaultsFor` loads the defaults of the interfaces that occur in them. -/
def decodeDefaults (l : Loader) (defaultsFor : Interface → Load Annotation) (interface : String) :
    List Element → Annotation → Load Annotation
  | [], a => return a
  | e :: elements, a => do
    match l.defaults interface e.name with
    | none => decodeDefaults l defaultsFor interface elements a
    | some bytes =>
      let v ← (readAll (readValue l.types defaultsFor nestingLimit) bytes).adaptExcept
        (.invalidDefault interface e.name)
      if v.conforms e.type then
        decodeDefaults l defaultsFor interface elements (a.insert e.name v)
      else throw (.typeMismatch interface e.name e.type v.kindName)

/-- The defaults of an interface, where the given number of loads may be under way at once. -/
def defaultsWithin (l : Loader) : Nat → Interface → Load Annotation
  | 0, interface =>
    Registry.getOrPopulate interface.name l.token (throw (.recursiveDefault interface.name))
  | n + 1, interface =>
    Registry.getOrPopulate interface.name l.token
      (decodeDefaults l (defaultsWithin l n) interface.name interface.elements
        (.empty interface.name))

/-- The elements of an interface that have a default, with their decoded defaults. -/
def defaultsFor (l : Loader) (interface : Interface) : Load Annotation :=
  defaultsWithin l l.types.interfaceNames.length interface

/-- Decodes one value. -/
def decodeValue (l : Loader) (bytes : List UInt8) : Load Value :=
  readAll (readValue l.types l.defaultsFor nestingLimit) bytes

/-- Decodes one annotation. -/
def decode (l : Loader) (bytes : List UInt8) : Load Annotation :=
  readAll (readTopLevel l.types l.defaultsFor) bytes

/-- Decodes the attribute of a member. -/
def decodeMember (l : Loader) (bytes : List UInt8) : Load (List Annotation) :=
  readAll (do readAnnotations (readTopLevel l.types l.defaultsFor) (← readLength) []) bytes

end Loader

end DocAnnotations
