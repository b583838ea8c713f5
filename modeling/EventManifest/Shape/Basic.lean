import EventManifest.Defect
import EventManifest.Manifest.Property

/-!
The shape of a property: its type, and its count and length with all references resolved to
positions. A shape says all that matters for how the property is written at run time; names do not
enter it.
-/

namespace EventManifest

/-- A count or length with its reference resolved. -/
inductive Bound where
  | fixed (value : UInt32)
  /-- Carried at run time by the property at this position of the template. -/
  | param (index : Nat)
deriving DecidableEq, Repr

/-- What a property holds, apart from how often. -/
inductive Category where
  | data (inType : InType)
  | struct
deriving DecidableEq, Repr

structure Shape where
  category : Category
  count : Option Bound
  length : Option Bound
deriving DecidableEq, Repr

def Property.category : Property → Category
  | data property => .data property.inType
  | struct _ _ _ => .struct

namespace Shape

/-- Resolve a count or length of the property at position `index`. A name stands for the first
property of that name, which must be declared earlier. -/
def resolveBound (scope : List Property) (index : Nat) (owner what : String) :
    Cardinality → Except Defect Bound
  | .fixed value =>
      if value = 0 then .error (.invalidCardinality owner s!"fixed {what} must be at least 1")
      else .ok (.fixed value)
  | .ref target =>
      match scope.findIdx? fun p => p.name == target with
      | none => .error (.danglingReference owner target)
      | some position =>
          if position < index then .ok (.param position)
          else .error (.forwardReference owner target)

/-- An absent count or length stays absent. -/
def resolveOptional (scope : List Property) (index : Nat) (owner what : String) :
    Option Cardinality → Except Defect (Option Bound)
  | none => .ok none
  | some cardinality => (resolveBound scope index owner what cardinality).map some

/-- Whether the type allows such a length: strings may have one, binary data must. -/
def checkLength (owner : String) (category : Category) (length : Option Bound) :
    Except Defect Unit :=
  match category with
  | .struct => .ok ()
  | .data inType =>
      if length.isSome && !inType.acceptsLength then
        .error (.invalidCardinality owner (inType.title ++ " does not take a length"))
      else if inType = .binary && length.isNone then
        .error (.invalidCardinality owner "Binary requires a length")
      else .ok ()

/-- The shape of a property at a position of its template. The count is judged first, then the
length, then whether the type takes that length. -/
def resolve (scope : List Property) (index : Nat) (p : Property) : Except Defect Shape := do
  let count ← resolveOptional scope index p.name "count" p.count
  let length ← resolveOptional scope index p.name "length" p.length
  checkLength p.name p.category length
  return ⟨p.category, count, length⟩

/-- The shapes of a whole template, or the defect of its first property that has one. -/
def resolveAll (properties : List Property) : Except Defect (List Shape) :=
  properties.zipIdx.mapM fun (p, index) => resolve properties index p

end Shape

end EventManifest
