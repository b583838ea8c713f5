import EventManifest.Identifier
import EventManifest.Transfer.Basic

/-!
The names of a wrapper's parameters. Each property has one name, and a property that takes a length
also reserves that name with `_Len` behind it. All these names are different from each other.
-/

namespace EventManifest.Symbol

/-- The name of the length beside a name. -/
def lengthName (name : String) : String :=
  name ++ "_Len"

/-- The names that a property reserves. -/
def reserved (withLength : Bool) (name : String) : List String :=
  if withLength then [lengthName name, name] else [name]

/-- Whether a name is in use, or its length's name where that is needed. -/
def isTaken (seen : List String) (withLength : Bool) (name : String) : Bool :=
  (reserved withLength name).any seen.contains

/-- Put the position of the property behind its name until the name is free. -/
def freshName (seen : List String) (withLength : Bool) (index : Nat) :
    (fuel : Nat) → (name : String) → String
  | 0, name => name
  | fuel + 1, name =>
      if isTaken seen withLength name then
        freshName seen withLength index fuel (name ++ s!"_{index}")
      else name

/-- Name the properties from a position on, each given by its name and whether it takes a length.
Every attempt is longer than the one before, and each name in use can stand in the way of two
attempts at most, so the fuel is enough. -/
def parameterNamesFrom (seen : List String) (index : Nat) :
    List (String × Bool) → List String
  | [] => []
  | (written, withLength) :: rest =>
      let name := freshName seen withLength index (2 * seen.length + 1) (sanitize written)
      name :: parameterNamesFrom (reserved withLength name ++ seen) (index + 1) rest

/-- The names of a wrapper's parameters, one for each property. Without a transfer a property takes
no length. -/
def parameterNames (properties : List Property) (transfers : List Transfer) : List String :=
  parameterNamesFrom [] 0 <|
    properties.zipIdx.map fun (p, index) => (p.name, transfers[index]?.any Transfer.needsLength)

end EventManifest.Symbol
