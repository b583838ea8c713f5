import EventManifest.Json.Numeral

/-!
JSON values. The members of an object keep their order, and a key may occur more than once.
-/

namespace EventManifest

inductive Json where
  | null
  | bool (value : Bool)
  | number (value : Json.Number)
  | string (value : String)
  | array (items : List Json)
  | object (members : List (String × Json))
deriving Repr

namespace Json

/-- A natural number as a value. -/
def nat (n : Nat) : Json :=
  .number (.natural n)

/-- A value, or null in its absence. -/
def ofOption {α : Type} (write : α → Json) : Option α → Json
  | some a => write a
  | none => .null

def ofList {α : Type} (write : α → Json) (items : List α) : Json :=
  .array (items.map write)

end Json

end EventManifest
