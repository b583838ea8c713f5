import EventManifest.Json.Tree
import EventManifest.Text.Display

/-!
Why a text is refused. Either it is no document, or it is one and does not say what was asked for.
Of the second kind every cause has its own wording in `Rejection.message`.
-/

namespace EventManifest.Json

/-- What a reader finds at a place. The inside of an array or object is not looked at. -/
inductive Found where
  | null
  | bool (value : Bool)
  | number (value : Number)
  | string (value : String)
  | sequence
  | map
deriving DecidableEq, Repr

/-- How a message calls what was found. -/
def Found.describe : Found → String
  | .null => "null"
  | .bool value => s!"boolean `{value}`"
  | .number (.real below x) => "floating point `" ++ (Number.real below x).text ++ "`"
  | .number value => "integer `" ++ value.text ++ "`"
  | .string value => "string " ++ Text.display value
  | .sequence => "sequence"
  | .map => "map"

/-- Why a value is refused. `expected` is the wording for what would have been taken. -/
inductive Rejection where
  | invalidType (found : Found) (expected : String)
  | invalidValue (found : Found) (expected : String)
  | invalidLength (length : Nat) (expected : String)
  | missingField (name : String)
  | duplicateField (name : String)
  | unknownVariant (name : String) (options : List String)
  /-- The type of the value has words of its own. -/
  | refused (message : String)
deriving DecidableEq, Repr

/-- The names that would have been taken, as a list in words. -/
def optionList : List String → String
  | [] => "there are no variants"
  | [a] => "expected `" ++ a ++ "`"
  | [a, b] => "expected `" ++ a ++ "` or `" ++ b ++ "`"
  | options => "expected one of " ++ ", ".intercalate (options.map fun a => "`" ++ a ++ "`")

def Rejection.message : Rejection → String
  | .invalidType found expected => "invalid type: " ++ found.describe ++ ", expected " ++ expected
  | .invalidValue found expected =>
      "invalid value: " ++ found.describe ++ ", expected " ++ expected
  | .invalidLength length expected => s!"invalid length {length}, expected " ++ expected
  | .missingField name => "missing field `" ++ name ++ "`"
  | .duplicateField name => "duplicate field `" ++ name ++ "`"
  | .unknownVariant name options => "unknown variant `" ++ name ++ "`, " ++ optionList options
  | .refused message => message

/-- Why reading stopped. -/
inductive Fault where
  | damaged (damage : Damage)
  | rejected (rejection : Rejection)
deriving DecidableEq, Repr

def Fault.message : Fault → String
  | .damaged .malformed => "the text is not JSON"
  | .damaged .truncated => "the text ends too early"
  | .rejected rejection => rejection.message

/-- Refuse a value. -/
def reject {α : Type} (rejection : Rejection) : Except Fault α :=
  .error (.rejected rejection)

/-- Report damage. -/
def breakOff {α : Type} (damage : Damage) : Except Fault α :=
  .error (.damaged damage)

/-- Damage is one kind of fault. -/
def orDamaged {α : Type} (result : Except Damage α) : Except Fault α :=
  result.mapError .damaged

/-- A text may nest arrays and objects no deeper than there is room for. Entering one takes up one
level of it. -/
def enter {α : Type} (room : Nat) (inside : Nat → Except Fault α) : Except Fault α :=
  match room with
  | 0 => breakOff .malformed
  | room + 1 => inside room

namespace Tree

/-- What stands at the root of the tree. Text and numbers are read, so that their damage shows. -/
def found : Tree → Except Fault Found
  | .absent damage => breakOff damage
  | .broken read _ => breakOff read
  | .null => .ok .null
  | .bool value => .ok (.bool value)
  | .numeral value => orDamaged (value.read.map .number)
  | .quoted value => orDamaged (value.read.map .string)
  | .array _ _ => .ok .sequence
  | .object _ _ _ => .ok .map

/-- Step over a value. Only its grammar counts, neither its depth nor the size of its numbers nor
halves of characters in its text. -/
def skip : Tree → Except Fault Unit
  | .absent damage => breakOff damage
  | .broken _ damage => breakOff damage
  | .null | .bool _ | .numeral _ => .ok ()
  | .quoted value => orDamaged value.ending.check
  | .array _ ending => orDamaged ending.check
  | .object _ _ ending => orDamaged ending.check

/-- Read a value in full. -/
def toJson : (room : Nat) → Tree → Except Fault Json
  | 0, .array _ _ => breakOff .malformed
  | 0, .object _ _ _ => breakOff .malformed
  | room + 1, .array items ending => do
      let values ← items.mapM fun item => toJson room item
      orDamaged ending.check
      return .array values
  | room + 1, .object members _ ending => do
      let values ← members.mapM fun (key, value) => do
        let key ← orDamaged key.read
        return (key, ← toJson room value)
      orDamaged ending.check
      return .object values
  | _, .absent damage => breakOff damage
  | _, .broken read _ => breakOff read
  | _, .null => return .null
  | _, .bool value => return .bool value
  | _, .numeral value => return .number (← orDamaged value.read)
  | _, .quoted value => return .string (← orDamaged value.read)

end Tree

/-- Read any document whose arrays and objects nest no deeper than the room. -/
def ofText (room : Nat) (text : String) : Except Fault Json := do
  let state := Tree.scan text.toList
  let value ← state.tree.toJson room
  orDamaged state.check
  return value

/-- What stands at the root of a value. -/
def found : Json → Found
  | .null => .null
  | .bool value => .bool value
  | .number value => .number value
  | .string value => .string value
  | .array _ => .sequence
  | .object _ => .map

end EventManifest.Json
