import EventManifest.Json.Codec

/-!
Records: values with named fields. One table of fields serves both directions. A record is written
as an object with its fields in the order of the table. It is read from an object with the members
in any order, where further members are stepped over, or from an array of its fields in the order
of the table.
-/

namespace EventManifest.Json

/-- A field of a record. -/
structure Field (σ : Type) where
  name : String
  Value : Type
  codec : Codec σ Value
  /-- The value of a field that is left out. A field without one is required. -/
  absent : Option Value
  /-- Whether a value is left out in writing. -/
  omits : Value → Bool

namespace Field

variable {σ α : Type}

/-- A field that must be there. -/
def required (name : String) (codec : Codec σ α) : Field σ :=
  ⟨name, α, codec, none, fun _ => false⟩

/-- A field that stands for `absent` when it is left out, and is always written. -/
def defaulted (name : String) (codec : Codec σ α) (absent : α) : Field σ :=
  ⟨name, α, codec, some absent, fun _ => false⟩

/-- A field that may be left out or null, and is left out in writing when it has no value. -/
def optional [Source σ] (name : String) (codec : Codec σ α) : Field σ :=
  ⟨name, Option α, codec.nullable, some none, Option.isNone⟩

end Field

variable {σ : Type}

/-- A value for each field. -/
def Values : List (Field σ) → Type
  | [] => Unit
  | field :: fields => field.Value × Values fields

/-- A value for each of the fields met so far. -/
def Drafts : List (Field σ) → Type
  | [] => Unit
  | field :: fields => Option field.Value × Drafts fields

namespace Drafts

/-- No field has been met. -/
def blank : (fields : List (Field σ)) → Drafts fields
  | [] => ()
  | _ :: fields => (none, blank fields)

/-- Take in a member. The result is nothing when no field has its name. A field that has been met
before is refused unread. -/
def offer (room : Nat) (key : String) (value : σ) :
    (fields : List (Field σ)) → Drafts fields → Except Fault (Option (Drafts fields))
  | [], _ => .ok none
  | field :: fields, (draft, drafts) =>
      if field.name = key then
        match draft with
        | some _ => reject (.duplicateField field.name)
        | none => do
            let read ← field.codec.read room value
            return some (some read, drafts)
      else do
        return (← offer room key value fields drafts).map (draft, ·)

/-- Take in members from left to right. Those without a field are stepped over. -/
def offerAll (room : Nat) (skip : σ → Except Fault Unit) {fields : List (Field σ)}
    (drafts : Drafts fields) : List (Except Fault String × σ) → Except Fault (Drafts fields)
  | [] => .ok drafts
  | (key, value) :: members => do
      match ← offer room (← key) value fields drafts with
      | some drafts => offerAll room skip drafts members
      | none => do
          skip value
          offerAll room skip drafts members

/-- Fill in what was left out. The first required field that was not met is reported. -/
def complete : (fields : List (Field σ)) → Drafts fields → Except Fault (Values fields)
  | [], _ => .ok ()
  | field :: fields, (draft, drafts) =>
      match draft.or field.absent with
      | some value => do return (value, ← complete fields drafts)
      | none => reject (.missingField field.name)

end Drafts

namespace Values

/-- Read the fields from the elements of an array, and return the elements left over. `stop` is what
stands at the end of the array; `expected` describes the record. -/
def ofItems (room : Nat) (stop : Except Fault Unit) (expected : String) :
    (fields : List (Field σ)) → (index : Nat) → List σ → Except Fault (Values fields × List σ)
  | [], _, items => .ok ((), items)
  | field :: fields, index, item :: items => do
      let value ← field.codec.read room item
      let (values, rest) ← ofItems room stop expected fields (index + 1) items
      return ((value, values), rest)
  | field :: fields, index, [] => do
      stop
      match field.absent with
      | some value => do
          let (values, rest) ← ofItems room stop expected fields (index + 1) []
          return ((value, values), rest)
      | none => reject (.invalidLength index expected)

/-- The members in which the values are written. -/
def members : (fields : List (Field σ)) → Values fields → List (String × Json)
  | [], _ => []
  | field :: fields, (value, values) =>
      if field.omits value then members fields values
      else (field.name, field.codec.write value) :: members fields values

end Values

/-- A type whose values consist of fields. -/
structure Record (σ α : Type) where
  name : String
  fields : List (Field σ)
  build : Values fields → α
  parts : α → Values fields

namespace Record

variable {α : Type}

/-- How a message calls the number of elements. -/
def elementCount (count : Nat) : String :=
  if count = 1 then "1 element" else s!"{count} elements"

def expected (r : Record σ α) : String :=
  "struct " ++ r.name

/-- How a message calls an array with all fields. -/
def expectedLength (r : Record σ α) : String :=
  r.expected ++ " with " ++ elementCount r.fields.length

/-- The members in which a record is written. -/
def members (r : Record σ α) (a : α) : List (String × Json) :=
  Values.members r.fields (r.parts a)

/-- Read from members. -/
def ofMembers (r : Record σ α) (room : Nat) (skip : σ → Except Fault Unit)
    (members : List (Except Fault String × σ)) (stop : Except Fault Unit) : Except Fault α := do
  let drafts ← Drafts.offerAll room skip (Drafts.blank r.fields) members
  stop
  return r.build (← Drafts.complete r.fields drafts)

/-- Read from the tree of a text. After the last field an array must end. -/
def ofTree (r : Record Tree α) (room : Nat) : Tree → Except Fault α
  | .array items ending => enter room fun inside => do
      let stop := orDamaged ending.check
      let (values, rest) ← Values.ofItems inside stop r.expectedLength r.fields 0 items
      if rest.isEmpty then stop else breakOff .malformed
      return r.build values
  | .object members _ ending => enter room fun inside =>
      r.ofMembers inside Tree.skip (members.map fun (key, value) => (orDamaged key.read, value))
        (orDamaged ending.check)
  | other => do reject (.invalidType (← other.found) r.expected)

/-- Read from elements that have been read in full, where no room is needed any more. Elements left
over are counted. -/
def ofElements (r : Record Json α) (items : List Json) : Except Fault α := do
  let (values, rest) ← Values.ofItems 0 (.ok ()) r.expectedLength r.fields 0 items
  if rest.isEmpty then return r.build values
  else reject (.invalidLength items.length (elementCount r.fields.length ++ " in sequence"))

/-- Read from members that have been read in full. -/
def ofEntries (r : Record Json α) (members : List (String × Json)) : Except Fault α :=
  r.ofMembers 0 (fun _ => .ok ()) (members.map fun (key, value) => (.ok key, value)) (.ok ())

/-- The codec of a record in a text. -/
def codec (r : Record Tree α) : Codec Tree α where
  read := r.ofTree
  write a := .object (r.members a)

end Record

end EventManifest.Json
