import EventManifest.Json.Record
import EventManifest.Manifest.Property

/-!
Properties in a document. A property is read in full before it is interpreted, because its member
`kind`, which says what the others mean, may stand anywhere in it. So a property takes no part in
the leniency with which other unknown members are stepped over.
-/

namespace EventManifest

open Json

/-- Choose by name among what a type offers. -/
def chooseVariant {α : Type} (choose : String → Option α) (options : List String)
    (name : String) : Except Fault α :=
  match choose name with
  | some a => .ok a
  | none => reject (.unknownVariant name options)

/-- A value that was read in full and carries nothing: null, or an object without members. -/
def readNothing : Json → Except Fault Unit
  | .null => .ok ()
  | .object [] => .ok ()
  | other => reject (.invalidType other.found "unit")

namespace InType

/-- A type is given by its spelling, which may also be the only key of an object with nothing under
it. -/
def ofJson : Json → Except Fault InType
  | .string spelling => chooseVariant ofName? spellings spelling
  | .object [(spelling, value)] => do
      let t ← chooseVariant ofName? spellings spelling
      readNothing value
      return t
  | .object _ => reject (.invalidValue .map "map with a single key")
  | other => reject (.invalidType other.found "string or map")

def codec : Codec Json InType where
  read _ := ofJson
  write t := .string t.name

end InType

namespace Cardinality

/-- A number of 32 bits is a constant, a text is a name. -/
def ofJson : Json → Except Fault Cardinality
  | .number (.natural n) => if n < UInt32.size then .ok (.fixed (UInt32.ofNat n)) else refuse
  | .string name => .ok (.ref name)
  | _ => refuse
where
  refuse : Except Fault Cardinality :=
    reject (.refused "data did not match any variant of untagged enum Cardinality")

def toJson : Cardinality → Json
  | fixed value => .nat value.toNat
  | ref name => .string name

def codec : Codec Json Cardinality where
  read _ := ofJson
  write := toJson

end Cardinality

/-- The two kinds of property. -/
inductive PropertyKind where
  | data
  | struct
deriving DecidableEq, Repr

namespace PropertyKind

def all : List PropertyKind :=
  [data, struct]

def name : PropertyKind → String
  | data => "data"
  | struct => "struct"

def ofName? (spelling : String) : Option PropertyKind :=
  all.find? fun kind => kind.name == spelling

def choose (spelling : String) : Except Fault PropertyKind :=
  chooseVariant ofName? (all.map name) spelling

/-- In a text the kind is given by its name. -/
def ofTree (tree : Tree) : Except Fault PropertyKind := do
  match ← tree.found with
  | .string spelling => choose spelling
  | other => reject (.invalidType other "variant identifier")

/-- In a value that was read in full the kind is given by its name or its position. -/
def ofJson : Json → Except Fault PropertyKind
  | .string spelling => choose spelling
  | .number (.natural n) =>
      match all[n]? with
      | some kind => .ok kind
      | none => reject (.invalidValue (.number (.natural n)) "variant index 0 <= i < 2")
  | other => reject (.invalidType other.found "variant identifier")

end PropertyKind

/-- What a property holds besides its kind. -/
inductive PropertyContent where
  | elements (items : List Json)
  | entries (members : List (String × Json))

namespace Property

def dataRecord : Record Json DataProperty where
  name := "DataProperty"
  fields :=
    [.required "name" .text, .required "in_type" InType.codec, .optional "count" Cardinality.codec,
      .optional "length" Cardinality.codec, .optional "map" .text]
  build := fun (name, inType, count, length, map, ()) => ⟨name, inType, count, length, map⟩
  parts p := (p.name, p.inType, p.count, p.length, p.map, ())

/-- An array of properties that was read in full. -/
def readList (read : Json → Except Fault Property) : Json → Except Fault (List Property)
  | .array items => items.mapM read
  | other => reject (.invalidType other.found "a sequence")

/-- The fields of a structure, given how its members are read and written. -/
def blockRecord (read : Json → Except Fault Property) (write : List Property → Json) :
    Record Json (String × Option Cardinality × List Property) where
  name := "StructProperty"
  fields :=
    [.required "name" .text, .optional "count" Cardinality.codec,
      .defaulted "properties" ⟨fun _ => readList read, write⟩ []]
  build := fun (name, count, members, ()) => (name, count, members)
  parts := fun (name, count, members) => (name, count, members, ())

/-- Interpret what was read in full. `read` reads the members of a structure. -/
def ofContent (read : Json → Except Fault Property) (kind : PropertyKind)
    (content : PropertyContent) : Except Fault Property :=
  match kind with
  | .data => do
      match content with
      | .elements items => return .data (← dataRecord.ofElements items)
      | .entries members => return .data (← dataRecord.ofEntries members)
  | .struct => do
      let record := blockRecord read fun _ => .null
      let (name, count, members) ←
        match content with
        | .elements items => record.ofElements items
        | .entries members => record.ofEntries members
      return .struct name count members

/-- Take the members of a property from left to right and put its kind aside. -/
def collect {σ : Type} (readKind : σ → Except Fault PropertyKind)
    (readRest : σ → Except Fault Json) (kind : Option PropertyKind)
    (entries : List (String × Json)) :
    List (Except Fault String × σ) → Except Fault (Option PropertyKind × List (String × Json))
  | [] => .ok (kind, entries.reverse)
  | (key, value) :: members => do
      let key ← key
      if key = "kind" then
        match kind with
        | some _ => reject (.duplicateField "kind")
        | none => collect readKind readRest (some (← readKind value)) entries members
      else collect readKind readRest kind ((key, ← readRest value) :: entries) members

/-- A property says which kind it is. -/
def requireKind : Option PropertyKind → Except Fault PropertyKind
  | some kind => .ok kind
  | none => reject (.missingField "kind")

def expected : String :=
  "internally tagged enum Property"

/-- Interpret a property that was read in full. As in reading, the room bounds its depth. -/
def ofJson : (room : Nat) → Json → Except Fault Property
  | 0, .array _ => breakOff .malformed
  | 0, .object _ => breakOff .malformed
  | _ + 1, .array [] => reject (.missingField "kind")
  | room + 1, .array (tag :: items) => do
      let kind ← PropertyKind.ofJson tag
      ofContent (fun member => ofJson room member) kind (.elements items)
  | room + 1, .object members => do
      let (kind, entries) ←
        collect PropertyKind.ofJson .ok none [] (members.map fun (key, value) => (.ok key, value))
      ofContent (fun member => ofJson room member) (← requireKind kind) (.entries entries)
  | _, other => reject (.invalidType other.found expected)

/-- Read a property from a text. -/
def ofTree (room : Nat) : Tree → Except Fault Property
  | .array items ending => enter room fun inside => do
      match items with
      | [] => do
          orDamaged ending.check
          reject (.missingField "kind")
      | tag :: items => do
          let kind ← PropertyKind.ofTree tag
          let items ← items.mapM (Tree.toJson inside)
          orDamaged ending.check
          ofContent (ofJson inside) kind (.elements items)
  | .object members _ ending => enter room fun inside => do
      let (kind, entries) ←
        collect PropertyKind.ofTree (Tree.toJson inside) none []
          (members.map fun (key, value) => (orDamaged key.read, value))
      orDamaged ending.check
      ofContent (ofJson inside) (← requireKind kind) (.entries entries)
  | other => do reject (.invalidType (← other.found) expected)

/-- A member that is left out when it has no value. -/
def optionalMember {α : Type} (name : String) (write : α → Json) :
    Option α → List (String × Json)
  | some a => [(name, write a)]
  | none => []

mutual

/-- The written form of a property, its kind first. -/
def toJson : Property → Json
  | data property => .object (("kind", .string "data") :: dataRecord.members property)
  | struct name count members =>
      .object
        ([("kind", .string "struct"), ("name", .string name)] ++
          optionalMember "count" Cardinality.toJson count ++
          [("properties", .array (listToJson members))])

def listToJson : List Property → List Json
  | [] => []
  | p :: ps => toJson p :: listToJson ps

end

def codec : Codec Tree Property where
  read := ofTree
  write := toJson

end Property

end EventManifest
