import EventManifest.Defect
import EventManifest.Identifier
import EventManifest.Manifest.Provider

/-!
The symbols of a provider and of what it declares. The author's symbol comes first; without one the
symbol is spelled from the provider's symbol and the place of the entity.
-/

namespace EventManifest

/-- The numbers by which an event is known at run time. -/
structure EventDescriptor where
  id : UInt16
  version : UInt8
  channel : UInt8
  level : UInt8
  opcode : UInt8
  task : UInt16
  keyword : UInt64
deriving DecidableEq, Repr

namespace Symbol

def ofProvider (p : Provider) : String :=
  (authored p.symbol).getD (sanitize p.name)

/-- The symbol of a channel, level, task, opcode or keyword. Its number stands in for a blank
name. -/
def ofValue (provider : String) (kind : EntityKind) (symbol : Option String) (name : String)
    (value : Nat) : String :=
  (authored symbol).getD <|
    let stem := if (Text.trim name).isEmpty then s!"{value}" else name
    sanitize (provider ++ "_" ++ kind.tag ++ "_" ++ stem)

def ofMap (provider : String) (m : ValueMap) : String :=
  (authored m.symbol).getD (sanitize (provider ++ "_MAP_" ++ m.name))

/-- The symbol of an item is spelled from the symbol of its map and its position. -/
def ofMapItem (map : String) (index : Nat) (item : MapItem) : String :=
  (authored item.symbol).getD (map ++ s!"{index}")

def ofString (provider id : String) (symbol : Option String) : String :=
  (authored symbol).getD (sanitize (provider ++ "_MSG_" ++ id))

/-- The symbol of an event without an authored one: all numbers of its descriptor. -/
def anonymousEvent (provider : String) (d : EventDescriptor) : String :=
  provider ++ "_EVENT_0x" ++
    "_".intercalate
      [Text.hex d.id.toNat, Text.hex d.version.toNat, Text.hex d.channel.toNat,
        Text.hex d.level.toNat, Text.hex d.opcode.toNat, Text.hex d.task.toNat,
        Text.hex d.keyword.toNat]

def ofEvent (provider : String) (symbol : Option String) (d : EventDescriptor) : String :=
  (authored symbol).getD (anonymousEvent provider d)

end Symbol

end EventManifest
