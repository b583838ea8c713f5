import EventManifest.Guid
import EventManifest.Manifest.Property

/-!
The instrumentation manifest: providers with their channels, levels, tasks, opcodes, keywords, maps,
strings and events. Events refer to the others by name.
-/

namespace EventManifest

/-- A name for a number: a channel, level, task or opcode. -/
structure NamedValue (α : Type) where
  name : String
  value : α
  symbol : Option String
deriving DecidableEq, Repr

/-- A name for a set of bits. -/
structure Keyword where
  name : String
  mask : UInt64
  symbol : Option String
deriving DecidableEq, Repr

inductive MapKind where
  | value
  | bitmap
deriving DecidableEq, Repr

namespace MapKind

def all : List MapKind :=
  [value, bitmap]

def name : MapKind → String
  | value => "value"
  | bitmap => "bitmap"

def ofName? (spelling : String) : Option MapKind :=
  all.find? fun kind => kind.name == spelling

end MapKind

/-- One number of a value map. The message only serves decoders. -/
structure MapItem where
  value : UInt32
  symbol : Option String
  message : Option String
deriving DecidableEq, Repr

/-- Names for the numbers a property can take. -/
structure ValueMap where
  name : String
  kind : MapKind
  symbol : Option String
  items : List MapItem
deriving DecidableEq, Repr

/-- A text in the message table. -/
structure LocalizedString where
  id : String
  value : String
  symbol : Option String
  messageId : Option UInt32
deriving DecidableEq, Repr

/-- The layout of an event's payload. -/
structure Template where
  properties : List Property
deriving DecidableEq, Repr

structure Event where
  value : UInt16
  version : UInt8
  channel : Option String
  level : Option String
  task : Option String
  opcode : Option String
  keywords : List String
  notLogged : Bool
  symbol : Option String
  template : Option Template
deriving DecidableEq, Repr

namespace Event

/-- The payload of an event, which is empty without a template. -/
def properties (e : Event) : List Property :=
  match e.template with
  | some template => template.properties
  | none => []

end Event

structure Provider where
  name : String
  guid : Guid
  controlGuid : Option Guid
  symbol : Option String
  includeNameInTraits : Bool
  includeProcessName : Bool
  channels : List (NamedValue UInt8)
  levels : List (NamedValue UInt8)
  tasks : List (NamedValue UInt16)
  opcodes : List (NamedValue UInt8)
  keywords : List Keyword
  maps : List ValueMap
  strings : List LocalizedString
  events : List Event
deriving DecidableEq, Repr

structure Manifest where
  providers : List Provider
deriving DecidableEq, Repr

end EventManifest
