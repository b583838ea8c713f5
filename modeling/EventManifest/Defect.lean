/-!
Defects of a manifest for which nothing can be generated. Each cause has its own wording.
-/

namespace EventManifest

/-- What an event can refer to by name. -/
inductive EntityKind where
  | channel
  | level
  | task
  | opcode
  | keyword
deriving DecidableEq, Repr

namespace EntityKind

/-- The kind in a generated symbol. -/
def tag : EntityKind → String
  | channel => "CHANNEL"
  | level => "LEVEL"
  | task => "TASK"
  | opcode => "OPCODE"
  | keyword => "KEYWORD"

/-- The kind in a message. -/
def noun : EntityKind → String
  | channel => "channel"
  | level => "level"
  | task => "task"
  | opcode => "opcode"
  | keyword => "keyword"

end EntityKind

inductive Defect where
  /-- A count or length that the type of the property does not allow. -/
  | invalidCardinality (property detail : String)
  /-- A count or length that names no property of the template. -/
  | danglingReference (property target : String)
  /-- A count or length that names a property which is not declared earlier. -/
  | forwardReference (property target : String)
  /-- A reference of an event to something its provider does not declare. The noun says what it
  refers to. -/
  | unknownEntity (event noun name : String)
  /-- Two events with the same value and version. -/
  | duplicateEvent (provider : String) (value : UInt16) (version : UInt8)
  /-- Provider traits too long for their size field. -/
  | traitsTooLarge (provider : String) (size : Nat)
deriving DecidableEq, Repr

def Defect.message : Defect → String
  | invalidCardinality property detail => s!"property '{property}': invalid cardinality: {detail}"
  | danglingReference property target =>
      s!"property '{property}' references unknown property '{target}'"
  | forwardReference property target =>
      s!"property '{property}' references '{target}', which is not declared before it"
  | unknownEntity event noun name => s!"event {event}: unknown {noun} '{name}'"
  | duplicateEvent provider value version =>
      s!"provider '{provider}': duplicate event identity (value {value}, version {version})"
  | traitsTooLarge provider size =>
      s!"provider '{provider}': traits blob of {size} bytes exceeds 65535"

end EventManifest
