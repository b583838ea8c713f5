import EventManifest.Activity
import EventManifest.Template.Layout

/-!
The plan of a header: everything that both dialects write, with all symbols, numbers and layouts
settled.
-/

namespace EventManifest

/-- Events of one level and keyword are enabled together and share one bit. -/
structure EnableBit where
  level : UInt8
  keyword : UInt64
deriving DecidableEq, Repr

/-- How a logged event is written. -/
structure EventWrite where
  /-- The position of the event's enable bit. -/
  enableBit : Nat
  templateKey : String
  parameters : List Parameter
  /-- The names of the properties in the wrapper. -/
  names : List String
deriving DecidableEq, Repr

structure EventPlan where
  symbol : String
  descriptor : EventDescriptor
  /-- Absent for an event that is not logged. -/
  write : Option EventWrite
deriving DecidableEq, Repr

structure ProviderPlan where
  name : String
  symbol : String
  guid : Guid
  controlGuid : Option Guid
  traits : Option (List UInt8)
  includeProcessName : Bool
  channels : List ResolvedValue
  levels : List ResolvedValue
  tasks : List ResolvedValue
  opcodes : List ResolvedValue
  keywords : List ResolvedValue
  maps : List ResolvedMap
  strings : List ResolvedString
  enableBits : List EnableBit
  events : List EventPlan
  activities : List ActivityPair
deriving DecidableEq, Repr

/-- The number of 32-bit words that hold the enable bits. -/
def ProviderPlan.enableWords (p : ProviderPlan) : Nat :=
  (p.enableBits.length + 31) / 32

structure GenerationPlan where
  providers : List ProviderPlan
  /-- The templates of all providers, by increasing key. -/
  templates : List TemplatePlan
deriving DecidableEq, Repr

end EventManifest
