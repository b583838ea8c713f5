import EventManifest.KeyedTable
import EventManifest.Symbol.Entity

/-!
The symbol table of a provider: a symbol for everything it declares, and for each event the
descriptor that its references amount to. The lists of the table are parallel to those of the
provider.
-/

namespace EventManifest

structure ResolvedValue where
  symbol : String
  value : UInt64
deriving DecidableEq, Repr

structure ResolvedMap where
  symbol : String
  kind : MapKind
  items : List ResolvedValue
deriving DecidableEq, Repr

structure ResolvedString where
  symbol : String
  messageId : Option UInt32
deriving DecidableEq, Repr

structure ResolvedEvent where
  symbol : String
  descriptor : EventDescriptor
deriving DecidableEq, Repr

structure SymbolTable where
  provider : String
  channels : List ResolvedValue
  levels : List ResolvedValue
  tasks : List ResolvedValue
  opcodes : List ResolvedValue
  keywords : List ResolvedValue
  maps : List ResolvedMap
  strings : List ResolvedString
  events : List ResolvedEvent
deriving DecidableEq, Repr

/-- Value and version tell the events of a provider apart. -/
def Event.identity (e : Event) : UInt16 × UInt8 :=
  (e.value, e.version)

/-- How a message calls an event. -/
def Event.label (e : Event) : String :=
  s!"{e.value}v{e.version}"

/-- A named value in the widest words. -/
def NamedValue.widen {α : Type} (wide : α → UInt64) (v : NamedValue α) : NamedValue UInt64 :=
  ⟨v.name, wide v.value, v.symbol⟩

/-- What a provider declares under a kind. All values have 64 bits here, whatever their fields in a
descriptor have. -/
def Provider.declarations (p : Provider) : EntityKind → List (NamedValue UInt64)
  | .channel => p.channels.map (.widen UInt8.toUInt64)
  | .level => p.levels.map (.widen UInt8.toUInt64)
  | .task => p.tasks.map (.widen UInt16.toUInt64)
  | .opcode => p.opcodes.map (.widen UInt8.toUInt64)
  | .keyword => p.keywords.map fun k => ⟨k.name, k.mask, k.symbol⟩

/-- The values of a kind by their names. A name that is declared twice has its first value. -/
structure ValueIndex where
  kind : EntityKind
  byName : KeyedTable UInt64

namespace ValueIndex

def ofDeclarations (kind : EntityKind) (values : List (NamedValue UInt64)) : ValueIndex :=
  ⟨kind, KeyedTable.empty.insertAll (values.map fun v => (v.name, v.value))⟩

/-- The value that an event refers to. Without a reference it is zero. -/
def lookup (index : ValueIndex) (e : Event) : (name : Option String) → Except Defect UInt64
  | none => .ok 0
  | some name =>
      match index.byName.get? name with
      | some value => .ok value
      | none => .error (.unknownEntity e.label index.kind.noun name)

/-- The bits of all that an event refers to, put to those of a mask. -/
def lookupAll (index : ValueIndex) (e : Event) (mask : UInt64) :
    (names : List String) → Except Defect UInt64
  | [] => .ok mask
  | name :: names => do
      let more ← index.lookup e (some name)
      index.lookupAll e (mask ||| more) names

end ValueIndex

/-- The indexes of all kinds that events can refer to. -/
structure ReferenceIndex where
  channels : ValueIndex
  levels : ValueIndex
  tasks : ValueIndex
  opcodes : ValueIndex
  keywords : ValueIndex

namespace ReferenceIndex

def ofProvider (p : Provider) : ReferenceIndex where
  channels := .ofDeclarations .channel (p.declarations .channel)
  levels := .ofDeclarations .level (p.declarations .level)
  tasks := .ofDeclarations .task (p.declarations .task)
  opcodes := .ofDeclarations .opcode (p.declarations .opcode)
  keywords := .ofDeclarations .keyword (p.declarations .keyword)

/-- The descriptor of an event. The keywords are looked up first, then channel, level, opcode and
task. What is found is cut down to the width of its field. -/
def describe (index : ReferenceIndex) (e : Event) : Except Defect EventDescriptor := do
  let keyword ← index.keywords.lookupAll e 0 e.keywords
  let channel ← index.channels.lookup e e.channel
  let level ← index.levels.lookup e e.level
  let opcode ← index.opcodes.lookup e e.opcode
  let task ← index.tasks.lookup e e.task
  return ⟨e.value, e.version, channel.toUInt8, level.toUInt8, opcode.toUInt8, task.toUInt16, keyword⟩

end ReferenceIndex

namespace SymbolTable

def resolveValue (provider : String) (kind : EntityKind) (v : NamedValue UInt64) : ResolvedValue :=
  ⟨Symbol.ofValue provider kind v.symbol v.name v.value.toNat, v.value⟩

def resolveMap (provider : String) (m : ValueMap) : ResolvedMap :=
  let symbol := Symbol.ofMap provider m
  let items := m.items.zipIdx.map fun (item, index) =>
    ⟨Symbol.ofMapItem symbol index item, item.value.toUInt64⟩
  ⟨symbol, m.kind, items⟩

def resolveString (provider : String) (s : LocalizedString) : ResolvedString :=
  ⟨Symbol.ofString provider s.id s.symbol, s.messageId⟩

/-- Resolve events from left to right. An identity that was seen before is reported before the
references of its event. -/
def resolveEvents (provider : String) (index : ReferenceIndex) (symbol : String)
    (seen : List (UInt16 × UInt8)) : List Event → Except Defect (List ResolvedEvent)
  | [] => .ok []
  | e :: events =>
      if seen.contains e.identity then .error (.duplicateEvent provider e.value e.version)
      else do
        let d ← index.describe e
        let rest ← resolveEvents provider index symbol (e.identity :: seen) events
        return ⟨Symbol.ofEvent symbol e.symbol d, d⟩ :: rest

/-- The table of a provider whose events have been resolved. -/
def withEvents (p : Provider) (events : List ResolvedEvent) : SymbolTable :=
  let symbol := Symbol.ofProvider p
  let values (kind : EntityKind) := (p.declarations kind).map (resolveValue symbol kind)
  { provider := symbol
    channels := values .channel
    levels := values .level
    tasks := values .task
    opcodes := values .opcode
    keywords := values .keyword
    maps := p.maps.map (resolveMap symbol)
    strings := p.strings.map (resolveString symbol)
    events := events }

/-- The symbol table of a provider. -/
def resolve (p : Provider) : Except Defect SymbolTable := do
  let events ← resolveEvents p.name (.ofProvider p) (Symbol.ofProvider p) [] p.events
  return withEvents p events

end SymbolTable

end EventManifest
