import EventManifest.Plan.Basic
import EventManifest.Symbol.Parameter
import EventManifest.Template.Table
import EventManifest.Traits

/-!
Planning. A provider is planned from itself and its symbol table; a plan is made of the plans of
all providers and of their templates merged by key. A defect in one provider does not keep the
others from being looked at, but then there is no plan.
-/

namespace EventManifest

/-- How important a line of the log is. -/
inductive LogLevel where
  | warn
  | debug
deriving DecidableEq, Repr

/-- A line of the log. -/
structure LogLine where
  level : LogLevel
  text : String
deriving DecidableEq, Repr

/-- A provider's plan with what else planning it yields. -/
structure PlannedProvider where
  plan : ProviderPlan
  templates : TemplateTable
  warnings : List Diagnostic
  log : List LogLine

namespace ProviderPlan

/-- The bit of each logged event. The keys tell which events are logged. -/
def loggedBits (keys : List (Option String)) (events : List ResolvedEvent) : List EnableBit :=
  (keys.zip events).filterMap fun (key, e) =>
    key.map fun _ => ⟨e.descriptor.level, e.descriptor.keyword⟩

/-- How an event is written, given its key and the provider's bits. -/
def planWrite (bits : List EnableBit) (key : String) (properties : List Property)
    (d : EventDescriptor) : Except Defect EventWrite := do
  let transfers ← Transfer.ofProperties properties
  return {
    enableBit := bits.idxOf ⟨d.level, d.keyword⟩
    templateKey := key
    parameters := transfers.flatMap Transfer.parameters
    names := Symbol.parameterNames properties transfers }

/-- The plan of the event at a position of the table. -/
def planEvent (p : Provider) (keys : List (Option String)) (bits : List EnableBit)
    (e : ResolvedEvent) (index : Nat) : Except Diagnostic EventPlan :=
  match keys[index]?.join, p.events[index]? with
  | some key, some event =>
      match planWrite bits key event.properties e.descriptor with
      | .ok write => .ok ⟨e.symbol, e.descriptor, some write⟩
      | .error defect =>
          .error (.ofDefect ((Location.ofProvider p.name).atEvent e.symbol) defect)
  | _, _ => .ok ⟨e.symbol, e.descriptor, none⟩

/-- Where a defect among a provider's events is. -/
def eventLocation (p : Provider) (table : SymbolTable) (index : Nat) : Location :=
  let location := Location.ofProvider p.name
  match table.events[index]? with
  | some e => location.atEvent e.symbol
  | none => location

/-- The figures of a plan, for the log. -/
def summary (p : ProviderPlan) (templates : TemplateTable) : String :=
  s!"{p.symbol}: {p.events.length} events, {templates.size} templates, " ++
    s!"{p.enableBits.length} enable bits, {p.activities.length} activities"

/-- The bits of a provider, each in the place of the first event that has it. -/
def bitsOf (grouped : ProviderTemplates) (table : SymbolTable) : List EnableBit :=
  distinct (loggedBits grouped.eventKeys table.events)

/-- Put the plan of a provider together. -/
def assemble (p : Provider) (table : SymbolTable) (traits : Option (List UInt8))
    (grouped : ProviderTemplates) (events : List EventPlan) : PlannedProvider :=
  let scan := Activity.find p table
  let plan : ProviderPlan := {
    name := p.name
    symbol := table.provider
    guid := p.guid
    controlGuid := p.controlGuid
    traits := traits
    includeProcessName := p.includeProcessName
    channels := table.channels
    levels := table.levels
    tasks := table.tasks
    opcodes := table.opcodes
    keywords := table.keywords
    maps := table.maps
    strings := table.strings
    enableBits := bitsOf grouped table
    events := events
    activities := scan.pairs }
  { plan := plan
    templates := grouped.templates
    warnings := scan.issues.map (Activity.Issue.diagnostic p.name)
    log :=
      scan.issues.map (fun issue => ⟨.warn, issue.logText table.provider⟩) ++
        [⟨.debug, plan.summary grouped.templates⟩] }

/-- Plan a provider. Its traits are judged first, then the templates of its logged events in
order. -/
def build (p : Provider) (table : SymbolTable) : Except Diagnostic PlannedProvider := do
  let traits ← (Traits.ofProvider p).mapError (.ofDefect (Location.ofProvider p.name))
  let grouped ← (ProviderTemplates.ofEvents p.events).mapError fun (index, defect) =>
    Diagnostic.ofDefect (eventLocation p table index) defect
  let events ← table.events.zipIdx.mapM fun (e, index) =>
    planEvent p grouped.eventKeys (bitsOf grouped table) e index
  return assemble p table traits grouped events

end ProviderPlan

/-- The outcome of planning. -/
structure PlanResult where
  plan : Option GenerationPlan
  diagnostics : List Diagnostic
  log : List LogLine

namespace GenerationPlan

/-- What planning one provider reports. -/
def reports : Except Diagnostic PlannedProvider → List Diagnostic
  | .ok planned => planned.warnings
  | .error d => [d]

def logOf : Except Diagnostic PlannedProvider → List LogLine
  | .ok planned => planned.log
  | .error _ => []

/-- All results, if none of them is an error. -/
def allOk : List (Except Diagnostic PlannedProvider) → Option (List PlannedProvider)
  | [] => some []
  | .ok planned :: rest => (allOk rest).map (planned :: ·)
  | .error _ :: _ => none

/-- The templates of all providers. Under a key the first of them is kept. -/
def mergedTemplates (planned : List PlannedProvider) : TemplateTable :=
  planned.foldl (fun table p => table.merge p.templates) .empty

/-- The plans of a table of templates. -/
def planTemplates (templates : TemplateTable) : Except Defect (List TemplatePlan) :=
  templates.entries.mapM fun (key, properties) => TemplatePlan.ofProperties key properties

/-- Plan providers with their tables. -/
def buildAll (providers : List (Provider × SymbolTable)) : PlanResult :=
  let outcomes := providers.map fun (p, table) => ProviderPlan.build p table
  let diagnostics := outcomes.flatMap reports
  let log := outcomes.flatMap logOf
  match allOk outcomes with
  | none => ⟨none, diagnostics, log⟩
  | some planned =>
      match planTemplates (mergedTemplates planned) with
      | .ok templates => ⟨some ⟨planned.map PlannedProvider.plan, templates⟩, diagnostics, log⟩
      | .error defect => ⟨none, diagnostics ++ [.ofDefect {} defect], log⟩

/-- Plan a manifest. The tables are taken in the order of the providers. -/
def build (m : Manifest) (tables : List SymbolTable) : PlanResult :=
  buildAll (m.providers.zip tables)

end GenerationPlan

end EventManifest
