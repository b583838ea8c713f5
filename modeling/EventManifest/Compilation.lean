import EventManifest.Header.Render
import EventManifest.Plan.Build
import EventManifest.Provenance
import EventManifest.Stage

/-!
A compilation holds a manifest and the artifacts of the stages that have run. A run makes the
artifacts of the stages it needs and leaves all others as they were, so they may be older than the
manifest.
-/

namespace EventManifest

structure Compilation where
  manifest : Manifest
  /-- One table for each provider. -/
  tables : Option (List SymbolTable) := none
  plan : Option GenerationPlan := none
  header : Option String := none
  diagnostics : List Diagnostic := []
  /-- Whether a stage has reported errors. -/
  failed : Bool := false
  provenance : Option Provenance := none

/-- What a run tells while it goes on. -/
inductive Notice where
  | logged (line : LogLine)
  /-- A stage has come to its end, with these reports. -/
  | finished (stage : Stage) (diagnostics : List Diagnostic)
deriving DecidableEq, Repr

/-- The end of a run. `failedAt` is the stage that failed, if one did. -/
structure Run where
  state : Compilation
  notices : List Notice
  failedAt : Option Stage

namespace SymbolTable

/-- The defects of all providers. -/
def defects (m : Manifest) : List Diagnostic :=
  m.providers.filterMap fun p =>
    match SymbolTable.resolve p with
    | .ok _ => none
    | .error defect => some (.ofDefect (Location.ofProvider p.name) defect)

/-- The tables of all providers, if none of them has a defect. -/
def resolveAll : List Provider → Option (List SymbolTable)
  | [] => some []
  | p :: rest =>
      match SymbolTable.resolve p, resolveAll rest with
      | .ok table, some tables => some (table :: tables)
      | _, _ => none

end SymbolTable

namespace Compilation

/-- Read a manifest and record where it comes from. -/
def ofText (source : String) : Except Json.Fault Compilation := do
  let m ← Manifest.ofText source
  return { manifest := m, provenance := some (.ofSource source m) }

/-- Close a stage. It fails if it reports errors. -/
def finish (c : Compilation) (stage : Stage) (log : List LogLine)
    (reports : List Diagnostic) : Run :=
  let hasErrors := Diagnostic.hasErrors reports
  { state :=
      { c with
        diagnostics := c.diagnostics ++ reports
        failed := c.failed || hasErrors }
    notices := log.map .logged ++ [.finished stage reports]
    failedAt := if hasErrors then some stage else none }

/-- Fail without a report, for lack of input. -/
def withoutInput (c : Compilation) (stage : Stage) : Run :=
  ⟨c, [], some stage⟩

def resolve (c : Compilation) : Run :=
  finish { c with tables := SymbolTable.resolveAll c.manifest.providers } .resolve []
    (SymbolTable.defects c.manifest)

def makePlan (c : Compilation) : Run :=
  match c.tables with
  | none => c.withoutInput .plan
  | some tables =>
      let result := GenerationPlan.build c.manifest tables
      finish { c with plan := result.plan } .plan result.log result.diagnostics

def render (options : HeaderOptions) (c : Compilation) : Run :=
  match c.plan with
  | none => c.withoutInput .render
  | some plan => finish { c with header := some (Header.render options plan) } .render [] []

def runStage (options : HeaderOptions) (c : Compilation) : Stage → Run
  | .resolve => c.resolve
  | .plan => c.makePlan
  | .render => c.render options

/-- Run stages until one fails. -/
def runStages (options : HeaderOptions) (c : Compilation) : List Stage → Run
  | [] => ⟨c, [], none⟩
  | stage :: rest =>
      let first := c.runStage options stage
      match first.failedAt with
      | some _ => first
      | none =>
          let later := runStages options first.state rest
          { later with notices := first.notices ++ later.notices }

/-- Run all stages that lead to `target`. -/
def run (options : HeaderOptions) (target : Stage) (c : Compilation) : Run :=
  runStages options c target.required

end Compilation

end EventManifest
