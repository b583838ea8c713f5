import EventManifest.Defect

/-!
Reports to the author of a manifest. An error stops the generation; a warning only accompanies it.
-/

namespace EventManifest

/-- Stable codes: `E01` for resolving, `E02` for planning, `W03` for activities. A code keeps its
meaning once it is given. -/
structure DiagnosticCode where
  text : String
deriving DecidableEq, Repr

namespace DiagnosticCode

def unknownEntity : DiagnosticCode :=
  ⟨"E0101"⟩

def duplicateEvent : DiagnosticCode :=
  ⟨"E0102"⟩

def invalidCardinality : DiagnosticCode :=
  ⟨"E0201"⟩

def danglingReference : DiagnosticCode :=
  ⟨"E0202"⟩

def forwardReference : DiagnosticCode :=
  ⟨"E0203"⟩

def traitsTooLarge : DiagnosticCode :=
  ⟨"E0204"⟩

def unnamedActivity : DiagnosticCode :=
  ⟨"W0300"⟩

def reusedActivityName : DiagnosticCode :=
  ⟨"W0301"⟩

end DiagnosticCode

def Defect.code : Defect → DiagnosticCode
  | unknownEntity _ _ _ => .unknownEntity
  | duplicateEvent _ _ _ => .duplicateEvent
  | invalidCardinality _ _ => .invalidCardinality
  | danglingReference _ _ => .danglingReference
  | forwardReference _ _ => .forwardReference
  | traitsTooLarge _ _ => .traitsTooLarge

inductive Severity where
  | error
  | warning
deriving DecidableEq, Repr

def Severity.word : Severity → String
  | error => "error"
  | warning => "warning"

/-- The part of a manifest that a report is about. -/
structure Location where
  provider : Option String := none
  event : Option String := none
deriving DecidableEq, Repr

namespace Location

def ofProvider (name : String) : Location :=
  { provider := some name }

def atEvent (location : Location) (event : String) : Location :=
  { location with event := some event }

def text : Location → String
  | ⟨some provider, some event⟩ => provider ++ "::" ++ event
  | ⟨some provider, none⟩ => provider
  | ⟨none, some event⟩ => event
  | ⟨none, none⟩ => ""

end Location

structure Diagnostic where
  code : Option DiagnosticCode
  severity : Severity
  location : Location
  message : String
  hint : Option String
deriving DecidableEq, Repr

namespace Diagnostic

/-- A defect is reported as an error. -/
def ofDefect (location : Location) (defect : Defect) : Diagnostic where
  code := some defect.code
  severity := .error
  location := location
  message := defect.message
  hint := some "the schema validator should have rejected this manifest"

def isError (d : Diagnostic) : Bool :=
  d.severity == .error

/-- The report as it is shown. An empty location is left out. -/
def text (d : Diagnostic) : String :=
  let code :=
    match d.code with
    | some code => "[" ++ code.text ++ "]"
    | none => ""
  let location := if d.location.text.isEmpty then "" else d.location.text ++ ": "
  let hint :=
    match d.hint with
    | some hint => "\n  hint: " ++ hint
    | none => ""
  d.severity.word ++ code ++ ": " ++ location ++ d.message ++ hint

/-- Whether any report is an error. -/
def hasErrors (reports : List Diagnostic) : Bool :=
  reports.any isError

end Diagnostic

end EventManifest
