import EventManifest.Header.Options

/-!
The arguments of the command line. They are read from left to right and the first fault ends the
reading; so does a request for the version or for help, whatever follows it.
-/

namespace EventManifest.CommandLine

/-- What is written. -/
inductive Emission where
  | header
  | plan
  | buildInfo
deriving DecidableEq, Repr

structure Settings where
  schema : String
  /-- Where the output goes, if not to the standard output. -/
  output : Option String := none
  emission : Emission := .header
  options : HeaderOptions := {}
  verbose : Bool := false
deriving DecidableEq, Repr

/-- The options that take a value. -/
inductive Valued where
  | output
  | emit
  | dialect
  | enclosing
  | shared
  | standard
  | wrapperStem
deriving DecidableEq, Repr

/-- The options that take none. -/
inductive Switch where
  | noConstants
  | staticEntry
  | verbose
deriving DecidableEq, Repr

/-- What is wrong with the arguments. -/
inductive UsageError where
  | unknown (argument : String)
  | missingValue (option : String)
  | invalidValue (option value : String)
  | emptyValue (option : String)
  | unneededValue (option value : String)
  | repeated (option : String)
  | missingSchema
deriving DecidableEq, Repr

namespace UsageError

def message : UsageError → String
  | unknown argument => s!"unexpected argument '{argument}' found"
  | missingValue option => s!"a value is required for '{option}' but none was supplied"
  | invalidValue option value => s!"invalid value '{value}' for '{option}'"
  | emptyValue option => s!"a value is required for '{option}' but none was supplied"
  | unneededValue option value => s!"unexpected value '{value}' for '{option}' found"
  | repeated option => s!"the argument '{option}' cannot be used multiple times"
  | missingSchema => "the following required arguments were not provided: <SCHEMA>"

end UsageError

/-- What ends the reading of the arguments early. -/
inductive Interruption where
  | usage (error : UsageError)
  | version
  | help
deriving DecidableEq, Repr

namespace Valued

def name : Valued → String
  | output => "--output"
  | emit => "--emit"
  | dialect => "--dialect"
  | enclosing => "--namespace"
  | shared => "--runtime-namespace"
  | standard => "--std"
  | wrapperStem => "--log-prefix"

def all : List Valued :=
  [output, emit, dialect, enclosing, shared, standard, wrapperStem]

end Valued

namespace Switch

def name : Switch → String
  | noConstants => "--no-non-essentials"
  | staticEntry => "--static-provider"
  | verbose => "--verbose"

def all : List Switch :=
  [noConstants, staticEntry, verbose]

end Switch

def Emission.ofWord? : String → Option Emission
  | "header" => some .header
  | "plan" => some .plan
  | "build-info" => some .buildInfo
  | _ => none

def dialectOfWord? : String → Option Dialect
  | "cxx" => some .functions
  | "mc" => some .macros
  | _ => none

def standardOfWord? : String → Option Standard
  | "cxx11" => some .cxx11
  | "cxx17" => some .cxx17
  | _ => none

/-- What has been read so far. -/
structure Draft where
  schema : Option String := none
  output : Option String := none
  emission : Option Emission := none
  dialect : Option Dialect := none
  enclosing : Option String := none
  shared : Option String := none
  standard : Option Standard := none
  wrapperStem : Option String := none
  switches : List Switch := []
deriving DecidableEq, Repr

namespace Draft

/-- Fill a place that is still empty. -/
def once {α : Type} (option : String) (current : Option α) (value : Except UsageError α) :
    Except UsageError (Option α) :=
  match current with
  | some _ => .error (.repeated option)
  | none => value.map some

/-- A value that stands for one of several words. -/
def word {α : Type} (option value : String) (meaning : Option α) : Except UsageError α :=
  match meaning with
  | some a => .ok a
  | none => .error (.invalidValue option value)

/-- A value that names a file. -/
def path (option value : String) : Except UsageError String :=
  if value.isEmpty then .error (.emptyValue option) else .ok value

def assign (d : Draft) (o : Valued) (value : String) : Except UsageError Draft :=
  match o with
  | .output => do
      return { d with output := ← once o.name d.output (path o.name value) }
  | .emit => do
      return { d with
        emission := ← once o.name d.emission (word o.name value (Emission.ofWord? value)) }
  | .dialect => do
      return { d with
        dialect := ← once o.name d.dialect (word o.name value (dialectOfWord? value)) }
  | .enclosing => do
      return { d with enclosing := ← once o.name d.enclosing (.ok value) }
  | .shared => do
      return { d with shared := ← once o.name d.shared (.ok value) }
  | .standard => do
      return { d with
        standard := ← once o.name d.standard (word o.name value (standardOfWord? value)) }
  | .wrapperStem => do
      return { d with wrapperStem := ← once o.name d.wrapperStem (.ok value) }

def turnOn (d : Draft) (s : Switch) : Except UsageError Draft :=
  if s ∈ d.switches then .error (.repeated s.name)
  else .ok { d with switches := d.switches ++ [s] }

/-- Take an argument that is no option. There is room for one. -/
def position (d : Draft) (argument : String) : Except UsageError Draft :=
  match d.schema with
  | some _ => .error (.unknown argument)
  | none => do return { d with schema := some (← path "<SCHEMA>" argument) }

/-- Take arguments none of which is an option. -/
def positions (d : Draft) : List String → Except UsageError Draft
  | [] => .ok d
  | argument :: rest => do (← d.position argument).positions rest

/-- The settings, with the values of what was not given. -/
def settings (d : Draft) : Except UsageError Settings :=
  let defaults : HeaderOptions := {}
  match d.schema with
  | none => .error .missingSchema
  | some schema =>
      .ok {
        schema := schema
        output := d.output
        emission := d.emission.getD .header
        options := {
          dialect := d.dialect.getD defaults.dialect
          enclosing := d.enclosing
          shared := d.shared.getD defaults.shared
          standard := d.standard.getD defaults.standard
          wrapperStem := d.wrapperStem.getD defaults.wrapperStem
          constants := decide (Switch.noConstants ∉ d.switches)
          staticEntry := decide (Switch.staticEntry ∈ d.switches) }
        verbose := decide (Switch.verbose ∈ d.switches) }

end Draft

/-- An argument by its form. -/
inductive Argument where
  /-- The end of the options. -/
  | terminator
  | valued (option : Valued) (attached : Option String)
  | switch (option : Switch)
  | interruption (i : Interruption)
  | position (text : String)
deriving DecidableEq, Repr

namespace Argument

/-- An option that takes no value, given with or without one. -/
def bare (name : String) (attached : Option String) (argument : Argument) : Argument :=
  match attached with
  | some value => .interruption (.usage (.unneededValue name value))
  | none => argument

/-- An option with two hyphens. Its name is never abbreviated. -/
def ofLong (name : String) (attached : Option String) : Argument :=
  match Valued.all.find? fun o => o.name == name with
  | some o => .valued o attached
  | none =>
      match Switch.all.find? fun s => s.name == name with
      | some s => bare name attached (.switch s)
      | none =>
          if name = "--version" then bare name attached (.interruption .version)
          else if name = "--help" then bare name attached (.interruption .help)
          else .interruption (.usage (.unknown name))

/-- What follows the letter of an option that takes a value. -/
def attachedToShort : List Char → Option String
  | [] => none
  | '=' :: value => some (String.ofList value)
  | value => some (String.ofList value)

/-- An option with one hyphen. Letters after one that interrupts the reading do not matter. -/
def ofShort (letter : Char) (rest : List Char) : Argument :=
  match letter with
  | 'o' => .valued .output (attachedToShort rest)
  | 'V' => .interruption .version
  | 'h' => .interruption .help
  | _ => .interruption (.usage (.unknown ("-" ++ String.singleton letter)))

/-- The text before the first equals sign, and the text after it. -/
def splitValue (text : List Char) : String × Option String :=
  let name := String.ofList (text.takeWhile (· ≠ '='))
  match text.dropWhile (· ≠ '=') with
  | [] => (name, none)
  | _ :: value => (name, some (String.ofList value))

def ofText (text : String) : Argument :=
  match text.toList with
  | ['-', '-'] => .terminator
  | '-' :: '-' :: rest =>
      let (name, attached) := splitValue ('-' :: '-' :: rest)
      ofLong name attached
  | '-' :: letter :: rest => ofShort letter rest
  | _ => .position text

end Argument

def usage {α : Type} (result : Except UsageError α) : Except Interruption α :=
  result.mapError .usage

/-- Read arguments. `pending` is an option whose value is still to come. -/
def scan (d : Draft) (pending : Option Valued) : List String → Except Interruption Draft
  | [] =>
      match pending with
      | some o => .error (.usage (.missingValue o.name))
      | none => .ok d
  | text :: rest =>
      match pending, Argument.ofText text with
      | some o, .position value => do scan (← usage (d.assign o value)) none rest
      | some o, _ => .error (.usage (.missingValue o.name))
      | none, .terminator => usage (d.positions rest)
      | none, .valued o none => scan d (some o) rest
      | none, .valued o (some value) => do scan (← usage (d.assign o value)) none rest
      | none, .switch s => do scan (← usage (d.turnOn s)) none rest
      | none, .interruption i => .error i
      | none, .position value => do scan (← usage (d.position value)) none rest

def parse (arguments : List String) : Except Interruption Settings := do
  usage (← scan {} none arguments).settings

end EventManifest.CommandLine
