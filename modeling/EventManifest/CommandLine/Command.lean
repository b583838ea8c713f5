import EventManifest.CommandLine.Arguments
import EventManifest.CommandLine.File
import EventManifest.Compilation
import EventManifest.Plan.Format

/-!
What the command does between reading the schema and writing the output. Nothing here touches a
file: the outcomes of reading and writing are arguments.
-/

namespace EventManifest.CommandLine

/-- How a command ends. -/
inductive Exit where
  | success
  /-- No output can be generated. -/
  | generation
  /-- The arguments are at fault, or a file. -/
  | input
deriving DecidableEq, Repr

def Exit.code : Exit → Nat
  | success => 0
  | generation => 1
  | input => 2

/-- A message of the command. -/
def message (text : String) : String :=
  "emc: " ++ text

def errorMessage (text : String) : String :=
  message ("error: " ++ text)

/-- The work up to the output: what is told meanwhile, and the output or why there is none. -/
structure Prepared where
  messages : List String
  output : Except Exit String

namespace Settings

/-- The stage that yields what is asked for. Build information needs none. -/
def target (s : Settings) : Option Stage :=
  match s.emission with
  | .header => some .render
  | .plan => some .plan
  | .buildInfo => none

/-- What is told only on request. -/
def detail (s : Settings) (text : String) : List String :=
  if s.verbose then [message text] else []

def noticeMessages (s : Settings) : Notice → List String
  | .logged ⟨.warn, text⟩ => [message text]
  | .logged ⟨.debug, text⟩ => s.detail text
  | .finished stage diagnostics =>
      diagnostics.map (fun d => message d.text) ++ s.detail (stage.name ++ " complete")

/-- How the log calls an emission. -/
def emissionWord (s : Settings) : String :=
  match s.emission with
  | .header => "Header"
  | .plan => "Plan"
  | .buildInfo => "BuildInfo"

/-- What is told before the schema is read. -/
def opening (s : Settings) : List String :=
  s.detail ("schema = " ++ s.schema) ++ s.detail ("emit   = " ++ s.emissionWord)

/-- The text asked for, once the stages have run. -/
def emitted (s : Settings) (c : Compilation) : Option String :=
  match s.emission with
  | .header => c.header
  | .plan => c.plan.map fun plan => plan.toJson.pretty ++ "\n"
  | .buildInfo => c.provenance.map Provenance.buildInfo

/-- What is said when the text asked for is missing. -/
def missing (s : Settings) : String :=
  match s.emission with
  | .buildInfo => "no provenance recorded"
  | .header | .plan => "nothing generated"

/-- The output from a compilation. -/
def generate (s : Settings) (c : Compilation) : Prepared :=
  let run : Run :=
    match s.target with
    | some stage => c.run s.options stage
    | none => ⟨c, [], none⟩
  let told := run.notices.flatMap s.noticeMessages
  match run.failedAt with
  | some stage => ⟨told ++ [errorMessage stage.failure], .error .generation⟩
  | none =>
      match s.emitted run.state with
      | some text => ⟨told, .ok text⟩
      | none => ⟨told ++ [errorMessage s.missing], .error .generation⟩

/-- The output from the outcome of reading the schema. -/
def prepare (s : Settings) (source : Except FileError String) : Prepared :=
  match source with
  | .error e => ⟨s.opening ++ [errorMessage (e.describe s.schema)], .error .input⟩
  | .ok text =>
      match Compilation.ofText text with
      | .error fault =>
          let cause := s.schema ++ ": invalid schema: " ++ fault.message
          ⟨s.opening ++ [errorMessage cause], .error .input⟩
      | .ok c =>
          let loaded := s.detail s!"loaded {c.manifest.providers.length} providers"
          let rest := s.generate c
          ⟨s.opening ++ loaded ++ rest.messages, rest.output⟩

/-- Where the output goes, in words. -/
def destination (s : Settings) : String :=
  s.output.getD "stdout"

end Settings

/-- What a command leaves behind. `written` is the text that was to be written. -/
structure Report where
  exit : Exit
  messages : List String
  written : Option String
deriving DecidableEq, Repr

/-- End a command, given why the output could not be written, if so. -/
def Prepared.conclude (p : Prepared) (s : Settings) (failure : Option FileError) : Report :=
  match p.output, failure with
  | .error exit, _ => ⟨exit, p.messages, none⟩
  | .ok text, none => ⟨.success, p.messages, some text⟩
  | .ok text, some e =>
      ⟨.input, p.messages ++ [errorMessage (e.describe s.destination)], some text⟩

/-- The command from the outcomes of reading and writing. -/
def run (s : Settings) (source : Except FileError String) (failure : Option FileError) : Report :=
  (s.prepare source).conclude s failure

def versionText : String :=
  "emc " ++ compilerVersion ++ "\n"

/-- The lines about wrong arguments. -/
def usageMessages (e : UsageError) : List String :=
  ["error: " ++ e.message, "", "Usage: emc [OPTIONS] <SCHEMA>", "",
    "For more information, try '--help'."]

def helpText : String :=
  Text.ofLines
    ["Event Manifest Compiler — generates ETW tracing headers from instrumentation schemas", "",
      "Usage: emc [OPTIONS] <SCHEMA>", "", "Arguments:",
      "  <SCHEMA>  Input schema graph (JSON)", "", "Options:",
      "  -o, --output <OUTPUT>",
      "          Output file path (stdout when omitted)",
      "      --emit <EMIT>",
      "          Output stage [default: header] [possible values: header, plan, build-info]",
      "      --dialect <DIALECT>",
      "          Header dialect [default: cxx] [possible values: cxx, mc]",
      "      --namespace <NAMESPACE>",
      "          Namespace for generated declarations (C++ dialect)",
      "      --runtime-namespace <RUNTIME_NAMESPACE>",
      "          Namespace of the shared runtime and template functions (C++ dialect) " ++
        "[default: etw]",
      "      --std <STANDARD>",
      "          Language standard for namespace and constant syntax [default: cxx17] " ++
        "[possible values: cxx11, cxx17]",
      "      --log-prefix <LOG_PREFIX>",
      "          Prefix of per-event write functions [default: EventWrite]",
      "      --no-non-essentials",
      "          Omit channel/level/opcode/task/keyword/map/string constants",
      "      --static-provider",
      "          Place each provider context in a linker section",
      "      --verbose",
      "          Print passes and timing",
      "  -h, --help",
      "          Print help",
      "  -V, --version",
      "          Print version"]

end EventManifest.CommandLine
