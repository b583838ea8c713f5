import EventManifest.CommandLine.Command

/-!
The command: it reads the schema, writes the output and tells what is to be told.
-/

open EventManifest EventManifest.CommandLine

namespace EventManifest.CommandLine

/-- The cause behind a number of the system, which some calls give below zero. -/
def ofSystemCode (code : UInt32) (details : String) : FileError :=
  let code := if code < 0x80000000 then code else 0 - code
  if code = 2 then .notFound
  else if code = 20 then .notDirectory
  else if code = 21 then .isDirectory
  else if code = 36 then .nameTooLong
  else .other s!"{details} (os error {code})"

/-- The cause of a failed access, from what the system says. -/
def fileError : IO.Error → FileError
  | .noFileOrDirectory _ code details => ofSystemCode code details
  | .noSuchThing _ code details => ofSystemCode code details
  | .inappropriateType _ code details => ofSystemCode code details
  | .permissionDenied _ code details => ofSystemCode code details
  | .invalidArgument _ code details => ofSystemCode code details
  | e => .other (toString e)

def readSchema (path : String) : IO (Except FileError String) := do
  try
    return FileError.decode (← IO.FS.readBinFile path).toList
  catch e =>
    return .error (fileError e)

/-- Write the output, and return why that was not possible, if so. -/
def writeOutput (path : Option String) (text : String) : IO (Option FileError) := do
  try
    match path with
    | some path => IO.FS.writeFile path text
    | none =>
        let stdout ← IO.getStdout
        stdout.putStr text
        stdout.flush
    return none
  catch e =>
    return some (fileError e)

def tell (messages : List String) : IO Unit :=
  messages.forM IO.eprintln

def runSettings (s : Settings) : IO UInt32 := do
  let prepared := s.prepare (← readSchema s.schema)
  tell prepared.messages
  let failure ←
    match prepared.output with
    | .ok text => writeOutput s.output text
    | .error _ => pure none
  let report := prepared.conclude s failure
  tell (report.messages.drop prepared.messages.length)
  return UInt32.ofNat report.exit.code

end EventManifest.CommandLine

def main (arguments : List String) : IO UInt32 := do
  match parse arguments with
  | .ok s => runSettings s
  | .error .version =>
      IO.print versionText
      return 0
  | .error .help =>
      IO.print helpText
      return 0
  | .error (.usage e) =>
      tell (usageMessages e)
      return UInt32.ofNat Exit.input.code
