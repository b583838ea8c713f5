import EventManifest.CommandLine.Command

/-!
A folder held in memory, and the command run in it. Paths are looked up one part at a time, and each
part but the last has to be a folder. Of what lies outside the folder only this is known: there are
folders above it, and they hold nothing else that could be read.
-/

namespace EventManifest

/-- What a path leads to. -/
inductive FileEntry where
  | file (bytes : List UInt8)
  | folder
deriving DecidableEq

/-- Where a path leads. -/
inductive Place where
  /-- To a path in the folder itself. -/
  | inside (path : List String)
  /-- To a folder that this one lies in. -/
  | above
  /-- To a name in a folder above. -/
  | elsewhere
deriving DecidableEq

namespace Place

/-- Two dots go back. -/
def back : Place → Place
  | inside [] => above
  | inside path => inside path.dropLast
  | _ => above

/-- A name goes on. -/
def child : Place → String → Place
  | inside path, name => inside (path ++ [name])
  | _, _ => elsewhere

/-- Enter a part of a path. A dot stays. A name has at most 255 bytes. -/
def enter (place : Place) (part : String) : Except FileError Place :=
  if part.isEmpty || part = "." then .ok place
  else if part = ".." then .ok place.back
  else if 255 < part.utf8ByteSize then .error .nameTooLong
  else .ok (place.child part)

end Place

/-- Entries under their paths. -/
structure Folder where
  entries : List (List String × FileEntry)

namespace Folder

def entry? (f : Folder) (path : List String) : Option FileEntry :=
  f.entries.lookup path

/-- The folder itself counts, and so does every folder that an entry lies in. -/
def hasFolder (f : Folder) (path : List String) : Bool :=
  path.isEmpty || f.entries.any fun (p, e) =>
    (decide (p = path) && decide (e = .folder)) ||
      (path.isPrefixOf p && decide (path.length < p.length))

def isFolder (f : Folder) : Place → Bool
  | .inside path => f.hasFolder path
  | .above => true
  | .elsewhere => false

/-- The bytes of the file at a place. -/
def file? (f : Folder) : Place → Option (List UInt8)
  | .inside path =>
      match f.entry? path with
      | some (.file bytes) => some bytes
      | _ => none
  | _ => none

/-- A place that has to be a folder. -/
def requireFolder (f : Folder) (place : Place) : Except FileError Unit :=
  if f.isFolder place then .ok ()
  else if (f.file? place).isSome then .error .notDirectory
  else .error .notFound

/-- Look up the parts of a path, one after the other. -/
def walk (f : Folder) (place : Place) : List String → Except FileError Place
  | [] => .ok place
  | part :: rest => do
      f.requireFolder place
      f.walk (← place.enter part) rest

/-- The parts of a path, between its slashes. -/
def splitPath (part : List Char) : List Char → List String
  | [] => [String.ofList part.reverse]
  | '/' :: rest => String.ofList part.reverse :: splitPath [] rest
  | c :: rest => splitPath (c :: part) rest

/-- Where a path starts, and its parts. A path has fewer than 4096 bytes, and a slash in front leads
outside. -/
def pathParts (path : String) : Except FileError (Place × List String) :=
  if 4096 ≤ path.utf8ByteSize then .error .nameTooLong
  else
    match path.toList with
    | [] => .error .notFound
    | '/' :: rest => .ok (.above, splitPath [] rest)
    | text => .ok (.inside [], splitPath [] text)

/-- Where a path leads, if every part of it but the last is a folder. -/
def locate (f : Folder) (path : String) : Except FileError Place := do
  let (start, parts) ← pathParts path
  f.walk start parts

def read (f : Folder) (path : String) : Except FileError (List UInt8) := do
  let place ← f.locate path
  if f.isFolder place then .error .isDirectory
  else
    match f.file? place with
    | some bytes => .ok bytes
    | none => .error .notFound

/-- Put a file in a place, instead of one that is there. What is put outside is not kept. -/
def put (f : Folder) (place : Place) (bytes : List UInt8) : Folder :=
  match place with
  | .inside path => ⟨f.entries.filter (fun (p, _) => p ≠ path) ++ [(path, .file bytes)]⟩
  | _ => f

/-- The parts of a path, divided at its last name. -/
structure PathEnd where
  folder : List String
  name : String
  /-- Whether slashes follow the name. -/
  slashed : Bool

def splitLast (parts : List String) : PathEnd :=
  let names := (parts.reverse.dropWhile String.isEmpty).reverse
  ⟨names.dropLast, names.getLast?.getD "", decide (names.length < parts.length)⟩

/-- A file is made if need be, but not the folder it lies in. A path that ends with a slash is that
of a folder. -/
def write (f : Folder) (path : String) (bytes : List UInt8) : Except FileError Folder := do
  let (start, parts) ← pathParts path
  let split := splitLast parts
  let folder ← f.walk start split.folder
  f.requireFolder folder
  if split.slashed then .error .isDirectory
  else do
    let place ← folder.enter split.name
    if f.isFolder place then .error .isDirectory else .ok (f.put place bytes)

end Folder

namespace CommandLine

/-- What a command does to its surroundings. -/
structure Effect where
  exitCode : Nat
  stdout : String
  stderr : String
  folder : Folder

/-- Run a command in a folder. -/
def runIn (f : Folder) (arguments : List String) : Effect :=
  match parse arguments with
  | .error .version => ⟨0, versionText, "", f⟩
  | .error .help => ⟨0, helpText, "", f⟩
  | .error (.usage e) => ⟨Exit.input.code, "", Text.ofLines (usageMessages e), f⟩
  | .ok s =>
      let prepared := s.prepare (f.read s.schema >>= FileError.decode)
      let (outcome, stdout) :=
        match s.output, prepared.output with
        | some path, .ok text => (f.write path text.toUTF8.toList, "")
        | none, .ok text => (.ok f, text)
        | _, .error _ => (.ok f, "")
      let failure :=
        match outcome with
        | .ok _ => none
        | .error e => some e
      let report := prepared.conclude s failure
      ⟨report.exit.code, stdout, Text.ofLines report.messages, outcome.toOption.getD f⟩

end CommandLine

end EventManifest
