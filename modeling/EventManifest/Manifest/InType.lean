/-!
The types a data property can have, and their spellings in a manifest.
-/

namespace EventManifest

inductive InType where
  | int8
  | uint8
  | int16
  | uint16
  | int32
  | uint32
  | int64
  | uint64
  | float
  | double
  | boolean
  | hexInt32
  | hexInt64
  | unicodeString
  | ansiString
  | countedUnicodeString
  | countedAnsiString
  | binary
  | countedBinary
  | guid
  | fileTime
  | systemTime
  | sid
  | pointer
deriving DecidableEq, Repr

namespace InType

/-- The types in the order in which messages list them. -/
def all : List InType :=
  [int8, uint8, int16, uint16, int32, uint32, int64, uint64, float, double, boolean, hexInt32,
    hexInt64, unicodeString, ansiString, countedUnicodeString, countedAnsiString, binary,
    countedBinary, guid, fileTime, systemTime, sid, pointer]

/-- The name of a type in messages. -/
def title : InType → String
  | int8 => "Int8"
  | uint8 => "UInt8"
  | int16 => "Int16"
  | uint16 => "UInt16"
  | int32 => "Int32"
  | uint32 => "UInt32"
  | int64 => "Int64"
  | uint64 => "UInt64"
  | float => "Float"
  | double => "Double"
  | boolean => "Boolean"
  | hexInt32 => "HexInt32"
  | hexInt64 => "HexInt64"
  | unicodeString => "UnicodeString"
  | ansiString => "AnsiString"
  | countedUnicodeString => "CountedUnicodeString"
  | countedAnsiString => "CountedAnsiString"
  | binary => "Binary"
  | countedBinary => "CountedBinary"
  | guid => "Guid"
  | fileTime => "FileTime"
  | systemTime => "SystemTime"
  | sid => "Sid"
  | pointer => "Pointer"

/-- The spelling of a type in a manifest. -/
def name : InType → String
  | guid => "GUID"
  | fileTime => "FILETIME"
  | systemTime => "SYSTEMTIME"
  | sid => "SID"
  | other => other.title

/-- A manifest may also spell a type with the marker of the instrumentation namespace. -/
def qualifiedName (t : InType) : String :=
  "win:" ++ t.name

/-- All spellings, each type with its plain one first. -/
def spellings : List String :=
  all.flatMap fun t => [t.name, t.qualifiedName]

/-- The type of a spelling. -/
def ofName? (spelling : String) : Option InType :=
  all.find? fun t => t.name == spelling || t.qualifiedName == spelling

/-- Whether values of the type may have a length of their own. -/
def acceptsLength : InType → Bool
  | unicodeString | ansiString | binary => true
  | _ => false

end InType

end EventManifest
