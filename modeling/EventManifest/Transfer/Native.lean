import EventManifest.Manifest.InType

/-!
The types of generated parameters.
-/

namespace EventManifest

/-- Types with a size of their own. -/
inductive ElementType where
  | uint8
  | uint16
  | uint32
  | uint64
  | int8
  | int16
  | int32
  | int64
  | float
  | double
  | bool
  | guid
  | fileTime
  | systemTime
  | voidPointer
  | wideChar
  | narrowChar
  | byte
  | ushort
deriving DecidableEq, Repr

def ElementType.text : ElementType → String
  | uint8 => "UINT8"
  | uint16 => "UINT16"
  | uint32 => "UINT32"
  | uint64 => "UINT64"
  | int8 => "INT8"
  | int16 => "INT16"
  | int32 => "INT32"
  | int64 => "INT64"
  | float => "FLOAT"
  | double => "DOUBLE"
  | bool => "BOOL"
  | guid => "GUID"
  | fileTime => "FILETIME"
  | systemTime => "SYSTEMTIME"
  | voidPointer => "void*"
  | wideChar => "WCHAR"
  | narrowChar => "CHAR"
  | byte => "BYTE"
  | ushort => "USHORT"

/-- The type of a parameter. Whatever it points to is only read. -/
inductive NativeType where
  | value (element : ElementType)
  | pointer (element : ElementType)
  /-- An array of untyped pointers. -/
  | pointers
  /-- An untyped pointer. -/
  | untyped
  | sid
  /-- A pointer to characters. -/
  | text (wide : Bool)
  | ushort
  | ulong
deriving DecidableEq, Repr

namespace NativeType

def spelling : NativeType → String
  | value element => element.text
  | pointer element => "const " ++ element.text ++ "*"
  | pointers => "const void* const*"
  | untyped => "const void*"
  | sid => "const SID*"
  | text true => "PCWSTR"
  | text false => "PCSTR"
  | ushort => "USHORT"
  | ulong => "ULONG"

/-- Whether the spelling ends in an asterisk. Pointers to characters have names of their own. -/
def isPointer : NativeType → Bool
  | pointer _ | pointers | untyped | sid => true
  | value _ | text _ | ushort | ulong => false

end NativeType

namespace InType

/-- The unsigned type of the same width, which templates use. Only called for numbers. -/
def widthElement : InType → ElementType
  | int8 | uint8 => .uint8
  | int16 | uint16 => .uint16
  | int32 | uint32 | hexInt32 => .uint32
  | int64 | uint64 | hexInt64 => .uint64
  | float => .float
  | double => .double
  | _ => .bool

/-- The exact type, which the wrappers of events use. Only called for numbers. -/
def exactElement : InType → ElementType
  | int8 => .int8
  | int16 => .int16
  | int32 => .int32
  | int64 => .int64
  | other => other.widthElement

end InType

end EventManifest
