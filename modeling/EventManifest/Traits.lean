import EventManifest.Defect
import EventManifest.Manifest.Provider

/-!
Provider traits: the bytes that accompany every event of a provider. They hold their total size in
two bytes, the provider's name up to a NUL, and, for a provider in a group, a part of nineteen
bytes with the group's GUID. A provider that asks for neither has no traits.
-/

namespace EventManifest.Traits

/-- The bytes of the group part: its size, its type, and the GUID. -/
def groupBytes (group : Guid) : List UInt8 :=
  Bytes.littleEndian 2 19 ++ 1 :: group.toBytes

/-- The bytes of the name, if it is asked for. -/
def nameBytes (p : Provider) : List UInt8 :=
  if p.includeNameInTraits then p.name.toUTF8.toList else []

/-- All that follows the size. -/
def body (p : Provider) : List UInt8 :=
  nameBytes p ++ 0 ::
    match p.controlGuid with
    | some group => groupBytes group
    | none => []

/-- The traits of a provider. Their size must fit its field. -/
def ofProvider (p : Provider) : Except Defect (Option (List UInt8)) :=
  if !p.includeNameInTraits && p.controlGuid.isNone then .ok none
  else
    let size := 2 + (body p).length
    if size < UInt16.size then .ok (some (Bytes.littleEndian 2 size ++ body p))
    else .error (.traitsTooLarge p.name size)

/-- Exactly `width` octal digits. -/
def fixedOctal : (width : Nat) → Nat → List Char
  | 0, _ => []
  | width + 1, n => fixedOctal width (n / 8) ++ [Nat.digitChar (n % 8)]

/-- A byte inside a string literal. Question marks are escaped so that no two of them meet, and an
octal escape has all its three digits so that it takes in no digit behind it. -/
def escapeByte (byte : UInt8) : List Char :=
  if byte = 0x22 then ['\\', '"']
  else if byte = 0x5c then ['\\', '\\']
  else if byte = 0x3f then ['\\', '?']
  else if 0x20 ≤ byte ∧ byte ≤ 0x7e then [Char.ofNat byte.toNat]
  else '\\' :: fixedOctal 3 byte.toNat

/-- The bytes as the body of a string literal. -/
def literal (bytes : List UInt8) : String :=
  String.ofList (bytes.flatMap escapeByte)

end EventManifest.Traits
