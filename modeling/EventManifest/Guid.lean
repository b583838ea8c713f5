import EventManifest.Bytes

/-!
Globally unique identifiers and their text. A GUID is written as five groups of hexadecimal digits
joined by hyphens; a reader also takes it in one pair of braces and in upper case.
-/

namespace EventManifest

/-- A GUID in its four fields. The last field holds eight bytes as one word, the first of them
most significant, because they have no byte order of their own. -/
structure Guid where
  data1 : UInt32
  data2 : UInt16
  data3 : UInt16
  data4 : UInt64
deriving DecidableEq, Repr

namespace Guid

/-- Take away a brace at each end, if both are there. -/
def unbraceChars : List Char → List Char
  | [] => []
  | c :: rest =>
      if c = '\x7b' ∧ rest.getLast? = some '\x7d' then rest.dropLast else c :: rest

/-- Read exactly `width` hexadecimal digits. -/
def takeGroup? (width : Nat) (cs : List Char) : Option (Nat × List Char) :=
  if (cs.take width).length = width then
    (Text.readHex? (cs.take width)).map (·, cs.drop width)
  else none

/-- Step over a hyphen. -/
def takeHyphen? : List Char → Option (List Char)
  | '-' :: rest => some rest
  | _ => none

/-- Read five groups of 8, 4, 4, 4 and 12 digits with hyphens between them, and nothing more. -/
def ofGroups? (cs : List Char) : Option Guid := do
  let (data1, cs) ← takeGroup? 8 cs
  let cs ← takeHyphen? cs
  let (data2, cs) ← takeGroup? 4 cs
  let cs ← takeHyphen? cs
  let (data3, cs) ← takeGroup? 4 cs
  let cs ← takeHyphen? cs
  let (high, cs) ← takeGroup? 4 cs
  let cs ← takeHyphen? cs
  let (low, cs) ← takeGroup? 12 cs
  if cs.isEmpty then
    some
      { data1 := UInt32.ofNat data1
        data2 := UInt16.ofNat data2
        data3 := UInt16.ofNat data3
        data4 := UInt64.ofNat (high * 0x1000000000000 + low) }
  else none

/-- Read a GUID, with or without braces. -/
def ofString? (text : String) : Option Guid :=
  ofGroups? (unbraceChars text.toList)

/-- What is said of a text that is no GUID. -/
def malformedMessage (text : String) : String :=
  "malformed GUID '" ++ text ++ "'"

/-- The written form: lower case and without braces. -/
def toChars (g : Guid) : List Char :=
  Text.fixedHex 8 g.data1.toNat ++ '-' :: Text.fixedHex 4 g.data2.toNat ++
    '-' :: Text.fixedHex 4 g.data3.toNat ++
    '-' :: Text.fixedHex 4 (g.data4.toNat / 0x1000000000000) ++
    '-' :: Text.fixedHex 12 (g.data4.toNat % 0x1000000000000)

def toText (g : Guid) : String :=
  String.ofList g.toChars

/-- The eight bytes of the last field, in written order. -/
def tailBytes (g : Guid) : List UInt8 :=
  Bytes.bigEndian 8 g.data4.toNat

/-- The sixteen bytes in memory: the first three fields little-endian, then the last eight bytes
as written. -/
def toBytes (g : Guid) : List UInt8 :=
  Bytes.littleEndian 4 g.data1.toNat ++ Bytes.littleEndian 2 g.data2.toNat ++
    Bytes.littleEndian 2 g.data3.toNat ++ g.tailBytes

@[simp] theorem length_toBytes (g : Guid) : g.toBytes.length = 16 := by
  simp [toBytes, tailBytes]

end Guid

end EventManifest
