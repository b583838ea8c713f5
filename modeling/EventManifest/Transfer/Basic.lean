import EventManifest.Shape.Signature
import EventManifest.Transfer.Expression

/-!
How a property travels from the caller to the event: which parameters it takes, and which slots of
the descriptor array it fills. All of this follows from the property's shape and position.
-/

namespace EventManifest

/-- Types that travel in the same way. -/
inductive TransferKind where
  /-- Numbers and truth values. -/
  | primitive
  /-- Records of a fixed size, passed by pointer. -/
  | fixedRecord
  | pointer
  /-- A block of bytes. -/
  | struct
  | sid
  /-- Characters, terminated unless a length is declared. -/
  | string (wide : Bool)
  /-- Characters behind their length. -/
  | countedString (wide : Bool)
  /-- Bytes with a declared length. -/
  | binary
  /-- Bytes behind their length. -/
  | countedBinary
deriving DecidableEq, Repr

def Category.transferKind : Category → TransferKind
  | .struct => .struct
  | .data inType =>
      match inType with
      | .int8 | .uint8 | .int16 | .uint16 | .int32 | .uint32 | .int64 | .uint64 | .float
      | .double | .boolean | .hexInt32 | .hexInt64 => .primitive
      | .guid | .fileTime | .systemTime => .fixedRecord
      | .pointer => .pointer
      | .sid => .sid
      | .unicodeString => .string true
      | .ansiString => .string false
      | .countedUnicodeString => .countedString true
      | .countedAnsiString => .countedString false
      | .binary => .binary
      | .countedBinary => .countedBinary

/-- A constant count of values with a constant length is one value of the length in total, unless
that exceeds 32 bits. The two have the same signature, so they have to travel alike. -/
def Shape.folded (s : Shape) : Shape :=
  match s.count, s.length with
  | some (.fixed c), some (.fixed l) =>
      if c.toNat * l.toNat < UInt32.size then
        { s with count := none, length := some (.fixed (c * l)) }
      else s
  | _, _ => s

/-- A property at its position, in folded shape. -/
structure Transfer where
  index : Nat
  shape : Shape
deriving DecidableEq, Repr

/-- What a parameter is for. -/
inductive ParameterRole where
  /-- The bytes or elements in the data parameter behind it. -/
  | length
  | data
deriving DecidableEq, Repr

structure Parameter where
  property : Nat
  role : ParameterRole
  /-- The type in the template, which is the same for all events that share it. -/
  templateType : NativeType
  /-- The type in the wrapper of the event. -/
  eventType : NativeType
  access : Access
deriving DecidableEq, Repr

namespace Parameter

def name (names : Naming) (p : Parameter) : String :=
  match p.role with
  | .length => names.length p.property
  | .data => names.data p.property

/-- The wrapper has to convert its argument. -/
def needsCast (p : Parameter) : Bool :=
  p.templateType != p.eventType

def isPointer (p : Parameter) : Bool :=
  p.templateType.isPointer

end Parameter

namespace Transfer

/-- How the property at a position travels. -/
def ofShape (index : Nat) (s : Shape) : Transfer :=
  ⟨index, s.folded⟩

/-- How the properties of a template travel, or the first defect among them. -/
def ofProperties (properties : List Property) : Except Defect (List Transfer) := do
  return (← Shape.resolveAll properties).zipIdx.map fun (s, index) => ofShape index s

def kind (t : Transfer) : TransferKind :=
  t.shape.category.transferKind

def count (t : Transfer) : Option Operand :=
  t.shape.count.map .ofBound

def length (t : Transfer) : Option Operand :=
  t.shape.length.map .ofBound

/-- The factors that are there, the count first. -/
def countAndLength (t : Transfer) : List Operand :=
  t.count.toList ++ t.length.toList

def isArray (t : Transfer) : Bool :=
  t.shape.count.isSome

/-- An array of values without a common size travels as one block, which the caller packs. -/
def isPacked (t : Transfer) : Bool :=
  t.isArray &&
    match t.kind with
    | .struct | .sid | .string _ | .countedString _ | .countedBinary => true
    | .primitive | .fixedRecord | .pointer | .binary => false

/-- Whether the caller passes a length beside the data. -/
def needsLength (t : Transfer) : Bool :=
  match t.kind with
  | .struct | .countedString _ | .countedBinary => true
  | .sid => t.isPacked
  | .string _ => t.isPacked && t.shape.length.isNone
  | .primitive | .fixedRecord | .pointer | .binary => false

/-- Whether the length goes into a slot of its own before the data. -/
def hasLengthSlot (t : Transfer) : Bool :=
  !t.isPacked &&
    match t.kind with
    | .countedString _ | .countedBinary => true
    | _ => false

/-- The number of slots the property fills. -/
def slotCount (t : Transfer) : Nat :=
  if t.hasLengthSlot then 2 else 1

def lengthType (t : Transfer) : NativeType :=
  if t.hasLengthSlot then .ushort else .ulong

/-- The type whose size scales the data. -/
def elementType (t : Transfer) : ElementType :=
  match t.kind, t.shape.category with
  | .primitive, .data inType => inType.widthElement
  | .primitive, .struct => .bool
  | .fixedRecord, .data .fileTime => .fileTime
  | .fixedRecord, .data .systemTime => .systemTime
  | .fixedRecord, _ => .guid
  | .pointer, _ => .voidPointer
  | .string true, _ | .countedString true, _ => .wideChar
  | .string false, _ | .countedString false, _ => .narrowChar
  | .struct, _ | .sid, _ | .binary, _ | .countedBinary, _ => .byte

/-- The exact type of a number. -/
def exactType (t : Transfer) : ElementType :=
  match t.shape.category with
  | .data inType => inType.exactElement
  | .struct => .bool

/-- The types of the data parameter in the template and in the wrapper. -/
def dataTypes (t : Transfer) : NativeType × NativeType :=
  match t.kind with
  | .primitive =>
      if t.isArray then (.pointer t.elementType, .pointer t.exactType)
      else (.value t.elementType, .value t.exactType)
  | .fixedRecord => (.pointer t.elementType, .pointer t.elementType)
  | .pointer => if t.isArray then (.pointers, .pointers) else (.untyped, .untyped)
  | .sid => if t.isPacked then (.untyped, .untyped) else (.sid, .sid)
  | .string wide => if t.needsLength then (.untyped, .untyped) else (.text wide, .text wide)
  | .countedString wide => if t.isPacked then (.untyped, .untyped) else (.text wide, .text wide)
  | .struct | .binary | .countedBinary => (.untyped, .untyped)

/-- What is promised about the data parameter. -/
def dataAccess (t : Transfer) : Access :=
  match t.kind with
  | .primitive | .fixedRecord =>
      match t.count with
      | some count => .elements [count]
      | none => .single
  | .pointer =>
      match t.count with
      | some count => .elements [count]
      | none => ⟨true, false, .single⟩
  | .sid => if t.isPacked then .bytes [.lengthArg t.index] else .single
  | .string _ =>
      if t.needsLength then .bytes [.lengthArg t.index]
      else if t.shape.length.isSome then .elements t.countAndLength
      else ⟨true, true, .single⟩
  | .binary => .bytes t.countAndLength
  | .struct | .countedString _ | .countedBinary => .bytes [.lengthArg t.index]

def dataParameter (t : Transfer) : Parameter :=
  ⟨t.index, .data, t.dataTypes.1, t.dataTypes.2, t.dataAccess⟩

def lengthParameter (t : Transfer) : Parameter :=
  ⟨t.index, .length, t.lengthType, t.lengthType, .single⟩

/-- The parameters in the order of the call: the length, if there is one, and the data. -/
def parameters (t : Transfer) : List Parameter :=
  if t.needsLength then [t.lengthParameter, t.dataParameter] else [t.dataParameter]

def dataPointer (t : Transfer) : PointerExpr :=
  match t.kind with
  | .primitive | .pointer => if t.isArray then .value (.arg t.index) else .addressOf (.arg t.index)
  | .string wide =>
      if !t.isArray && t.shape.length.isNone then .stringOrNull t.index wide
      else .value (.arg t.index)
  | .fixedRecord | .struct | .sid | .countedString _ | .binary | .countedBinary =>
      .value (.arg t.index)

def dataSize (t : Transfer) : SizeExpr :=
  match t.kind with
  | .primitive | .fixedRecord | .pointer => .scaled t.elementType t.count.toList
  | .sid => if t.isPacked then .bytes (.lengthArg t.index) else .sid t.index
  | .string wide =>
      if t.needsLength then .bytes (.lengthArg t.index)
      else if t.shape.length.isSome then .scaled t.elementType t.countAndLength
      else .terminatedString t.index wide
  | .binary => .scaled t.elementType t.countAndLength
  | .struct | .countedString _ | .countedBinary => .bytes (.lengthArg t.index)

/-- The slot of the length, if it has one. -/
def lengthSlot (t : Transfer) : Option (PointerExpr × SizeExpr) :=
  if t.hasLengthSlot then some (.addressOf (.lengthArg t.index), .scaled .ushort []) else none

/-- What the caller has to know about a packed array. -/
def packingNote (t : Transfer) : Option PackingNote :=
  match t.count with
  | none => none
  | some count =>
      match t.kind with
      | .countedString _ | .countedBinary => some (.chunks count)
      | .string _ =>
          match t.length with
          | some length => some (.equalStrings count length)
          | none => some (.terminatedStrings count)
      | .sid => some (.sids count)
      | .struct => some (.structs count)
      | .primitive | .fixedRecord | .pointer | .binary => none

end Transfer

end EventManifest
