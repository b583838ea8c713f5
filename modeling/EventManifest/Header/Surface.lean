import EventManifest.Header.Options
import EventManifest.Plan.Basic

/-!
What the two dialects have in common: the spelling of expressions, parameters and initializers.
Where they differ, the difference is a field of `Surface`. A header is a list of lines.
-/

namespace EventManifest

/-- How a dialect spells expressions. -/
structure Surface where
  dialect : Dialect
  null : String
  /-- Conversions are written with the type in parentheses. -/
  plainCasts : Bool
  /-- Contexts and descriptors are passed by address. -/
  byAddress : Bool
  /-- What stands before the name of a system function. -/
  systemScope : String
deriving DecidableEq, Repr

namespace Surface

def functions : Surface :=
  ⟨.functions, "nullptr", false, false, "::"⟩

def macros : Surface :=
  ⟨.macros, "NULL", true, true, ""⟩

/-- Convert an expression to a type. -/
def cast (s : Surface) (type : NativeType) (expr : String) : String :=
  if s.plainCasts then "(" ++ type.spelling ++ ")(" ++ expr ++ ")"
  else if type.isPointer then "reinterpret_cast<" ++ type.spelling ++ ">(" ++ expr ++ ")"
  else "static_cast<" ++ type.spelling ++ ">(" ++ expr ++ ")"

/-- The text in the place of a null string. -/
def nullText (wide : Bool) : String :=
  if wide then "L\"NULL\"" else "\"NULL\""

def pointer (s : Surface) (names : Naming) : PointerExpr → String
  | .addressOf operand => "&" ++ operand.spell names
  | .value operand => operand.spell names
  | .stringOrNull index wide =>
      let x := names.data index
      "(" ++ x ++ " != " ++ s.null ++ ") ? " ++ x ++ " : " ++ nullText wide

/-- The factors, each with an asterisk behind it. -/
def factors (names : Naming) (operands : List Operand) : String :=
  String.join (operands.map fun operand => operand.spell names ++ " * ")

def sizeOf (text : String) : String :=
  "sizeof(" ++ text ++ ")"

def size (s : Surface) (names : Naming) : SizeExpr → String
  | .scaled element [] => sizeOf element.text
  | .scaled element (first :: rest) =>
      s.cast .ulong (factors names (first :: rest) ++ sizeOf element.text)
  | .bytes operand => operand.spell names
  | .terminatedString index wide =>
      let x := names.data index
      let length := if wide then "wcslen" else "strlen"
      let element : ElementType := if wide then .wideChar else .narrowChar
      "(" ++ x ++ " != " ++ s.null ++ ") ? " ++
        s.cast .ulong ("(" ++ length ++ "(" ++ x ++ ") + 1) * " ++ sizeOf element.text) ++ " : " ++
        s.cast .ulong (sizeOf (nullText wide))
  | .sid index =>
      let x := names.data index
      let sid := if s.plainCasts then "(PSID)(" ++ x ++ ")" else "const_cast<SID*>(" ++ x ++ ")"
      "GetLengthSid(" ++ sid ++ ")"

/-- The arguments with which a wrapper calls its template, converted where the types differ. -/
def arguments (s : Surface) (names : Naming) (parameters : List Parameter) : List String :=
  parameters.map fun p =>
    if p.needsCast then s.cast p.templateType (p.name names) else p.name names

/-- A context or descriptor as an argument. -/
def object (s : Surface) (name : String) : String :=
  if s.byAddress then "&" ++ name else name

/-- The function that writes the events of a template. -/
def templateFunction (s : Surface) (key : String) : String :=
  match s.dialect with
  | .functions => if key.isEmpty then "WriteNoPayload" else "Template_" ++ key
  | .macros => "McTemplateU0" ++ key

/-- The lines that fill a slot: what its caller has to know, and the call. -/
def slotLines (s : Surface) (index : Nat) (slot : Slot) : List String :=
  (slot.note.map fun note => "    // " ++ note.text .positional).toList ++
    ["    " ++ s.systemScope ++ s!"EventDataDescCreate(&EventData[{index}], " ++
      s.pointer .positional slot.pointer ++ ", " ++ s.size .positional slot.size ++ ");"]

/-- The lines that fill all slots of a template. The first slot is filled elsewhere. -/
def fillLines (s : Surface) (slots : List Slot) : List String :=
  slots.zipIdx.flatMap fun (slot, index) => s.slotLines (index + 1) slot

end Surface

namespace Header

/-- A parameter as a template declares it. -/
def templateParameter (p : Parameter) : String :=
  p.access.marker .positional ++ " " ++ p.templateType.spelling ++ " " ++ p.name .positional

/-- A parameter as a wrapper declares it. -/
def eventParameter (names : Naming) (p : Parameter) : String :=
  p.access.marker names ++ " " ++ p.eventType.spelling ++ " " ++ p.name names

/-- The parameters of an event's wrapper. -/
def wrapperParameters (w : EventWrite) : List String :=
  w.parameters.map (eventParameter (.named w.names))

def commaList (items : List String) : String :=
  ", ".intercalate items

/-- A call of the function that writes the events of a template. `scope` stands before its name. -/
def templateCall (s : Surface) (scope key : String) (arguments : List String) : String :=
  scope ++ s.templateFunction key ++ "(" ++ commaList arguments ++ ")"

/-- One item a line, with commas between them and `closing` after the last. -/
def itemLines (indent closing : String) : List String → List String
  | [] => []
  | [item] => [indent ++ item ++ closing]
  | item :: items => (indent ++ item ++ ",") :: itemLines indent closing items

def braced (items : List String) : String :=
  "\x7b" ++ commaList items ++ "\x7d"

/-- A hexadecimal literal of exactly so many digits. -/
def hexLiteral (width n : Nat) : String :=
  "0x" ++ String.ofList (Text.fixedHex width n)

/-- The shortest hexadecimal literal. -/
def shortHexLiteral (n : Nat) : String :=
  "0x" ++ Text.hex n

def guidInitializer (g : Guid) : String :=
  braced
    [hexLiteral 8 g.data1.toNat, hexLiteral 4 g.data2.toNat, hexLiteral 4 g.data3.toNat,
      braced (g.tailBytes.map fun byte => hexLiteral 2 byte.toNat)]

def descriptorInitializer (d : EventDescriptor) : String :=
  braced
    [hexLiteral 4 d.id.toNat, hexLiteral 2 d.version.toNat, hexLiteral 2 d.channel.toNat,
      hexLiteral 2 d.level.toNat, hexLiteral 2 d.opcode.toNat, hexLiteral 4 d.task.toNat,
      hexLiteral 16 d.keyword.toNat]

/-- The word of the enable bits that holds a bit. -/
def enableWord (bit : Nat) : Nat :=
  bit / 32

/-- The bit within its word. -/
def enableMask (bit : Nat) : Nat :=
  Nat.pow 2 (bit % 32)

/-- The test of a bit in an array of words. -/
def enableTest (bits : String) (bit : Nat) : String :=
  s!"(({bits}[{enableWord bit}] & " ++ hexLiteral 8 (enableMask bit) ++ "u) != 0)"

/-- The line that introduces a provider. -/
def providerComment (p : ProviderPlan) : String :=
  "// Provider \"" ++ p.name ++ "\" \x7b" ++ p.guid.toText ++ "\x7d"

/-- The fields of a provider's context, whose first ones are always zero. -/
def contextInitializer (s : Surface) (falseText : String) (p : ProviderPlan) : String :=
  let count := p.enableBits.length
  let array (name : String) : String := if count = 0 then s.null else p.symbol ++ name
  let (traits, traitsSize) :=
    match p.traits with
    | some bytes => (p.symbol ++ "_Traits", bytes.length)
    | none => (s.null, 0)
  braced
    ["0", "0", "0", "0", falseText, traits, s!"{traitsSize}", s!"{count}", array "_EnableBits",
      array "_Keywords", array "_Levels"]

def keywordList (p : ProviderPlan) : String :=
  braced (p.enableBits.map fun bit => shortHexLiteral bit.keyword.toNat)

def levelList (p : ProviderPlan) : String :=
  braced (p.enableBits.map fun bit => s!"{bit.level}")

/-- A group of lines with a blank line behind it, if there are any. -/
def paragraph (lines : List String) : List String :=
  if lines.isEmpty then [] else lines ++ [""]

end Header

end EventManifest
