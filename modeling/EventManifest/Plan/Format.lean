import EventManifest.Json.Value
import EventManifest.Plan.Basic

/-!
The plan as a document, for other tools. Members come in the order of the fields, and an absent
value is null. A choice is written as an object with its name as only key, or as its name alone.
-/

namespace EventManifest

namespace Operand

def toJson : Operand → Json
  | literal value => .object [("Literal", .nat value)]
  | arg index => .object [("Arg", .nat index)]
  | lengthArg index => .object [("LengthArg", .nat index)]

end Operand

def PointerExpr.toJson : PointerExpr → Json
  | addressOf operand => .object [("AddressOf", operand.toJson)]
  | value operand => .object [("Value", operand.toJson)]
  | stringOrNull index wide =>
      .object [("StringOrNull", .object [("arg", .nat index), ("wide", .bool wide)])]

def SizeExpr.toJson : SizeExpr → Json
  | scaled element factors =>
      .object
        [("Scaled",
          .object [("ty", .string element.text), ("factors", .ofList Operand.toJson factors)])]
  | bytes operand => .object [("Bytes", operand.toJson)]
  | terminatedString index wide =>
      .object [("TerminatedString", .object [("arg", .nat index), ("wide", .bool wide)])]
  | sid index => .object [("Sid", .object [("arg", .nat index)])]

def Extent.toJson : Extent → Json
  | single => .string "Single"
  | elements factors => .object [("Elements", .ofList Operand.toJson factors)]
  | bytes factors => .object [("Bytes", .ofList Operand.toJson factors)]

def Access.toJson (a : Access) : Json :=
  .object
    [("optional", .bool a.optional), ("zero_terminated", .bool a.zeroTerminated),
      ("extent", a.extent.toJson)]

def ParameterRole.toJson : ParameterRole → Json
  | length => .string "Length"
  | data => .string "Data"

def Parameter.toJson (p : Parameter) : Json :=
  .object
    [("property", .nat p.property), ("role", p.role.toJson),
      ("template_type", .string p.templateType.spelling),
      ("event_type", .string p.eventType.spelling), ("annotation", p.access.toJson)]

def Slot.toJson (s : Slot) : Json :=
  .object
    [("property", .nat s.property), ("ptr", s.pointer.toJson), ("size", s.size.toJson),
      ("comment", .ofOption .string (s.note.map (PackingNote.text .positional)))]

/-- The slots of a template as a document. -/
def layoutToJson (slots : List Slot) : Json :=
  .object [("slots", .ofList Slot.toJson slots)]

def TemplatePlan.toJson (t : TemplatePlan) : Json :=
  .object
    [("key", .string t.key), ("params", .ofList Parameter.toJson t.parameters),
      ("layout", layoutToJson t.slots), ("slot_count", .nat t.slotCount)]

def Guid.toJson (g : Guid) : Json :=
  .string g.toText

def ResolvedValue.toJson (v : ResolvedValue) : Json :=
  .object [("symbol", .string v.symbol), ("value", .nat v.value.toNat)]

def ResolvedMap.toJson (m : ResolvedMap) : Json :=
  .object
    [("symbol", .string m.symbol), ("kind", .string m.kind.name),
      ("items", .ofList ResolvedValue.toJson m.items)]

def ResolvedString.toJson (s : ResolvedString) : Json :=
  .object
    [("symbol", .string s.symbol),
      ("message_id", .ofOption (fun id => .nat id.toNat) s.messageId)]

def EventDescriptor.toJson (d : EventDescriptor) : Json :=
  .object
    [("id", .nat d.id.toNat), ("version", .nat d.version.toNat), ("channel", .nat d.channel.toNat),
      ("level", .nat d.level.toNat), ("opcode", .nat d.opcode.toNat), ("task", .nat d.task.toNat),
      ("keyword", .nat d.keyword.toNat)]

def EnableBit.toJson (b : EnableBit) : Json :=
  .object [("level", .nat b.level.toNat), ("keyword", .nat b.keyword.toNat)]

def EventWrite.toJson (w : EventWrite) : Json :=
  .object
    [("enable_bit", .nat w.enableBit), ("template_key", .string w.templateKey),
      ("params", .ofList Parameter.toJson w.parameters), ("names", .ofList .string w.names)]

def EventPlan.toJson (e : EventPlan) : Json :=
  .object
    [("symbol", .string e.symbol), ("descriptor", e.descriptor.toJson),
      ("write", .ofOption EventWrite.toJson e.write)]

def ActivityPair.toJson (a : ActivityPair) : Json :=
  .object [("symbol", .string a.symbol), ("start", .nat a.start), ("stop", .nat a.stop)]

/-- Traits are written byte by byte. -/
def traitsToJson (bytes : List UInt8) : Json :=
  .object [("bytes", .ofList (fun byte => .nat byte.toNat) bytes)]

def ProviderPlan.toJson (p : ProviderPlan) : Json :=
  .object
    [("name", .string p.name), ("symbol", .string p.symbol), ("guid", p.guid.toJson),
      ("control_guid", .ofOption Guid.toJson p.controlGuid),
      ("traits", .ofOption traitsToJson p.traits),
      ("include_process_name", .bool p.includeProcessName),
      ("channels", .ofList ResolvedValue.toJson p.channels),
      ("levels", .ofList ResolvedValue.toJson p.levels),
      ("tasks", .ofList ResolvedValue.toJson p.tasks),
      ("opcodes", .ofList ResolvedValue.toJson p.opcodes),
      ("keywords", .ofList ResolvedValue.toJson p.keywords),
      ("maps", .ofList ResolvedMap.toJson p.maps),
      ("strings", .ofList ResolvedString.toJson p.strings),
      ("enable_bits", .ofList EnableBit.toJson p.enableBits),
      ("events", .ofList EventPlan.toJson p.events),
      ("activities", .ofList ActivityPair.toJson p.activities)]

def GenerationPlan.toJson (p : GenerationPlan) : Json :=
  .object
    [("providers", .ofList ProviderPlan.toJson p.providers),
      ("templates", .ofList TemplatePlan.toJson p.templates)]

end EventManifest
