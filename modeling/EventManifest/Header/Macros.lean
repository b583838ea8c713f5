import EventManifest.Header.ActivityClass
import EventManifest.Header.MacrosShared
import EventManifest.Traits

/-!
Headers with macros over plain functions. There are no namespaces, and the classes of activities
come last, for compilers that know classes.
-/

namespace EventManifest.Header.Macros

/-- Declare data of which every source file may hold a copy. -/
def data (type name init : String) : String :=
  s!"EXTERN_C __declspec(selectany) {type} {name} = {init};"

def define (name value : String) : String :=
  s!"#define {name} {value}"

def preamble : List String :=
  ["// Generated by emc (Event Manifest Compiler). Do not edit.", "#pragma once", "",
    "#include <windows.h>", "#include <evntprov.h>", "#include <sal.h>", "#include <string.h>",
    "#include <wchar.h>", ""]

/-- What the functions of all templates take. -/
def commonParameters : List String :=
  ["_In_ PMCGEN_TRACE_CONTEXT Context", "_In_ PCEVENT_DESCRIPTOR Descriptor",
    "_In_opt_ const GUID* ActivityId", "_In_opt_ const GUID* RelatedActivityId"]

/-- What the function of a template takes. -/
def functionParameters (t : TemplatePlan) : List String :=
  commonParameters ++ t.parameters.map templateParameter

/-- The lines that declare the function of a template. -/
def functionHead (t : TemplatePlan) : List String :=
  ["DECLSPEC_NOINLINE __inline ULONG", s!"{Surface.macros.templateFunction t.key}("] ++
    itemLines "    " ")" (functionParameters t)

/-- The function of a template: it fills the slots and passes them on. -/
def templateLines (t : TemplatePlan) : List String :=
  let name := Surface.macros.templateFunction t.key
  let count := s!"{name}_ARGCOUNT"
  [s!"#ifndef {name}_def", s!"#define {name}_def", define count s!"{t.slotCount - 1}", ""] ++
    functionHead t ++
    ["\x7b", s!"    EVENT_DATA_DESCRIPTOR EventData[{count} + 1];", ""] ++
    paragraph (Surface.macros.fillLines t.slots) ++
    ["    return McGenEventWrite(Context, Descriptor, ActivityId, RelatedActivityId, " ++
        s!"{count} + 1, EventData);",
      "\x7d", s!"#endif // {name}_def", ""]

/-- Constants for everything a provider declares. -/
def constantLines (p : ProviderPlan) : List String :=
  let value (v : ResolvedValue) : String := define v.symbol (shortHexLiteral v.value.toNat)
  let message (s : ResolvedString) : Option String :=
    s.messageId.map fun id =>
      let digits := (Text.fixedHex 8 id.toNat).map Char.toUpper
      define s.symbol ("0x" ++ String.ofList digits ++ "L")
  paragraph <|
    (p.channels ++ p.levels ++ p.opcodes ++ p.tasks ++ p.keywords).map value ++
      p.maps.flatMap (fun m => m.items.map value) ++ p.strings.filterMap message

/-- The words of the enable bits. -/
def enableArrayLine (p : ProviderPlan) : String :=
  "EXTERN_C __declspec(selectany) DECLSPEC_CACHEALIGN ULONG " ++
    s!"{p.symbol}_EnableBits[{p.enableWords}];"

/-- The arrays of enable bits, which only a provider with logged events has. -/
def enableLines (p : ProviderPlan) : List String :=
  let count := p.enableBits.length
  if count = 0 then []
  else
    [enableArrayLine p,
      data "const ULONGLONG" s!"{p.symbol}_Keywords[{count}]" (keywordList p),
      data "const UCHAR" s!"{p.symbol}_Levels[{count}]" (levelList p)]

/-- The context of a provider. -/
def contextLine (p : ProviderPlan) : String :=
  data "MCGEN_TRACE_CONTEXT" (p.symbol ++ "_Context") (contextInitializer .macros "FALSE" p)

/-- The context of a provider and the macros that register it. -/
def contextLines (o : HeaderOptions) (p : ProviderPlan) : List String :=
  let context := p.symbol ++ "_Context"
  enableLines p ++ [contextLine p, ""] ++
    (if o.staticEntry then
      ["#pragma section(\".emc$m\", read)",
        "EXTERN_C __declspec(allocate(\".emc$m\")) __declspec(selectany) " ++
          s!"PMCGEN_TRACE_CONTEXT const {p.symbol}_StaticEntry = &{context};",
        ""]
    else []) ++
    [define s!"EventRegister{p.symbol}()" s!"McGenEventRegister(&{p.symbol}, &{context})",
      define s!"EventUnregister{p.symbol}()" s!"McGenEventUnregister(&{context})", ""]

/-- The test whether an event is enabled. -/
def testLine (p : ProviderPlan) (e : EventPlan) (w : EventWrite) : String :=
  define s!"EventEnabled{e.symbol}()" (enableTest (p.symbol ++ "_EnableBits") w.enableBit)

/-- The descriptor of an event, and for a logged one its test and its wrapper. -/
def eventLines (o : HeaderOptions) (p : ProviderPlan) (e : EventPlan) : List String :=
  [data "const EVENT_DESCRIPTOR" e.symbol (descriptorInitializer e.descriptor),
    define (e.symbol ++ "_value") (shortHexLiteral e.descriptor.id.toNat)] ++
    match e.write with
    | none => [""]
    | some w =>
        let names := Naming.named w.names
        let arguments :=
          ["&" ++ p.symbol ++ "_Context", "&" ++ e.symbol, "NULL", "NULL"] ++
            Surface.macros.arguments names w.parameters
        let parameters := commaList (w.parameters.map (Parameter.name names))
        let call := templateCall .macros "" w.templateKey arguments
        [testLine p e w,
          s!"#define {o.wrapperStem}{e.symbol}({parameters}) \\",
          s!"    (EventEnabled{e.symbol}() \\", s!"        ? {call} \\",
          "        : ERROR_SUCCESS)", ""]

/-- The constants by which a provider is known. -/
def identityLines (p : ProviderPlan) : List String :=
  [data "const GUID" p.symbol (guidInitializer p.guid)] ++
    (p.controlGuid.map fun g =>
      data "const GUID" (p.symbol ++ "_ControlGuid") (guidInitializer g)).toList ++
    (p.traits.map fun bytes =>
      data "const char" (p.symbol ++ "_Traits[]") ("\"" ++ Traits.literal bytes ++ "\"")).toList ++
    (if p.includeProcessName then [define (p.symbol ++ "_INCLUDE_PROCESS_NAME") "1"] else []) ++
    [""]

def providerLines (o : HeaderOptions) (p : ProviderPlan) : List String :=
  providerComment p :: identityLines p ++ (if o.constants then constantLines p else []) ++
    contextLines o p ++ p.events.flatMap (eventLines o p)

/-- The classes of all activities. -/
def activityLines (providers : List ProviderPlan) : List String :=
  if providers.all fun p => p.activities.isEmpty then []
  else
    ["#ifdef __cplusplus", ""] ++
      providers.flatMap (fun p => p.activities.flatMap (activityClass .macros "" p)) ++
      ["#endif // __cplusplus"]

/-- The lines of a header. -/
def lines (o : HeaderOptions) (plan : GenerationPlan) : List String :=
  preamble ++ traceContext ++ sharedCode ++ plan.templates.flatMap templateLines ++
    plan.providers.flatMap (providerLines o) ++ activityLines plan.providers

end EventManifest.Header.Macros
