import EventManifest.Header.ActivityClass
import EventManifest.Header.FunctionsShared
import EventManifest.Traits

/-!
Headers with inline functions. What headers share stands in the shared namespace, each part behind a
guard; the declarations of the providers stand in the enclosing namespace, if there is one.
-/

namespace EventManifest.Header.Functions

/-- The parts of a namespace's name. -/
def splitScopes (part : List Char) : List Char → List (List Char)
  | [] => [part.reverse]
  | ':' :: ':' :: rest => part.reverse :: splitScopes [] rest
  | c :: rest => splitScopes (c :: part) rest

def scopes (name : String) : List String :=
  (splitScopes [] name.toList).map String.ofList

/-- Open a namespace. The older standard nests its parts. -/
def openNamespace (standard : Standard) (name : String) : List String :=
  let opened :=
    match standard with
    | .cxx17 => s!"namespace {name} \x7b"
    | .cxx11 => " ".intercalate ((scopes name).map fun part => s!"namespace {part} \x7b")
  [opened, ""]

def closeNamespace (standard : Standard) (name : String) : List String :=
  let closed :=
    match standard with
    | .cxx17 => "\x7d"
    | .cxx11 => " ".intercalate ((scopes name).map fun _ => "\x7d")
  [s!"{closed} // namespace {name}", ""]

/-- A constant. -/
def constant (standard : Standard) (type name init : String) : String :=
  match standard with
  | .cxx17 => s!"inline constexpr {type} {name} = {init};"
  | .cxx11 => s!"__declspec(selectany) extern const {type} {name} = {init};"

/-- A variable. -/
def variableLine (standard : Standard) (type name init : String) : String :=
  match standard with
  | .cxx17 => s!"inline {type} {name} = {init};"
  | .cxx11 => s!"__declspec(selectany) {type} {name} = {init};"

/-- The head of a function. -/
def signature (head : String) (parameters : List String) (tail : String) : List String :=
  if parameters.isEmpty then [s!"{head}(){tail}"]
  else s!"{head}(" :: itemLines "    " (")" ++ tail) parameters

def preamble : List String :=
  ["// Generated by emc (Event Manifest Compiler). Do not edit.", "#pragma once", "",
    "#include <windows.h>", "#include <evntprov.h>", "#include <sal.h>", "#include <cstring>",
    "#include <cwchar>", ""]

def sharedLines (o : HeaderOptions) : List String :=
  ["#ifndef EMC_RUNTIME_DEFINED", "#define EMC_RUNTIME_DEFINED", ""] ++
    openNamespace o.standard o.shared ++ sharedCode ++ [""] ++ closeNamespace o.standard o.shared ++
    ["#endif // EMC_RUNTIME_DEFINED", ""]

/-- What is defined once the function of a template is. -/
def templateGuard (t : TemplatePlan) : String :=
  s!"EMC_{Surface.functions.templateFunction t.key}_DEFINED"

/-- What the functions of all templates take. -/
def commonParameters : List String :=
  ["const ProviderContext& Context", "const EVENT_DESCRIPTOR& Descriptor",
    "_In_opt_ const GUID* ActivityId", "_In_opt_ const GUID* RelatedActivityId"]

/-- What the function of a template takes. -/
def functionParameters (t : TemplatePlan) : List String :=
  commonParameters ++ t.parameters.map templateParameter

/-- The lines that declare the function of a template. -/
def functionHead (t : TemplatePlan) : List String :=
  signature s!"inline ULONG {Surface.functions.templateFunction t.key}" (functionParameters t)
    " noexcept"

/-- The function of a template: it fills the slots and passes them on. -/
def templateLines (t : TemplatePlan) : List String :=
  [s!"#ifndef {templateGuard t}", s!"#define {templateGuard t}"] ++ functionHead t ++
    ["\x7b", s!"    EVENT_DATA_DESCRIPTOR EventData[{t.slotCount}];"] ++
    Surface.functions.fillLines t.slots ++
    ["    return WriteEvent(Context, Descriptor, ActivityId, RelatedActivityId, " ++
        s!"{t.slotCount}, EventData);",
      "\x7d", s!"#endif // {templateGuard t}", ""]

def templatesLines (o : HeaderOptions) (templates : List TemplatePlan) : List String :=
  if templates.isEmpty then []
  else
    openNamespace o.standard o.shared ++ templates.flatMap templateLines ++
      closeNamespace o.standard o.shared

/-- Constants for everything a provider declares. -/
def constantLines (o : HeaderOptions) (p : ProviderPlan) : List String :=
  let number (type : String) (v : ResolvedValue) : String :=
    constant o.standard type v.symbol s!"{v.value}"
  let bits (type : String) (v : ResolvedValue) : String :=
    constant o.standard type v.symbol (shortHexLiteral v.value.toNat)
  let message (s : ResolvedString) : Option String :=
    s.messageId.map fun id => constant o.standard "ULONG" s.symbol (hexLiteral 8 id.toNat)
  paragraph <|
    p.channels.map (number "UCHAR") ++ p.levels.map (number "UCHAR") ++
      p.opcodes.map (number "UCHAR") ++ p.tasks.map (number "USHORT") ++
      p.keywords.map (bits "ULONGLONG") ++
      p.maps.flatMap (fun m => m.items.map (bits "ULONG")) ++ p.strings.filterMap message

/-- The words of the enable bits. -/
def enableArrayLine (o : HeaderOptions) (p : ProviderPlan) : String :=
  variableLine o.standard "ULONG" s!"{p.symbol}_EnableBits[{p.enableWords}]" "\x7b\x7d"

/-- The arrays of enable bits, which only a provider with logged events has. -/
def enableLines (o : HeaderOptions) (p : ProviderPlan) : List String :=
  let count := p.enableBits.length
  if count = 0 then []
  else
    [enableArrayLine o p,
      constant o.standard "ULONGLONG" s!"{p.symbol}_Keywords[{count}]" (keywordList p),
      constant o.standard "UCHAR" s!"{p.symbol}_Levels[{count}]" (levelList p)]

/-- The type of a context. -/
def contextType (o : HeaderOptions) : String :=
  o.shared ++ "::ProviderContext"

/-- The context of a provider. -/
def contextLine (o : HeaderOptions) (p : ProviderPlan) : String :=
  variableLine o.standard (contextType o) (p.symbol ++ "_Context")
    (contextInitializer .functions "false" p)

/-- The context of a provider and the functions that register it. -/
def contextLines (o : HeaderOptions) (p : ProviderPlan) : List String :=
  let context := p.symbol ++ "_Context"
  enableLines o p ++ [contextLine o p, ""] ++
    (if o.staticEntry then
      ["#pragma section(\".emc$m\", read)",
        s!"__declspec(allocate(\".emc$m\")) __declspec(selectany) {contextType o}* const " ++
          s!"{p.symbol}_StaticEntry = &{context};",
        ""]
    else []) ++
    [s!"inline ULONG Register{p.symbol}() noexcept", "\x7b",
      s!"    return {o.shared}::Register({p.symbol}_Guid, {context});", "\x7d", "",
      s!"inline ULONG Unregister{p.symbol}() noexcept", "\x7b",
      s!"    return {o.shared}::Unregister({context});", "\x7d", ""]

/-- What the test of an event returns. -/
def testLine (p : ProviderPlan) (w : EventWrite) : String :=
  "    return " ++ enableTest (p.symbol ++ "_EnableBits") w.enableBit ++ ";"

/-- The test whether an event is enabled. -/
def enabledLines (p : ProviderPlan) (e : EventPlan) (w : EventWrite) : List String :=
  [s!"inline bool EventEnabled{e.symbol}() noexcept", "\x7b", testLine p w, "\x7d"]

/-- The descriptor of an event, and for a logged one its test and its wrapper. -/
def eventLines (o : HeaderOptions) (p : ProviderPlan) (e : EventPlan) : List String :=
  constant o.standard "EVENT_DESCRIPTOR" e.symbol (descriptorInitializer e.descriptor) ::
    match e.write with
    | none => [""]
    | some w =>
        let arguments :=
          [p.symbol ++ "_Context", e.symbol, "nullptr", "nullptr"] ++
            Surface.functions.arguments (.named w.names) w.parameters
        let call := templateCall .functions (o.shared ++ "::") w.templateKey arguments
        enabledLines p e w ++
          signature s!"inline ULONG {o.wrapperStem}{e.symbol}" (wrapperParameters w) " noexcept" ++
          ["\x7b", s!"    return EventEnabled{e.symbol}()", s!"        ? {call}",
            "        : ERROR_SUCCESS;", "\x7d", ""]

/-- The constants by which a provider is known. -/
def identityLines (o : HeaderOptions) (p : ProviderPlan) : List String :=
  [constant o.standard "GUID" (p.symbol ++ "_Guid") (guidInitializer p.guid)] ++
    (p.controlGuid.map fun g =>
      constant o.standard "GUID" (p.symbol ++ "_ControlGuid") (guidInitializer g)).toList ++
    (p.traits.map fun bytes =>
      constant o.standard "char" (p.symbol ++ "_Traits[]")
        ("\"" ++ Traits.literal bytes ++ "\"")).toList ++
    (if p.includeProcessName then
      [constant o.standard "bool" (p.symbol ++ "_IncludeProcessName") "true"]
    else []) ++
    [""]

def providerLines (o : HeaderOptions) (p : ProviderPlan) : List String :=
  [providerComment p, ""] ++ identityLines o p ++
    (if o.constants then constantLines o p else []) ++ contextLines o p ++
    p.events.flatMap (eventLines o p) ++
    p.activities.flatMap (activityClass .functions (o.shared ++ "::") p)

/-- The lines of a header. -/
def lines (o : HeaderOptions) (plan : GenerationPlan) : List String :=
  let providers := plan.providers.flatMap (providerLines o)
  let enclosed :=
    if plan.providers.isEmpty then []
    else
      match o.enclosing with
      | some name => openNamespace o.standard name ++ providers ++ closeNamespace o.standard name
      | none => providers
  preamble ++ sharedLines o ++ templatesLines o plan.templates ++ enclosed

end EventManifest.Header.Functions
