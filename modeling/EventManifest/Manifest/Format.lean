import EventManifest.Manifest.PropertyFormat
import EventManifest.Manifest.Provider

/-!
Manifests in a document: the tables of fields, and reading a manifest from text. The order of the
fields is the order in which a manifest is written.
-/

namespace EventManifest

open Json

namespace Guid

/-- A GUID is given by its text. -/
def codec : Codec Tree Guid where
  read room tree := do
    let text ← Codec.text.read room tree
    match ofString? text with
    | some guid => return guid
    | none => reject (.refused (malformedMessage text))
  write guid := .string guid.toText

end Guid

namespace MapKind

def choose (spelling : String) : Except Fault MapKind :=
  chooseVariant ofName? (all.map name) spelling

/-- A kind is given by its name, or by an object with the name as only key and null under it. What
stands there instead of text or an object is not looked at. -/
def ofTree (room : Nat) : Tree → Except Fault MapKind
  | .quoted spelling => do choose (← orDamaged spelling.read)
  | .object members atKey ending => enter room fun _ => do
      match members with
      | [] => do
          orDamaged ending.check
          breakOff .malformed
      | (spelling, content) :: more => do
          let kind ← choose (← orDamaged spelling.read)
          match ← content.found with
          | .null => .ok ()
          | other => reject (.invalidType other "unit")
          if more.isEmpty && !atKey then orDamaged ending.check else breakOff .malformed
          return kind
  | .absent damage => breakOff damage
  | _ => breakOff .malformed

def codec : Codec Tree MapKind where
  read := ofTree
  write kind := .string kind.name

end MapKind

def namedValueRecord {α : Type} (value : Codec Tree α) : Record Tree (NamedValue α) where
  name := "NamedValue"
  fields := [.required "name" .text, .required "value" value, .optional "symbol" .text]
  build := fun (name, value, symbol, ()) => ⟨name, value, symbol⟩
  parts v := (v.name, v.value, v.symbol, ())

def keywordRecord : Record Tree Keyword where
  name := "Keyword"
  fields := [.required "name" .text, .required "mask" .word64, .optional "symbol" .text]
  build := fun (name, mask, symbol, ()) => ⟨name, mask, symbol⟩
  parts k := (k.name, k.mask, k.symbol, ())

def mapItemRecord : Record Tree MapItem where
  name := "MapItem"
  fields := [.required "value" .word32, .optional "symbol" .text, .optional "message" .text]
  build := fun (value, symbol, message, ()) => ⟨value, symbol, message⟩
  parts i := (i.value, i.symbol, i.message, ())

def valueMapRecord : Record Tree ValueMap where
  name := "Map"
  fields :=
    [.required "name" .text, .required "kind" MapKind.codec, .optional "symbol" .text,
      .defaulted "items" mapItemRecord.codec.list []]
  build := fun (name, kind, symbol, items, ()) => ⟨name, kind, symbol, items⟩
  parts m := (m.name, m.kind, m.symbol, m.items, ())

def localizedStringRecord : Record Tree LocalizedString where
  name := "LocalizedString"
  fields :=
    [.required "id" .text, .required "value" .text, .optional "symbol" .text,
      .optional "message_id" .word32]
  build := fun (id, value, symbol, messageId, ()) => ⟨id, value, symbol, messageId⟩
  parts s := (s.id, s.value, s.symbol, s.messageId, ())

def templateRecord : Record Tree Template where
  name := "Template"
  fields := [.defaulted "properties" Property.codec.list []]
  build := fun (properties, ()) => ⟨properties⟩
  parts t := (t.properties, ())

def eventRecord : Record Tree Event where
  name := "Event"
  fields :=
    [.required "value" .word16, .defaulted "version" .word8 0, .optional "channel" .text,
      .optional "level" .text, .optional "task" .text, .optional "opcode" .text,
      .defaulted "keywords" (Codec.list .text) [], .defaulted "not_logged" .flag false,
      .optional "symbol" .text, .optional "template" templateRecord.codec]
  build := fun
    (value, version, channel, level, task, opcode, keywords, notLogged, symbol, template, ()) =>
    ⟨value, version, channel, level, task, opcode, keywords, notLogged, symbol, template⟩
  parts e :=
    (e.value, e.version, e.channel, e.level, e.task, e.opcode, e.keywords, e.notLogged, e.symbol,
      e.template, ())

def providerRecord : Record Tree Provider where
  name := "Provider"
  fields :=
    [.required "name" .text, .required "guid" Guid.codec, .optional "control_guid" Guid.codec,
      .optional "symbol" .text, .defaulted "include_name_in_traits" .flag false,
      .defaulted "include_process_name" .flag false,
      .defaulted "channels" (namedValueRecord .word8).codec.list [],
      .defaulted "levels" (namedValueRecord .word8).codec.list [],
      .defaulted "tasks" (namedValueRecord .word16).codec.list [],
      .defaulted "opcodes" (namedValueRecord .word8).codec.list [],
      .defaulted "keywords" keywordRecord.codec.list [],
      .defaulted "maps" valueMapRecord.codec.list [],
      .defaulted "strings" localizedStringRecord.codec.list [],
      .defaulted "events" eventRecord.codec.list []]
  build := fun
    (name, guid, controlGuid, symbol, includeName, includeProcess, channels, levels, tasks,
      opcodes, keywords, maps, strings, events, ()) =>
    ⟨name, guid, controlGuid, symbol, includeName, includeProcess, channels, levels, tasks,
      opcodes, keywords, maps, strings, events⟩
  parts p :=
    (p.name, p.guid, p.controlGuid, p.symbol, p.includeNameInTraits, p.includeProcessName,
      p.channels, p.levels, p.tasks, p.opcodes, p.keywords, p.maps, p.strings, p.events, ())

def manifestRecord : Record Tree Manifest where
  name := "Manifest"
  fields := [.required "providers" providerRecord.codec.list]
  build := fun (providers, ()) => ⟨providers⟩
  parts m := (m.providers, ())

/-- Arrays and objects in a text may nest 127 deep. -/
def maximalDepth : Nat :=
  127

namespace Manifest

/-- Read a manifest from the characters of a text. After it nothing but blanks may follow. -/
def ofChars (text : List Char) : Except Fault Manifest := do
  let state := Tree.scan text
  let manifest ← manifestRecord.ofTree maximalDepth state.tree
  orDamaged state.check
  return manifest

def ofText (text : String) : Except Fault Manifest :=
  ofChars text.toList

def toJson (m : Manifest) : Json :=
  manifestRecord.codec.write m

end Manifest

end EventManifest
