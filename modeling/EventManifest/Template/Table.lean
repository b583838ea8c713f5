import EventManifest.KeyedTable
import EventManifest.Manifest.Provider
import EventManifest.Shape.Signature

/-!
The templates that are in use. Each stands in a table under the key of its properties, so that the
first template with a key is the one that is kept.
-/

namespace EventManifest

/-- The templates in use: for each key the properties of the first template with it. -/
abbrev TemplateTable := KeyedTable (List Property)

/-- The templates of a provider's events. -/
structure ProviderTemplates where
  /-- The key of each event, absent where the event is not logged. -/
  eventKeys : List (Option String)
  templates : TemplateTable

namespace ProviderTemplates

/-- Take in events from left to right. A defect is returned with the position of its event. -/
def collect (index : Nat) (templates : TemplateTable) :
    List Event → Except (Nat × Defect) ProviderTemplates
  | [] => .ok ⟨[], templates⟩
  | e :: events =>
      if e.notLogged then do
        let rest ← collect (index + 1) templates events
        return { rest with eventKeys := none :: rest.eventKeys }
      else
        match Template.keyOf e.properties with
        | .error defect => .error (index, defect)
        | .ok key => do
            let rest ← collect (index + 1) (templates.insert key e.properties) events
            return { rest with eventKeys := some key :: rest.eventKeys }

def ofEvents (events : List Event) : Except (Nat × Defect) ProviderTemplates :=
  collect 0 .empty events

end ProviderTemplates

end EventManifest
