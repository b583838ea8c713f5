import EventManifest.Proofs.Header.TraitsSize
import EventManifest.Proofs.Plan.Agreement
import EventManifest.Proofs.Plan.Existence
import EventManifest.Proofs.Plan.Outline
import EventManifest.Proofs.Plan.Reports
import EventManifest.Proofs.Text.Slice

/-!
Why a provider is refused. Its traits are judged first, then the templates of its logged events in
their order, and the first of these that has a defect is reported. Nothing is refused after that,
and nobody looks at the templates of events that are not logged.
-/

namespace EventManifest

/-- The report of an error, field by field. -/
structure Diagnostic.Reports (d : Diagnostic) (location : Location) (code message : String) :
    Prop where
  severity : d.severity = .error
  location : d.location = location
  code : d.code = some ⟨code⟩
  message : d.message = message
  hint : d.hint = some "the schema validator should have rejected this manifest"

/-- The fields make up the whole report, so that no two reports have all of them in common. What is
said about the fields is thus said about the report. -/
theorem Diagnostic.Reports.eq {d d' : Diagnostic} {location : Location} {code message : String}
    (h : d.Reports location code message) (h' : d'.Reports location code message) : d = d' := by
  cases d
  cases d'
  obtain ⟨rfl, rfl, rfl, rfl, rfl⟩ := h
  obtain ⟨rfl, rfl, rfl, rfl, rfl⟩ := h'
  rfl

/-- The code and the words for a defect of a template. Other defects have none here. -/
inductive Defect.Worded : Defect → (code message : String) → Prop where
  | cardinality {property detail : String} :
      Worded (.invalidCardinality property detail) "E0201"
        ("property '" ++ property ++ "': invalid cardinality: " ++ detail)
  | dangling {property target : String} :
      Worded (.danglingReference property target) "E0202"
        ("property '" ++ property ++ "' references unknown property '" ++ target ++ "'")
  | forward {property target : String} :
      Worded (.forwardReference property target) "E0203"
        ("property '" ++ property ++ "' references '" ++ target ++
          "', which is not declared before it")

/-- A defect is reported at any location in its own words. The words do not depend on where it was
met. -/
theorem Defect.Worded.reports {defect : Defect} {code message : String}
    (h : defect.Worded code message) (location : Location) :
    (Diagnostic.ofDefect location defect).Reports location code message := by
  cases h <;> exact ⟨rfl, rfl, rfl, rfl, rfl⟩

/-- Whatever is wrong with a template, there are words for it. Defects of other parts of a provider
cannot come up here. -/
theorem Template.exists_worded_of_keyOf {properties : List Property} {defect : Defect}
    (h : keyOf properties = .error defect) : ∃ code message, defect.Worded code message := by
  have hCardinality {index : Nat} {owner what : String} {c : Cardinality} {defect : Defect}
      (hRefused : c.Refused properties index owner what defect) :
      ∃ code message, defect.Worded code message := by
    cases hRefused with
    | zero => exact ⟨_, _, .cardinality⟩
    | dangling _ => exact ⟨_, _, .dangling⟩
    | forward _ _ => exact ⟨_, _, .forward⟩
  rw [keyOf_eq_map_ofProperties, Outcome.map_eq_error_iff, ofProperties_eq_error_iff] at h
  obtain ⟨_, _, _, hRefused, _⟩ := h
  cases hRefused with
  | count _ hRefused => exact hCardinality hRefused
  | length _ _ hRefused => exact hCardinality hRefused
  | lengthNotTaken => exact ⟨_, _, .cardinality⟩
  | lengthMissing => exact ⟨_, _, .cardinality⟩

namespace Event

/-- The key of an event's template, which only a logged event needs. -/
def key? (e : Event) : Except Defect (Option String) :=
  if e.notLogged then .ok none else (Template.keyOf e.properties).map some

/-- Only a logged event can be refused for its template. -/
theorem key?_eq_error_iff {e : Event} {defect : Defect} :
    e.key? = .error defect ↔
      e.notLogged = false ∧ Template.keyOf e.properties = .error defect := by
  rw [key?]
  cases e.notLogged with
  | true => simp
  | false => simp [Outcome.map_eq_error_iff]

/-- An event that is not logged needs no key, and may have a template without one. -/
theorem exists_key?_iff {e : Event} :
    (∃ key, e.key? = .ok key) ↔
      (e.notLogged = false → ∃ key, Template.keyOf e.properties = .ok key) := by
  rw [key?]
  cases e.notLogged with
  | true => simp
  | false => simp [Outcome.map_eq_ok_iff]

/-- The first of the logged events whose template has no key, with its position and its defect. -/
structure FirstRefused (events : List Event) (i : Nat) (e : Event) (defect : Defect) : Prop where
  place : events[i]? = some e
  logged : e.notLogged = false
  refused : Template.keyOf e.properties = .error defect
  earlier : ∀ j < i, ∀ f, events[j]? = some f → f.notLogged = false →
    ∃ key, Template.keyOf f.properties = .ok key

/-- The event with any other template, if it is not logged. -/
def withUnlogged (template : Event → Option Template) (e : Event) : Event :=
  if e.notLogged then { e with template := template e } else e

theorem outline_withUnlogged (template : Event → Option Template) (e : Event) :
    (e.withUnlogged template).outline = e.outline := by
  rw [withUnlogged]
  cases hLogged : e.notLogged with
  | false => rfl
  | true => simp [outline, hLogged]

end Event

namespace Provider

/-- The provider asks for traits whose size does not fit its two bytes. -/
def TraitsTooLarge (p : Provider) : Prop :=
  Traits.requested p = true ∧ 65535 < Traits.requestedSize p

/-- The defect of a provider whose traits are too large. -/
def traitsDefect (p : Provider) : Defect :=
  .traitsTooLarge p.name (Traits.requestedSize p)

/-- Traits are refused for their size alone, and the report has the size that was asked for. -/
theorem traits_eq_error_iff {p : Provider} {defect : Defect} :
    Traits.ofProvider p = .error defect ↔ p.TraitsTooLarge ∧ defect = p.traitsDefect := by
  rw [Traits.ofProvider_eq_error_iff, TraitsTooLarge, traitsDefect, and_assoc]

/-- A provider that asks for no traits is never refused for them, however long its name is. -/
theorem exists_traits_iff {p : Provider} :
    (∃ traits, Traits.ofProvider p = .ok traits) ↔ ¬ p.TraitsTooLarge := by
  have hRefused : p.TraitsTooLarge ↔ Traits.ofProvider p = .error p.traitsDefect := by
    rw [traits_eq_error_iff, and_iff_left rfl]
  rw [hRefused]
  cases hTraits : Traits.ofProvider p with
  | ok traits => simp
  | error defect => simp [(traits_eq_error_iff.mp hTraits).2]

/-- The provider with any other templates for its events that are not logged. -/
def withUnlogged (template : Event → Option Template) (p : Provider) : Provider :=
  { p with events := p.events.map (Event.withUnlogged template) }

theorem outline_withUnlogged (template : Event → Option Template) (p : Provider) :
    (p.withUnlogged template).outline = p.outline := by
  simp [outline, withUnlogged, Function.comp_def, Event.outline_withUnlogged]

end Provider

namespace ProviderTemplates

/-- Events are grouped by walking over them for their keys. The table that is filled on the way has
no part in what is refused. -/
theorem map_eventKeys_collect (index : Nat) (templates : TemplateTable) (events : List Event) :
    (collect index templates events).map eventKeys =
      (events.zipIdx index).mapM fun x => x.1.key?.mapError (Prod.mk x.2) := by
  induction events generalizing index templates with
  | nil => rfl
  | cons e events ih =>
      rw [collect, List.zipIdx_cons, List.mapM_cons, Event.key?]
      cases e.notLogged with
      | true =>
          rw [if_pos rfl, if_pos rfl, ← ih (index + 1) templates]
          cases collect (index + 1) templates events <;> rfl
      | false =>
          rw [if_neg Bool.false_ne_true, if_neg Bool.false_ne_true]
          cases Template.keyOf e.properties with
          | error defect => rfl
          | ok key =>
              dsimp only
              rw [← ih (index + 1) (templates.insert key e.properties)]
              cases collect (index + 1) (templates.insert key e.properties) events <;> rfl

/-- The templates are refused at the first logged event without a key. Events behind it may be
refused as well, and are not reported. -/
theorem ofEvents_eq_error_iff {events : List Event} {i : Nat} {defect : Defect} :
    ofEvents events = .error (i, defect) ↔ ∃ e, Event.FirstRefused events i e defect := by
  rw [ofEvents, ← Outcome.map_eq_error_iff, map_eventKeys_collect,
    Outcome.mapM_zipIdx_eq_error_iff]
  simp only [Outcome.mapError_eq_error_iff, Outcome.mapError_eq_ok_iff, Event.key?_eq_error_iff,
    Event.exists_key?_iff, Nat.zero_add, Prod.mk.injEq]
  constructor
  · rintro ⟨_, e, hPlace, ⟨_, ⟨hLogged, hRefused⟩, rfl, rfl⟩, hEarlier⟩
    exact ⟨e, hPlace, hLogged, hRefused, hEarlier⟩
  · rintro ⟨e, hPlace, hLogged, hRefused, hEarlier⟩
    exact ⟨i, e, hPlace, ⟨defect, ⟨hLogged, hRefused⟩, rfl, rfl⟩, hEarlier⟩

end ProviderTemplates

namespace ProviderPlan

/-- All for which a provider is refused. That a template could be refused when the events are
planned never comes about. -/
theorem build_eq_error_iff {p : Provider} {table : SymbolTable} {d : Diagnostic} :
    build p table = .error d ↔
      (p.TraitsTooLarge ∧ d = .ofDefect (.ofProvider p.name) p.traitsDefect) ∨
        (¬ p.TraitsTooLarge ∧ ∃ i e defect, Event.FirstRefused p.events i e defect ∧
          d = .ofDefect (eventLocation p table i) defect) := by
  constructor
  · intro h
    rcases Outcome.bind_eq_error_iff.mp h with hTraits | ⟨traits, hTraits, hRest⟩
    · obtain ⟨defect, hDefect, rfl⟩ := Outcome.mapError_eq_error_iff.mp hTraits
      obtain ⟨hLarge, rfl⟩ := Provider.traits_eq_error_iff.mp hDefect
      exact Or.inl ⟨hLarge, rfl⟩
    rw [Outcome.mapError_eq_ok_iff] at hTraits
    rcases Outcome.bind_eq_error_iff.mp hRest with hGrouped | ⟨grouped, hGrouped, _⟩
    · obtain ⟨⟨i, defect⟩, hDefect, rfl⟩ := Outcome.mapError_eq_error_iff.mp hGrouped
      obtain ⟨e, hFirst⟩ := ProviderTemplates.ofEvents_eq_error_iff.mp hDefect
      exact Or.inr ⟨Provider.exists_traits_iff.mp ⟨traits, hTraits⟩, i, e, defect, hFirst, rfl⟩
    · obtain ⟨planned, hPlanned⟩ :=
        exists_build_of_ofEvents hTraits (Outcome.mapError_eq_ok_iff.mp hGrouped) table
      cases hPlanned.symm.trans h
  · rintro (⟨hLarge, rfl⟩ | ⟨hFits, i, e, defect, hFirst, rfl⟩)
    · refine Outcome.bind_eq_error_iff.mpr (Or.inl (Outcome.mapError_eq_error_iff.mpr ?_))
      exact ⟨p.traitsDefect, Provider.traits_eq_error_iff.mpr ⟨hLarge, rfl⟩, rfl⟩
    · obtain ⟨traits, hTraits⟩ := Provider.exists_traits_iff.mpr hFits
      refine Outcome.bind_eq_error_iff.mpr
        (Or.inr ⟨traits, Outcome.mapError_eq_ok_iff.mpr hTraits, ?_⟩)
      refine Outcome.bind_eq_error_iff.mpr (Or.inl (Outcome.mapError_eq_error_iff.mpr ?_))
      exact ⟨(i, defect), ProviderTemplates.ofEvents_eq_error_iff.mpr ⟨e, hFirst⟩, rfl⟩

/-- A provider is refused for its traits or for any logged event whose template has no key. Its
table has no part in this. -/
theorem exists_build_eq_error_iff {p : Provider} {table : SymbolTable} :
    (∃ d, build p table = .error d) ↔
      p.TraitsTooLarge ∨
        ∃ e ∈ p.events, e.notLogged = false ∧
          ∃ defect, Template.keyOf e.properties = .error defect := by
  constructor
  · rintro ⟨d, h⟩
    rcases build_eq_error_iff.mp h with ⟨hLarge, _⟩ | ⟨_, i, e, defect, hFirst, _⟩
    · exact Or.inl hLarge
    · exact Or.inr ⟨e, List.mem_of_getElem? hFirst.place, hFirst.logged, defect, hFirst.refused⟩
  · intro hCause
    cases hBuild : build p table with
    | error d => exact ⟨d, rfl⟩
    | ok planned =>
        obtain ⟨traits, grouped, _, hTraits, hGrouped, _⟩ := build_eq_ok_iff.mp hBuild
        rcases hCause with hLarge | ⟨e, he, hLogged, defect, hRefused⟩
        · exact absurd hLarge (Provider.exists_traits_iff.mp ⟨traits, hTraits⟩)
        · obtain ⟨key, hKey⟩ := ProviderTemplates.exists_keyOf_of_ofEvents hGrouped he hLogged
          cases hKey.symm.trans hRefused

/-- Templates of events that are not logged have no part in whether a provider is refused. The
report is the same, word for word. -/
theorem build_withUnlogged_eq_error_iff (template : Event → Option Template) {p : Provider}
    {table : SymbolTable} {d : Diagnostic} :
    build (p.withUnlogged template) table = .error d ↔ build p table = .error d := by
  rw [← Outcome.map_eq_error_iff, ← build_outline, Provider.outline_withUnlogged, build_outline,
    Outcome.map_eq_error_iff]

end ProviderPlan

/-- A table has an entry with the own symbol of each event. By this symbol a report calls the
event. -/
theorem SymbolTable.exists_symbol_of_resolve {p : Provider} {table : SymbolTable}
    (hTable : resolve p = .ok table) {i : Nat} {e : Event} (he : p.events[i]? = some e) :
    ∃ r, table.events[i]? = some r ∧
      r.symbol = Symbol.ofEvent (Symbol.ofProvider p) e.symbol r.descriptor := by
  have hEvents := (presents_of_resolve hTable).events
  obtain ⟨hi, rfl⟩ := List.getElem?_eq_some_iff.mp he
  have hi' : i < table.events.length := hEvents.length_eq ▸ hi
  exact ⟨table.events[i], List.getElem?_eq_getElem hi', (hEvents.get hi hi').2⟩

namespace ProviderPlan

/-- The first defect of a provider is reported. It is refused exactly if its traits are too large or
some logged event has a template without a key. Traits are reported first, at the provider, and else
the first such event, at its symbol; location, code and message are given in full. Events that are
not logged may have any templates, and what accompanies a plan are warnings only. Which property of
the template is at fault is not said here. -/
theorem build_reports_first_defect {p : Provider} {table : SymbolTable}
    (hTable : SymbolTable.resolve p = .ok table) :
    ((∃ d, build p table = .error d) ↔
      p.TraitsTooLarge ∨
        ∃ e ∈ p.events, e.notLogged = false ∧
          ∃ defect, Template.keyOf e.properties = .error defect) ∧
    (p.TraitsTooLarge → ∃ d, build p table = .error d ∧
      d.Reports ⟨some p.name, none⟩ "E0204"
        ("provider '" ++ p.name ++ "': traits blob of " ++ toString (Traits.requestedSize p) ++
          " bytes exceeds 65535")) ∧
    (¬ p.TraitsTooLarge → ∀ d, build p table = .error d ↔
      ∃ i e r defect code message, Event.FirstRefused p.events i e defect ∧
        table.events[i]? = some r ∧
        r.symbol = Symbol.ofEvent (Symbol.ofProvider p) e.symbol r.descriptor ∧
        defect.Worded code message ∧ d.Reports ⟨some p.name, some r.symbol⟩ code message) ∧
    (∀ template, SymbolTable.resolve (p.withUnlogged template) = .ok table ∧
      ∀ d, build (p.withUnlogged template) table = .error d ↔ build p table = .error d) ∧
    ∀ planned, build p table = .ok planned → ∀ d ∈ planned.warnings, d.severity = .warning := by
  have hLocation {i : Nat} {r : ResolvedEvent} (hr : table.events[i]? = some r) :
      eventLocation p table i = ⟨some p.name, some r.symbol⟩ := by
    rw [eventLocation, hr]
    rfl
  refine ⟨exists_build_eq_error_iff, fun hLarge => ?_, fun hFits d => ?_, fun template =>
    ⟨?_, fun _ => build_withUnlogged_eq_error_iff template⟩, fun planned hPlanned d hd => ?_⟩
  · exact ⟨_, build_eq_error_iff.mpr (Or.inl ⟨hLarge, rfl⟩), rfl, rfl, rfl, rfl, rfl⟩
  · rw [build_eq_error_iff, or_iff_right fun h => hFits h.1, and_iff_right hFits]
    constructor
    · rintro ⟨i, e, defect, hFirst, rfl⟩
      obtain ⟨r, hr, hSymbol⟩ := SymbolTable.exists_symbol_of_resolve hTable hFirst.place
      obtain ⟨code, message, hWorded⟩ := Template.exists_worded_of_keyOf hFirst.refused
      refine ⟨i, e, r, defect, code, message, hFirst, hr, hSymbol, hWorded, ?_⟩
      rw [hLocation hr]
      exact hWorded.reports _
    · rintro ⟨i, e, r, defect, code, message, hFirst, hr, _, hWorded, hReports⟩
      refine ⟨i, e, defect, hFirst, ?_⟩
      rw [hLocation hr]
      exact hReports.eq (hWorded.reports _)
  · rw [← SymbolTable.resolve_outline, Provider.outline_withUnlogged, SymbolTable.resolve_outline,
      hTable]
  · have hWarnings := Diagnostic.hasErrors_eq_false_iff.mp (hasErrors_warnings_of_build hPlanned)
    cases hSeverity : d.severity with
    | error => exact absurd hSeverity (hWarnings d hd)
    | warning => rfl

/-- Three events with binary data that has no length. The first of them is not logged. -/
def unmeasuredEvents : List Event :=
  [⟨1, 0, none, none, none, none, [], true, none, some ⟨[.ofType "A" .binary]⟩⟩,
    ⟨2, 0, none, none, none, none, [], false, none, none⟩,
    ⟨3, 0, none, none, none, none, [], false, some "Third", some ⟨[.ofType "B" .binary]⟩⟩,
    ⟨4, 0, none, none, none, none, [], false, none, some ⟨[.ofType "C" .binary]⟩⟩]

/-- A name that is too long for traits. -/
def longName : String :=
  String.ofList (List.replicate 65536 'x')

/-- A provider with a name that is too long for its traits. -/
def longNamed (events : List Event) : Provider :=
  { Provider.bare longName events with includeNameInTraits := true }

/-- The size of such traits is that of the name, with its end and the two bytes of the size. -/
theorem requestedSize_longNamed (events : List Event) :
    Traits.requestedSize (longNamed events) = 65539 := by
  have hBytes (n : Nat) : (String.ofList (List.replicate n 'x')).utf8ByteSize = n := by
    rw [Text.utf8ByteSize_ofList_of_forall, List.length_replicate]
    intro c hc
    rw [(List.mem_replicate.mp hc).2]
    rfl
  have hName : longName.utf8ByteSize = 65536 := hBytes 65536
  rw [Traits.requestedSize]
  simp only [longNamed, Provider.bare, if_true, hName]
  rfl

/-- The third event is reported, not the first, which is not logged, nor the fourth. A name that is
too long for its traits is reported before any event. -/
theorem build_reports_first_defect_unmeasuredEvents :
    (∃ table d, SymbolTable.resolve (.bare "P" unmeasuredEvents) = .ok table ∧
      build (.bare "P" unmeasuredEvents) table = .error d ∧
      d.location = ⟨some "P", some "Third"⟩ ∧ d.code = some ⟨"E0201"⟩ ∧
      d.message = "property 'B': invalid cardinality: Binary requires a length") ∧
      ∃ table d, SymbolTable.resolve (longNamed unmeasuredEvents) = .ok table ∧
        build (longNamed unmeasuredEvents) table = .error d ∧
        d.location = ⟨some longName, none⟩ ∧ d.code = some ⟨"E0204"⟩ ∧
        d.message = "provider '" ++ longName ++ "': traits blob of 65539 bytes exceeds 65535" := by
  constructor
  · obtain ⟨table, hTable⟩ :
        ∃ table, SymbolTable.resolve (.bare "P" unmeasuredEvents) = .ok table :=
      ⟨_, rfl⟩
    have hFits : ¬ (Provider.bare "P" unmeasuredEvents).TraitsTooLarge :=
      fun h => Bool.false_ne_true h.1
    have hFirst : Event.FirstRefused unmeasuredEvents 2
        ⟨3, 0, none, none, none, none, [], false, some "Third", some ⟨[.ofType "B" .binary]⟩⟩
        (.invalidCardinality "B" "Binary requires a length") := by
      refine ⟨rfl, rfl, rfl, fun j hj f hf hLogged => ?_⟩
      obtain rfl | rfl : j = 0 ∨ j = 1 := by omega
      · cases hf
        cases hLogged
      · cases hf
        exact ⟨_, rfl⟩
    refine ⟨table, _, hTable, ((build_reports_first_defect hTable).2.2.1 hFits
      (.ofDefect ⟨some "P", some "Third"⟩
        (.invalidCardinality "B" "Binary requires a length"))).mpr ?_, rfl, rfl, rfl⟩
    cases hTable
    exact ⟨2, _, _, _, _, _, hFirst, rfl, rfl, .cardinality, Defect.Worded.cardinality.reports _⟩
  · obtain ⟨table, hTable⟩ :
        ∃ table, SymbolTable.resolve (longNamed unmeasuredEvents) = .ok table :=
      ⟨_, rfl⟩
    have hSize := requestedSize_longNamed unmeasuredEvents
    have hLarge : (longNamed unmeasuredEvents).TraitsTooLarge := ⟨rfl, by omega⟩
    obtain ⟨d, hBuild, hReports⟩ := (build_reports_first_defect hTable).2.1 hLarge
    refine ⟨table, d, hTable, hBuild, hReports.location, hReports.code, ?_⟩
    rw [hReports.message, hSize]
    change "provider '" ++ longName ++ "': traits blob of " ++ "65539" ++ " bytes exceeds 65535" = _
    have hWords : "': traits blob of 65539 bytes exceeds 65535" =
        "': traits blob of " ++ ("65539" ++ " bytes exceeds 65535") := by decide
    rw [hWords, String.append_assoc, String.append_assoc, String.append_assoc]

end ProviderPlan

end EventManifest
