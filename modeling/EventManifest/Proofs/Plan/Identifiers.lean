import EventManifest.Proofs.Activity.Scan
import EventManifest.Proofs.Plan.Capture
import EventManifest.Proofs.Symbol.Identifier

/-!
Every name that a plan gives to the header is an identifier, whatever texts the manifest has.
Nothing is said here about names that are used twice.
-/

namespace EventManifest

namespace Activity

/-- Whichever name a pair gets, the symbol of its start begins with it. The whole common part is a
beginning, too. -/
theorem settledName_isPrefix (all : List (UInt16 × Candidate)) (x : UInt16 × Candidate) :
    (settledName all x).toList <+: x.2.startSymbol.toList := by
  rw [settledName]
  split
  · rw [Candidate.common, commonPart, String.toList_ofList]
    exact commonChars_isPrefix _ _
  · rw [Candidate.name, nameOf, String.toList_ofList]
    exact nameChars_isPrefix _ _

/-- An activity is called by a beginning of an event's symbol. It is not empty, as pairs without a
name are left out. -/
theorem isIdentifier_of_mem_pairs {p : Provider} {table : SymbolTable} {pair : ActivityPair}
    (hNodup : (p.events.map Event.identity).Nodup)
    (hEvents : ∀ e ∈ table.events, isIdentifier e.symbol = true)
    (h : pair ∈ (find p table).pairs) : isIdentifier pair.symbol = true := by
  obtain ⟨⟨value, c⟩, hMem, hOutcome⟩ := mem_pairs_find_iff.mp h
  obtain ⟨hCommon, _, rfl⟩ := outcome_eq_inl_iff.mp hOutcome
  obtain ⟨start, _, hStart, _, hSymbol, _⟩ := ((mem_valued_iff hNodup).mp hMem).resolved
  have hPrefix := settledName_isPrefix (valued p table) (value, c)
  rw [← hSymbol] at hPrefix
  exact isIdentifier_of_isPrefix (hEvents start (List.mem_of_getElem? hStart)) hPrefix
    (settledName_ne_empty hCommon)

end Activity

namespace SymbolTable

/-- Every symbol of a table is an identifier. -/
structure HasIdentifiers (t : SymbolTable) : Prop where
  provider : isIdentifier t.provider = true
  values : ∀ v ∈ t.channels ++ t.levels ++ t.tasks ++ t.opcodes ++ t.keywords,
    isIdentifier v.symbol = true
  maps : ∀ m ∈ t.maps, isIdentifier m.symbol = true ∧ ∀ item ∈ m.items,
    isIdentifier item.symbol = true
  strings : ∀ s ∈ t.strings, isIdentifier s.symbol = true
  events : ∀ e ∈ t.events, isIdentifier e.symbol = true

theorem isIdentifier_of_mem_map_resolveValue {provider : String} {kind : EntityKind}
    {values : List (NamedValue UInt64)} :
    ∀ v ∈ values.map (resolveValue provider kind), isIdentifier v.symbol = true :=
  List.forall_mem_map.mpr fun _ _ => Symbol.isIdentifier_ofValue _ _ _ _ _

/-- The symbols of items are identifiers since that of the map is one. -/
theorem isIdentifier_of_mem_items {provider : String} {m : ValueMap} :
    ∀ item ∈ (resolveMap provider m).items, isIdentifier item.symbol = true :=
  List.forall_mem_map.mpr fun _ _ =>
    Symbol.isIdentifier_ofMapItem (Symbol.isIdentifier_ofMap provider m) _ _

/-- All symbols of a table, of whatever kind. Names of the provider are not restricted in any
way. -/
theorem hasIdentifiers_of_resolve {p : Provider} {table : SymbolTable}
    (h : resolve p = .ok table) : table.HasIdentifiers := by
  obtain ⟨events, hEvents, h⟩ := Outcome.bind_eq_ok_iff.mp h
  cases h
  have hProvider := Symbol.isIdentifier_ofProvider p
  refine ⟨hProvider, ?_, ?_, ?_, ?_⟩
  · simp only [List.forall_mem_append]
    exact ⟨⟨⟨⟨isIdentifier_of_mem_map_resolveValue, isIdentifier_of_mem_map_resolveValue⟩,
      isIdentifier_of_mem_map_resolveValue⟩, isIdentifier_of_mem_map_resolveValue⟩,
      isIdentifier_of_mem_map_resolveValue⟩
  · exact List.forall_mem_map.mpr fun m _ =>
      ⟨Symbol.isIdentifier_ofMap _ m, isIdentifier_of_mem_items⟩
  · exact List.forall_mem_map.mpr fun _ _ => Symbol.isIdentifier_ofString _ _ _
  · intro r hr
    obtain ⟨e, _, _, hSymbol⟩ := Outcome.exists_of_mem_right (resolveEvents_eq_ok hEvents) hr
    rw [hSymbol]
    exact Symbol.isIdentifier_ofEvent hProvider _ _

end SymbolTable

/-- The names of properties and of all their parameters, lengths included. -/
theorem EventWrite.Passes.isIdentifier_of_mem {w : EventWrite} {properties : List Property}
    {transfers : List Transfer} (h : w.Passes properties transfers) {name : String}
    (hName : name ∈ w.names ++ w.parameterNames) : isIdentifier name = true := by
  have hNames {s : String} (hs : s ∈ w.names) : isIdentifier s = true := by
    rw [h.names, Symbol.parameterNames] at hs
    exact Symbol.isIdentifier_of_mem_parameterNamesFrom hs
  rcases List.mem_append.mp hName with hName | hName
  · exact hNames hName
  · obtain ⟨i, t, s, _, hs, hReserved⟩ := h.mem_parameterNames_iff.mp hName
    exact Symbol.isIdentifier_of_mem_reserved (hNames (List.mem_of_getElem? hs)) hReserved

namespace ProviderPlan

/-- Every name in the plan of a provider is an identifier. -/
structure HasIdentifiers (q : ProviderPlan) : Prop where
  provider : isIdentifier q.symbol = true
  values : ∀ v ∈ q.channels ++ q.levels ++ q.tasks ++ q.opcodes ++ q.keywords,
    isIdentifier v.symbol = true
  maps : ∀ m ∈ q.maps, isIdentifier m.symbol = true ∧ ∀ item ∈ m.items,
    isIdentifier item.symbol = true
  strings : ∀ s ∈ q.strings, isIdentifier s.symbol = true
  events : ∀ e ∈ q.events, isIdentifier e.symbol = true
  activities : ∀ a ∈ q.activities, isIdentifier a.symbol = true
  /-- The names of a wrapper's properties, and those of all its parameters. -/
  wrappers : ∀ e ∈ q.events, ∀ w, e.write = some w →
    ∀ name ∈ w.names ++ w.parameterNames, isIdentifier name = true

/-- An event keeps the symbol it has in the table. Planning makes no symbols of its own. -/
theorem symbol_of_planEvent {p : Provider} {keys : List (Option String)} {bits : List EnableBit}
    {r : ResolvedEvent} {index : Nat} {planned : EventPlan}
    (h : planEvent p keys bits r index = .ok planned) : planned.symbol = r.symbol := by
  simp only [planEvent] at h
  split at h
  · split at h
    · cases h
      rfl
    · cases h
  · cases h
    rfl

/-- Every name that the text of a provider is written with. That names do not clash with each other
is another matter. -/
theorem hasIdentifiers_of_plansTo {p : Provider} {planned : PlannedProvider}
    (h : p.PlansTo planned) : planned.plan.HasIdentifiers := by
  obtain ⟨table, hTable, hBuild⟩ := h
  have hWrites := events_of_build hTable hBuild
  have hNames := SymbolTable.hasIdentifiers_of_resolve hTable
  obtain ⟨traits, grouped, events, _, _, hEvents, rfl⟩ := build_eq_ok_iff.mp hBuild
  refine ⟨hNames.provider, hNames.values, hNames.maps, hNames.strings, ?_, ?_, ?_⟩
  · intro e he
    obtain ⟨⟨r, index⟩, hr, hEvent⟩ :=
      Outcome.exists_of_mem_right (Outcome.mapM_eq_ok_iff.mp hEvents) he
    rw [symbol_of_planEvent hEvent]
    exact hNames.events r (List.fst_mem_of_mem_zipIdx hr)
  · intro a ha
    exact Activity.isIdentifier_of_mem_pairs (SymbolTable.nodup_identity_of_resolve hTable)
      hNames.events ha
  · intro e he w hw name hName
    obtain ⟨event, _, hWrite⟩ := Outcome.exists_of_mem_right hWrites he
    rw [hw] at hWrite
    obtain ⟨transfers, hPasses⟩ := hWrite.exists_passes
    exact hPasses.isIdentifier_of_mem hName

end ProviderPlan

/-- If a manifest can be planned, then every name in its plan is an identifier: the symbols of
providers, of what they declare, of events and activities, and the names in all wrappers. -/
theorem GenerationPlan.hasIdentifiers_of_build {m : Manifest} {tables : List SymbolTable}
    {plan : GenerationPlan} (hTables : SymbolTable.resolveAll m.providers = some tables)
    (hPlan : (build m tables).plan = some plan) : ∀ q ∈ plan.providers, q.HasIdentifiers := by
  obtain ⟨planned, hEach, hProviders, _⟩ := build_eq_some hTables hPlan
  rw [hProviders]
  refine List.forall_mem_map.mpr fun q hq => ?_
  obtain ⟨p, _, hPlans⟩ := Outcome.exists_of_mem_right hEach hq
  exact ProviderPlan.hasIdentifiers_of_plansTo hPlans

/-- Names that are blank, begin with digits, or have other characters than identifiers. -/
def oddlyNamed : Manifest :=
  ⟨[{ Provider.bare "3 π"
        [⟨1, 0, none, none, none, some "Start", [], false, some " é-Run ",
            some ⟨[.ofType "1" .uint8, .ofType "" .countedBinary, .ofType "\n" .uint8]⟩⟩,
          ⟨2, 0, none, none, none, some "Stop", [], false, some "é-Rest", none⟩,
          ⟨3, 0, none, none, none, none, [], false, some " ", none⟩] with
      channels := [⟨" ", 7, none⟩]
      opcodes := [⟨"Start", 1, none⟩, ⟨"Stop", 2, some "\t"⟩]
      keywords := [⟨"K", 1, some "9!"⟩]
      maps := [⟨"", .value, none, [⟨5, none, none⟩]⟩]
      strings := [⟨" ", "", none, none⟩] }]⟩

/-- The names of the plan, which are all made of the odd ones. -/
theorem build_oddlyNamed :
    ∃ tables ∈ SymbolTable.resolveAll oddlyNamed.providers,
      ∃ plan ∈ (GenerationPlan.build oddlyNamed tables).plan, ∃ q ∈ plan.providers,
        q.symbol = "____" ∧
          q.events.map EventPlan.symbol = ["__Run", "__Rest", "_____EVENT_0x3_0_0_0_0_0_0"] ∧
          ∃ e ∈ q.events, ∃ w ∈ e.write, w.names = ["__", "_", "__2"] := by
  decide

/-- Little is left of the names but underscores. They are identifiers, and the parameters are still
kept apart. -/
theorem hasIdentifiers_oddlyNamed :
    ∃ tables plan q, SymbolTable.resolveAll oddlyNamed.providers = some tables ∧
      (GenerationPlan.build oddlyNamed tables).plan = some plan ∧ q ∈ plan.providers ∧
      q.symbol = "____" ∧
      q.events.map EventPlan.symbol = ["__Run", "__Rest", "_____EVENT_0x3_0_0_0_0_0_0"] ∧
      (∃ e ∈ q.events, ∃ w, e.write = some w ∧ w.names = ["__", "_", "__2"]) ∧
      q.HasIdentifiers := by
  obtain ⟨tables, hTables, plan, hPlan, q, hq, hSymbol, hEvents, hNames⟩ := build_oddlyNamed
  exact ⟨tables, plan, q, hTables, hPlan, hq, hSymbol, hEvents, hNames,
    GenerationPlan.hasIdentifiers_of_build hTables hPlan q hq⟩

end EventManifest
