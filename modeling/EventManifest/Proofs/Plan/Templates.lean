import EventManifest.Proofs.Plan.Build
import EventManifest.Proofs.Template.Sharing
import EventManifest.Proofs.Text.ByteOrder
import Mathlib.Data.List.Nodup

/-!
The templates of a plan. There is one for each key of a logged event, whichever provider the event
belongs to, and no other. Every event can call the one template with its key, though that may have
been made from the properties of another event.
-/

namespace EventManifest

/-- No two keys share a function, not even the key of the empty template with another. The surface
may be either dialect's. -/
theorem Surface.templateFunction_injective (s : Surface) :
    Function.Injective s.templateFunction := by
  intro key other h
  obtain ⟨dialect, _, _, _, _⟩ := s
  cases dialect with
  | macros => exact (String.append_right_inj _).mp h
  | functions =>
      have hApart (rest : String) : "WriteNoPayload" ≠ "Template_" ++ rest := by
        intro hSame
        have hFirst := congrArg (fun name => name.toList.head?) hSame
        simp at hFirst
      simp only [templateFunction] at h
      split at h
      · rename_i hKey
        split at h
        · rename_i hOther
          rw [String.isEmpty_iff.mp hKey, String.isEmpty_iff.mp hOther]
        · exact absurd h (hApart other)
      · split at h
        · exact absurd h.symm (hApart key)
        · exact (String.append_right_inj _).mp h

namespace Header

/-- The line that opens the guard of a template names its function, and thereby its key. So
templates of different keys are not hidden by each other's guard. -/
theorem Functions.key_eq_of_head?_templateLines {s t : TemplatePlan}
    (h : (templateLines s).head? = (templateLines t).head?) : s.key = t.key := by
  have hGuard := (String.append_right_inj _).mp (Option.some.inj h)
  have hName := (String.append_left_inj _).mp hGuard
  exact Surface.templateFunction_injective _ ((String.append_right_inj _).mp hName)

/-- The same in the other dialect. -/
theorem Macros.key_eq_of_head?_templateLines {s t : TemplatePlan}
    (h : (templateLines s).head? = (templateLines t).head?) : s.key = t.key := by
  have hName := (String.append_left_inj _).mp (Option.some.inj h)
  exact Surface.templateFunction_injective _ ((String.append_right_inj _).mp hName)

end Header

/-- A write fits a template. The wrapper passes what the template takes, and the template fills the
slots that the event's own properties ask for, with as many bytes. -/
structure EventWrite.Fits (w : EventWrite) (properties : List Property) (t : TemplatePlan) :
    Prop where
  key : t.key = w.templateKey
  parameters : w.parameters.map Parameter.callSide = t.parameters.map Parameter.callSide
  slots : ∃ transfers, Transfer.ofProperties properties = .ok transfers ∧
    ∀ v : Valuation,
      (layoutOf transfers).map (Slot.evaluate v) = t.slots.map (Slot.evaluate v)

namespace GenerationPlan

section Templates

variable {table : TemplateTable} {templates : List TemplatePlan}
  (h : planTemplates table = .ok templates)

include h

theorem forall₂_of_planTemplates :
    List.Forall₂ (fun entry t => TemplatePlan.ofProperties entry.1 entry.2 = .ok t)
      table.entries templates :=
  Outcome.mapM_eq_ok_iff.mp h

/-- Templates stand in the order of the table, by increasing keys. -/
theorem map_key_of_planTemplates :
    templates.map TemplatePlan.key = table.entries.map Prod.fst := by
  rw [← List.forall₂_eq_eq_eq, List.forall₂_map_left_iff, List.forall₂_map_right_iff]
  refine (forall₂_of_planTemplates h).flip.imp fun t entry hEntry => ?_
  obtain ⟨_, _, rfl⟩ := TemplatePlan.ofProperties_eq_ok_iff.mp hEntry
  rfl

/-- Every template of a plan is made from the properties under its key. It does not remember from
which event they came. -/
theorem exists_of_mem_planTemplates {t : TemplatePlan} (ht : t ∈ templates) :
    ∃ properties transfers, table.get? t.key = some properties ∧
      Transfer.ofProperties properties = .ok transfers ∧
      TemplatePlan.ofTransfers t.key transfers = t := by
  obtain ⟨i, hi, rfl⟩ := List.getElem_of_mem ht
  have hEach := forall₂_of_planTemplates h
  have hi' : i < table.entries.length := hEach.length_eq ▸ hi
  obtain ⟨transfers, hTransfers, hTemplate⟩ :=
    TemplatePlan.ofProperties_eq_ok_iff.mp (hEach.get hi' hi)
  have hKey : table.entries[i].1 = templates[i].key := congrArg TemplatePlan.key hTemplate
  refine ⟨table.entries[i].2, transfers, ?_, hTransfers, hKey ▸ hTemplate⟩
  rw [← KeyedTable.mem_entries_iff, ← hKey]
  exact List.getElem_mem hi'

end Templates

section Build

variable {m : Manifest} {tables : List SymbolTable} {plan : GenerationPlan}
  (hTables : SymbolTable.resolveAll m.providers = some tables)
  (hPlan : (build m tables).plan = some plan)

include hTables hPlan

/-- The order of templates is that of their keys as texts. Neither providers nor events have a say
in it. -/
theorem keys_lt_of_build : (plan.templates.map TemplatePlan.key).Pairwise (· < ·) := by
  obtain ⟨planned, _, _, hTemplates⟩ := build_eq_some hTables hPlan
  rw [map_key_of_planTemplates hTemplates, List.pairwise_map]
  exact (mergedTemplates planned).sorted

/-- The keys of a plan are those of the logged events, and every key occurs once. -/
theorem mem_keys_iff_of_build {key : String} :
    key ∈ plan.templates.map TemplatePlan.key ↔
      ∃ p ∈ m.providers, ∃ e ∈ p.events, EventKey e (some key) := by
  obtain ⟨planned, hEach, _, hTemplates⟩ := build_eq_some hTables hPlan
  rw [map_key_of_planTemplates hTemplates, KeyedTable.mem_map_fst_iff,
    exists_get?_mergedTemplates_iff hEach]

/-- The events of a plan are parallel to those of the manifest, provider by provider, and the key of
a write is a key of the plan. -/
theorem forall₂_events_of_build :
    List.Forall₂ (fun p q => List.Forall₂ (fun e planned =>
        PlannedWrite q.enableBits e planned.descriptor planned.write ∧
          ∀ w, planned.write = some w → w.templateKey ∈ plan.templates.map TemplatePlan.key)
        p.events q.events) m.providers plan.providers := by
  obtain ⟨planned, hEach, hProviders, _⟩ := build_eq_some hTables hPlan
  rw [hProviders, List.forall₂_map_right_iff]
  refine ((List.forall₂_and_left _ _).mpr ⟨fun _ hp => hp, hEach⟩).imp ?_
  rintro p q ⟨hp, table, hTable, hBuild⟩
  have hEvents := ProviderPlan.events_of_build hTable hBuild
  refine ((List.forall₂_and_left _ _).mpr ⟨fun _ he => he, hEvents⟩).imp ?_
  rintro e planned ⟨he, hWrite⟩
  refine ⟨hWrite, fun w hw => ?_⟩
  rw [hw] at hWrite
  cases hWrite with
  | logged hLogged hKey _ =>
      exact (mem_keys_iff_of_build hTables hPlan).mpr ⟨p, hp, e, he, .logged hLogged hKey⟩

/-- Every template of a plan is made from properties with its key. Which of the events with the key
they belong to is left open. -/
theorem exists_of_mem_templates {t : TemplatePlan} (ht : t ∈ plan.templates) :
    ∃ properties transfers, Template.keyOf properties = .ok t.key ∧
      Transfer.ofProperties properties = .ok transfers ∧
      TemplatePlan.ofTransfers t.key transfers = t := by
  obtain ⟨planned, hEach, _, hTemplates⟩ := build_eq_some hTables hPlan
  obtain ⟨properties, transfers, hGet, hTransfers, hTemplate⟩ :=
    exists_of_mem_planTemplates hTemplates ht
  exact ⟨properties, transfers, faithful_mergedTemplates hEach _ _ hGet, hTransfers, hTemplate⟩

/-- Whatever tells keys apart tells the templates of a plan apart. It is used for lines of text. -/
theorem nodup_map_of_build {α : Type} {f : TemplatePlan → α}
    (hf : ∀ {s t : TemplatePlan}, f s = f t → s.key = t.key) : (plan.templates.map f).Nodup := by
  rw [List.Nodup, List.pairwise_map]
  exact (List.pairwise_map.mp (keys_lt_of_build hTables hPlan)).imp
    fun hLess hSame => String.ne_of_lt hLess (hf hSame)

end Build

/-- The templates of a plan increase by the bytes of their keys, and their keys are those of the
logged events. An event that is logged is written by the template of its own key, which is there
once; no other is written. In both dialects a key has a function of its own, so no guard hides the
function of another template. -/
theorem templates_cover_logged_events {m : Manifest} {tables : List SymbolTable}
    {plan : GenerationPlan} (hTables : SymbolTable.resolveAll m.providers = some tables)
    (hPlan : (build m tables).plan = some plan) :
    plan.templates.Pairwise (fun s t => s.key.toUTF8.toList < t.key.toUTF8.toList) ∧
      (∀ key, key ∈ plan.templates.map TemplatePlan.key ↔
        ∃ p ∈ m.providers, ∃ e ∈ p.events,
          e.notLogged = false ∧ Template.keyOf e.properties = .ok key) ∧
      List.Forall₂ (fun (p : Provider) (q : ProviderPlan) =>
          List.Forall₂ (fun (e : Event) (planned : EventPlan) =>
            (e.notLogged = true → planned.write = none) ∧
              (e.notLogged = false → ∃ w, planned.write = some w ∧
                Template.keyOf e.properties = .ok w.templateKey ∧
                (plan.templates.map TemplatePlan.key).count w.templateKey = 1))
            p.events q.events)
        m.providers plan.providers ∧
      (∀ s ∈ [Surface.functions, Surface.macros], Function.Injective s.templateFunction) ∧
      (plan.templates.map fun t => (Header.Functions.templateLines t).head?).Nodup ∧
      (plan.templates.map fun t => (Header.Macros.templateLines t).head?).Nodup := by
  have hNodup := nodup_map_of_build hTables hPlan (f := TemplatePlan.key) id
  refine ⟨?_, fun key => ?_, ?_, fun s _ => s.templateFunction_injective, ?_, ?_⟩
  · exact (List.pairwise_map.mp (keys_lt_of_build hTables hPlan)).imp Text.toUTF8_lt_of_lt
  · simp only [mem_keys_iff_of_build hTables hPlan, EventKey.some_iff]
  · refine (forall₂_events_of_build hTables hPlan).imp fun p q hEvents => hEvents.imp ?_
    rintro e ⟨symbol, d, write⟩ ⟨hWrite, hMem⟩
    dsimp only at hWrite hMem ⊢
    cases hWrite with
    | unlogged hLogged => simp [hLogged]
    | logged hLogged hKey _ =>
        refine ⟨by simp [hLogged], fun _ => ⟨_, rfl, hKey, ?_⟩⟩
        rw [hNodup.count, if_pos (hMem _ rfl)]
  · exact nodup_map_of_build hTables hPlan Header.Functions.key_eq_of_head?_templateLines
  · exact nodup_map_of_build hTables hPlan Header.Macros.key_eq_of_head?_templateLines

/-- Two providers that log blocks of bytes, of different count and length but with one product. -/
def sharedBlocks : Manifest where
  providers :=
    [("First", Template.blocksOf 65536 65536), ("Second", Template.blocksOf 32768 131072)].map
      fun (name, properties) => {
        name := name
        guid := ⟨0, 0, 0, 0⟩
        controlGuid := none
        symbol := none
        includeNameInTraits := false
        includeProcessName := false
        channels := []
        levels := []
        tasks := []
        opcodes := []
        keywords := []
        maps := []
        strings := []
        events :=
          [⟨1, 0, none, none, none, none, [], false, none, some ⟨properties⟩⟩,
            ⟨2, 0, none, none, none, none, [], true, none, none⟩] }

/-- One template for two providers, although the factors of their sizes differ. -/
theorem build_sharedBlocks :
    ∃ tables plan, SymbolTable.resolveAll sharedBlocks.providers = some tables ∧
      (build sharedBlocks tables).plan = some plan ∧
      plan.templates.map TemplatePlan.key = ["b4294967296"] := by
  have hKeys : ((SymbolTable.resolveAll sharedBlocks.providers).bind fun tables =>
      (build sharedBlocks tables).plan).map (fun plan => plan.templates.map TemplatePlan.key) =
        some ["b4294967296"] := by
    decide
  obtain ⟨plan, hBuilt, hKeys⟩ := Option.map_eq_some_iff.mp hKeys
  obtain ⟨tables, hTables, hPlan⟩ := Option.bind_eq_some_iff.mp hBuilt
  exact ⟨tables, plan, hTables, hPlan, hKeys⟩

/-- The blocks have one template, with the key that the logged events have. The key is the product
of count and length, beyond 32 bits. -/
theorem templates_cover_sharedBlocks :
    ∃ tables plan, SymbolTable.resolveAll sharedBlocks.providers = some tables ∧
      (build sharedBlocks tables).plan = some plan ∧
      plan.templates.map TemplatePlan.key = ["b4294967296"] ∧
      (∃ p ∈ sharedBlocks.providers, ∃ e ∈ p.events,
        e.notLogged = false ∧ Template.keyOf e.properties = .ok "b4294967296") ∧
      (plan.templates.map fun t => (Header.Macros.templateLines t).head?).Nodup := by
  obtain ⟨tables, plan, hTables, hPlan, hKeys⟩ := build_sharedBlocks
  obtain ⟨_, hCovered, _, _, _, hGuards⟩ := templates_cover_logged_events hTables hPlan
  have hMem : "b4294967296" ∈ plan.templates.map TemplatePlan.key := by simp [hKeys]
  exact ⟨tables, plan, hTables, hPlan, hKeys, (hCovered _).mp hMem, hGuards⟩

/-- Every write fits the one template with its key, which may have been made from another event.
What it passes agrees in number, order and type with what the template takes. -/
theorem writes_fit_templates {m : Manifest} {tables : List SymbolTable} {plan : GenerationPlan}
    (hTables : SymbolTable.resolveAll m.providers = some tables)
    (hPlan : (build m tables).plan = some plan) :
    List.Forall₂ (fun (p : Provider) (q : ProviderPlan) =>
        List.Forall₂ (fun (e : Event) (planned : EventPlan) =>
          ∀ w, planned.write = some w →
            ∃ t ∈ plan.templates, w.Fits e.properties t ∧
              ∀ s ∈ plan.templates, s.key = w.templateKey → s = t)
          p.events q.events)
      m.providers plan.providers := by
  refine (forall₂_events_of_build hTables hPlan).imp fun p q hEvents => hEvents.imp ?_
  rintro e planned ⟨hWrite, hMem⟩ w hw
  obtain ⟨t, ht, hKey⟩ := List.mem_map.mp (hMem w hw)
  obtain ⟨properties, others, hTemplateKey, hOthers, hTemplate⟩ :=
    exists_of_mem_templates hTables hPlan ht
  refine ⟨t, ht, ?_, fun s hs hSame => ?_⟩
  · rw [hw] at hWrite
    rw [hKey] at hTemplateKey
    cases hWrite with
    | @logged _ transfers _ hOwnKey hTransfers =>
        rw [← hTemplate]
        exact ⟨hKey,
          Template.callSides_eq_of_keyOf hOwnKey hTemplateKey hTransfers hOthers,
          transfers, hTransfers,
          Template.evaluate_layoutOf_eq_of_keyOf hOwnKey hTemplateKey hTransfers hOthers⟩
  · exact List.inj_on_of_nodup_map (nodup_map_of_build hTables hPlan (f := TemplatePlan.key) id)
      hs ht (hSame.trans hKey.symm)

/-- Both providers of the blocks call the one template. It was made from the blocks of the first
one. -/
theorem writes_fit_sharedBlocks :
    ∃ tables plan, SymbolTable.resolveAll sharedBlocks.providers = some tables ∧
      (build sharedBlocks tables).plan = some plan ∧ plan.templates.length = 1 ∧
      List.Forall₂ (fun (p : Provider) (q : ProviderPlan) =>
          List.Forall₂ (fun (e : Event) (planned : EventPlan) =>
            ∀ w, planned.write = some w →
              ∃ t ∈ plan.templates, w.Fits e.properties t ∧
                ∀ s ∈ plan.templates, s.key = w.templateKey → s = t)
            p.events q.events)
        sharedBlocks.providers plan.providers := by
  obtain ⟨tables, plan, hTables, hPlan, hKeys⟩ := build_sharedBlocks
  have hLength := congrArg List.length hKeys
  rw [List.length_map] at hLength
  exact ⟨tables, plan, hTables, hPlan, hLength, writes_fit_templates hTables hPlan⟩

end GenerationPlan

end EventManifest
