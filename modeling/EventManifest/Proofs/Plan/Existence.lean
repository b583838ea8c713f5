import EventManifest.Proofs.Plan.Composition

/-!
When there is a plan. Planning asks four things of a provider and nothing more, whatever the size of
what it is to plan.
-/

namespace EventManifest

/-- All that planning asks of a provider. -/
structure Provider.Plannable (p : Provider) : Prop where
  identities : (p.events.map Event.identity).Nodup
  references : ∀ e ∈ p.events, ∃ d, SymbolTable.descriptor p e = .ok d
  traits : ∃ traits, Traits.ofProvider p = .ok traits
  keys : ∀ e ∈ p.events, e.notLogged = false → ∃ key, Template.keyOf e.properties = .ok key

/-- Identities and references are all that a table asks for. -/
theorem SymbolTable.exists_resolve {p : Provider}
    (hIdentities : (p.events.map Event.identity).Nodup)
    (hReferences : ∀ e ∈ p.events, ∃ d, descriptor p e = .ok d) :
    ∃ table, resolve p = .ok table :=
  exists_resolve_iff.mpr ⟨hIdentities, fun e he => exists_descriptor_iff.mp (hReferences e he)⟩

/-- Only logged events need a key. What the payload of other events looks like does not matter. -/
theorem ProviderTemplates.exists_collect {index : Nat} {templates : TemplateTable}
    {events : List Event}
    (h : ∀ e ∈ events, e.notLogged = false → ∃ key, Template.keyOf e.properties = .ok key) :
    ∃ grouped, collect index templates events = .ok grouped := by
  induction events generalizing index templates with
  | nil => exact ⟨_, rfl⟩
  | cons e events ih =>
      rw [List.forall_mem_cons] at h
      rw [collect]
      cases hLogged : e.notLogged with
      | true =>
          obtain ⟨rest, hRest⟩ := @ih (index + 1) templates h.2
          rw [if_pos rfl, hRest]
          exact ⟨_, rfl⟩
      | false =>
          obtain ⟨key, hKey⟩ := h.1 hLogged
          obtain ⟨rest, hRest⟩ := @ih (index + 1) (templates.insert key e.properties) h.2
          rw [if_neg Bool.false_ne_true, hKey]
          dsimp only
          rw [hRest]
          exact ⟨_, rfl⟩

/-- Where the templates of events are grouped, each logged event has its key. The converse of the
lemma before. -/
theorem ProviderTemplates.exists_keyOf_of_ofEvents {events : List Event}
    {grouped : ProviderTemplates} (h : ofEvents events = .ok grouped) {e : Event} (he : e ∈ events)
    (hLogged : e.notLogged = false) : ∃ key, Template.keyOf e.properties = .ok key := by
  obtain ⟨key?, _, hKey⟩ := Outcome.exists_of_mem_right (ofEvents_eq_ok h).1.flip he
  cases hKey with
  | unlogged hUnlogged => cases hLogged.symm.trans hUnlogged
  | logged _ hKey => exact ⟨_, hKey⟩

namespace ProviderPlan

/-- Where events have their keys, they can be planned. Places beyond the events are planned without
a write. -/
theorem exists_planEvent {p : Provider} {keys : List (Option String)} (bits : List EnableBit)
    (r : ResolvedEvent) (index : Nat) (hKeys : List.Forall₂ EventKey p.events keys) :
    ∃ planned, planEvent p keys bits r index = .ok planned := by
  rw [planEvent]
  split
  · rename_i key e hPlace hEvent
    obtain ⟨hi, rfl⟩ := List.getElem?_eq_some_iff.mp hEvent
    have hi' : index < keys.length := hKeys.length_eq ▸ hi
    rw [List.getElem?_eq_getElem hi', Option.join_some] at hPlace
    have hOwn : EventKey p.events[index] (some key) := hPlace ▸ hKeys.get hi hi'
    obtain ⟨transfers, hTransfers⟩ :=
      Template.ofProperties_of_keyOf (EventKey.some_iff.mp hOwn).2
    rw [planWrite, hTransfers]
    exact ⟨_, rfl⟩
  · exact ⟨_, rfl⟩

/-- After the traits and the keys nothing of a provider is refused, whatever its table. So there is
no third reason for a provider to be refused. -/
theorem exists_build_of_ofEvents {p : Provider} {traits : Option (List UInt8)}
    {grouped : ProviderTemplates} (hTraits : Traits.ofProvider p = .ok traits)
    (hGrouped : ProviderTemplates.ofEvents p.events = .ok grouped) (table : SymbolTable) :
    ∃ planned, build p table = .ok planned := by
  have hKeys := (ProviderTemplates.ofEvents_eq_ok hGrouped).1
  have hEach : ∀ x ∈ table.events.zipIdx, ∃ planned,
      planEvent p grouped.eventKeys (bitsOf grouped table) x.1 x.2 = .ok planned :=
    fun x _ => exists_planEvent _ x.1 x.2 hKeys
  obtain ⟨events, hEvents⟩ := Outcome.exists_forall₂ hEach
  exact ⟨_, build_eq_ok_iff.mpr
    ⟨traits, grouped, events, hTraits, hGrouped, Outcome.mapM_eq_ok_iff.mpr hEvents, rfl⟩⟩

theorem exists_build {p : Provider} (h : p.Plannable) (table : SymbolTable) :
    ∃ planned, build p table = .ok planned := by
  obtain ⟨traits, hTraits⟩ := h.traits
  obtain ⟨grouped, hGrouped⟩ : ∃ grouped, ProviderTemplates.ofEvents p.events = .ok grouped :=
    ProviderTemplates.exists_collect h.keys
  exact exists_build_of_ofEvents hTraits hGrouped table

end ProviderPlan

/-- What has a plan has been asked nothing else. With the lemma before, this makes the conditions
exact. -/
theorem Provider.PlansTo.plannable {p : Provider} {planned : PlannedProvider}
    (h : p.PlansTo planned) : p.Plannable := by
  obtain ⟨table, hTable, hBuild⟩ := h
  obtain ⟨traits, grouped, _, hTraits, hGrouped, _, _⟩ := ProviderPlan.build_eq_ok_iff.mp hBuild
  have hConsistent := SymbolTable.exists_resolve_iff.mp ⟨table, hTable⟩
  refine ⟨hConsistent.identities, fun e he => ?_, ⟨traits, hTraits⟩, fun e he hLogged => ?_⟩
  · exact SymbolTable.exists_descriptor_iff.mpr (hConsistent.references e he)
  · exact ProviderTemplates.exists_keyOf_of_ofEvents hGrouped he hLogged

/-- There is a plan if every provider can be planned. Templates that providers share are never in
conflict. -/
theorem GenerationPlan.exists_plan {m : Manifest} (h : ∀ p ∈ m.providers, p.Plannable) :
    ∃ tables plan, SymbolTable.resolveAll m.providers = some tables ∧
      (build m tables).plan = some plan := by
  obtain ⟨tables, hTables⟩ := Outcome.exists_forall₂ fun p hp =>
    SymbolTable.exists_resolve (h p hp).identities (h p hp).references
  have hEach : ∀ x ∈ m.providers.zip tables, ∃ planned,
      ProviderPlan.build x.1 x.2 = .ok planned :=
    fun x hx => ProviderPlan.exists_build (h x.1 (List.of_mem_zip hx).1) x.2
  obtain ⟨planned, hPlanned⟩ := Outcome.exists_forall₂ hEach
  obtain ⟨templates, _, hPlan⟩ := plan_buildAll_of_allOk (allOk_map_eq_some_iff.mpr hPlanned)
  exact ⟨tables, _, SymbolTable.resolveAll_eq_some_iff.mpr hTables, hPlan⟩

end EventManifest
