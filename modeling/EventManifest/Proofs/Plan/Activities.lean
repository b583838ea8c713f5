import EventManifest.Proofs.Activity.Scan
import EventManifest.Proofs.Plan.Templates

/-!
The activities of a plan. Both events of an activity are written, under one enable bit, and the
event that ends it is written by the template without payload, which the plan has.
-/

namespace EventManifest

/-- The template of events without payload. -/
def TemplatePlan.payloadFree : TemplatePlan :=
  .ofTransfers "" []

/-- The two events of an activity with their writes, as a class needs them. -/
structure ProviderPlan.Completes (q : ProviderPlan) (a : ActivityPair) (start stop : EventPlan)
    (w v : EventWrite) : Prop where
  apart : a.start ≠ a.stop
  startPlace : q.events[a.start]? = some start
  stopPlace : q.events[a.stop]? = some stop
  startWritten : start.write = some w
  stopWritten : stop.write = some v
  /-- The end of an activity carries no payload. -/
  emptyKey : v.templateKey = ""
  noParameters : v.parameters = []
  sameLevel : start.descriptor.level = stop.descriptor.level
  sameKeyword : start.descriptor.keyword = stop.descriptor.keyword
  sameBit : w.enableBit = v.enableBit

namespace PlannedWrite

variable {bits : List EnableBit} {e : Event} {d : EventDescriptor} {write : Option EventWrite}

/-- A logged event is written under the bit of its level and keyword. Whether that bit is in the
list is not asked here. -/
theorem exists_of_logged (h : PlannedWrite bits e d write) (hLogged : e.notLogged = false) :
    ∃ w, write = some w ∧ w.enableBit = bits.idxOf ⟨d.level, d.keyword⟩ := by
  cases h with
  | unlogged hUnlogged => cases hLogged.symm.trans hUnlogged
  | logged => exact ⟨_, rfl, rfl⟩

/-- An event without properties is written by the template without payload. It has no parameters to
be passed. -/
theorem eq_of_properties_eq_nil {w : EventWrite} (h : PlannedWrite bits e d (some w))
    (hProperties : e.properties = []) : w.templateKey = "" ∧ w.parameters = [] := by
  cases h with
  | @logged key transfers _ hKey hTransfers =>
      rw [hProperties] at hKey hTransfers
      cases hKey
      cases hTransfers
      exact ⟨rfl, rfl⟩

end PlannedWrite

namespace ProviderPlan

/-- A plan has the activities that were found, and leaves out none. -/
theorem activities_of_build {p : Provider} {table : SymbolTable} {planned : PlannedProvider}
    (h : build p table = .ok planned) :
    planned.plan.activities = (Activity.find p table).pairs := by
  obtain ⟨traits, grouped, events, _, _, _, rfl⟩ := build_eq_ok_iff.mp h
  rfl

/-- The pairing of events and the planning of writes agree: an activity has both events. So the
class of an activity never calls a function that is not there. -/
theorem exists_completes {p : Provider} {planned : PlannedProvider} (h : p.PlansTo planned)
    {a : ActivityPair} (ha : a ∈ planned.plan.activities) :
    ∃ start stop w v, planned.plan.Completes a start stop w v := by
  obtain ⟨table, hTable, hBuild⟩ := h
  have hNodup := SymbolTable.nodup_identity_of_resolve hTable
  rw [activities_of_build hBuild] at ha
  obtain ⟨x, hx, hOutcome⟩ := Activity.mem_pairs_find_iff.mp ha
  obtain ⟨_, _, rfl⟩ := Activity.outcome_eq_inl_iff.mp hOutcome
  have hPairs := (Activity.mem_valued_iff hNodup).mp hx
  obtain ⟨f, hStop, hProperties⟩ := hPairs.stop
  obtain ⟨e, hStart⟩ := hPairs.start
  obtain ⟨r, t, hr, ht, _, _, _, hLevel, _, hKeyword⟩ := hPairs.resolved
  obtain ⟨r', start, hr', hStartPlan, _, hStartDescriptor, hStartWrite⟩ :=
    event_of_build hTable hBuild hStart.place
  obtain ⟨t', stop, ht', hStopPlan, _, hStopDescriptor, hStopWrite⟩ :=
    event_of_build hTable hBuild hStop.place
  cases hr.symm.trans hr'
  cases ht.symm.trans ht'
  rw [← hStartDescriptor, ← hStopDescriptor] at hLevel hKeyword
  obtain ⟨w, hw, hBit⟩ := hStartWrite.exists_of_logged hStart.logged
  obtain ⟨v, hv, hBit'⟩ := hStopWrite.exists_of_logged hStop.logged
  obtain ⟨hKey, hParameters⟩ := (hv ▸ hStopWrite).eq_of_properties_eq_nil hProperties
  exact ⟨start, stop, w, v, hPairs.start_ne_stop hPairs, hStartPlan, hStopPlan, hw, hv, hKey,
    hParameters, hLevel, hKeyword, by rw [hBit, hBit', hLevel, hKeyword]⟩

theorem nodup_symbol_activities {p : Provider} {planned : PlannedProvider}
    (h : p.PlansTo planned) : (planned.plan.activities.map ActivityPair.symbol).Nodup := by
  obtain ⟨table, _, hBuild⟩ := h
  rw [activities_of_build hBuild]
  exact Activity.nodup_symbol_pairs p table

end ProviderPlan

namespace Template

/-- Only the empty list of properties has the empty key. Every property has a letter in the key. -/
theorem eq_nil_of_keyOf {properties : List Property} (h : keyOf properties = .ok "") :
    properties = [] := by
  have hEmpty : keyOf [] = .ok "" := rfl
  exact List.eq_nil_of_length_eq_zero (places_of_keyOf h hEmpty).1

end Template

/-- A plan in which an event has the empty key has the template without payload. Activities end by
it, and it is shared like any other. -/
theorem GenerationPlan.payloadFree_mem {m : Manifest} {tables : List SymbolTable}
    {plan : GenerationPlan} (hTables : SymbolTable.resolveAll m.providers = some tables)
    (hPlan : (build m tables).plan = some plan)
    (hKey : "" ∈ plan.templates.map TemplatePlan.key) : .payloadFree ∈ plan.templates := by
  obtain ⟨t, ht, hEmpty⟩ := List.mem_map.mp hKey
  obtain ⟨properties, transfers, hOwn, hTransfers, hTemplate⟩ :=
    exists_of_mem_templates hTables hPlan ht
  rw [hEmpty] at hOwn hTemplate
  rw [Template.eq_nil_of_keyOf hOwn] at hTransfers
  have hNone : transfers = [] := by
    cases hTransfers
    rfl
  rw [TemplatePlan.payloadFree, ← hNone, hTemplate]
  exact ht

end EventManifest
