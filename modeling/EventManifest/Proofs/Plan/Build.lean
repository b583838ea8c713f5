import EventManifest.Compilation
import EventManifest.Proofs.Symbol.Resolution
import EventManifest.Proofs.Template.Table

/-!
A plan taken apart. Where planning succeeds, every provider and every event of the manifest has its
plan in its place, and the templates are those of the merged table. Reports and the log are not
looked at here.
-/

namespace EventManifest

namespace SymbolTable

/-- There are tables exactly if each provider has one. Tables stand in the order of the
providers. -/
theorem resolveAll_eq_some_iff {providers : List Provider} {tables : List SymbolTable} :
    resolveAll providers = some tables ↔
      List.Forall₂ (fun p table => resolve p = .ok table) providers tables := by
  induction providers generalizing tables with
  | nil => simp [resolveAll, eq_comm]
  | cons p providers ih =>
      rw [List.forall₂_cons_left_iff]
      simp only [← ih, resolveAll]
      cases resolve p with
      | error defect => simp
      | ok table =>
          cases resolveAll providers with
          | none => simp
          | some rest => simp [eq_comm]

end SymbolTable

/-- How an event is written. Only a logged one is, by the template of its own key and with the
parameters of its own properties. -/
inductive PlannedWrite (bits : List EnableBit) (e : Event) (d : EventDescriptor) :
    Option EventWrite → Prop where
  | unlogged (hLogged : e.notLogged = true) : PlannedWrite bits e d none
  | logged {key : String} {transfers : List Transfer} (hLogged : e.notLogged = false)
      (hKey : Template.keyOf e.properties = .ok key)
      (hTransfers : Transfer.ofProperties e.properties = .ok transfers) :
      PlannedWrite bits e d <| some {
        enableBit := bits.idxOf ⟨d.level, d.keyword⟩
        templateKey := key
        parameters := transfers.flatMap Transfer.parameters
        names := Symbol.parameterNames e.properties transfers }

namespace ProviderPlan

/-- An event keeps its symbol and descriptor, and is written by its own key. -/
theorem planEvent_eq_ok {p : Provider} {keys : List (Option String)} {bits : List EnableBit}
    {r : ResolvedEvent} {index : Nat} {planned : EventPlan} {e : Event} {key? : Option String}
    (hEvent : p.events[index]? = some e) (hPlace : keys[index]? = some key?)
    (hKey : EventKey e key?) (h : planEvent p keys bits r index = .ok planned) :
    planned.symbol = r.symbol ∧ planned.descriptor = r.descriptor ∧
      PlannedWrite bits e r.descriptor planned.write := by
  rw [planEvent, hEvent, hPlace, Option.join_some] at h
  cases hKey with
  | unlogged hLogged =>
      cases h
      exact ⟨rfl, rfl, .unlogged hLogged⟩
  | @logged key hLogged hKey =>
      dsimp only at h
      split at h
      · rename_i write hWrite
        obtain ⟨transfers, hTransfers, hWrite⟩ := Outcome.bind_eq_ok_iff.mp hWrite
        cases hWrite
        cases h
        exact ⟨rfl, rfl, .logged hLogged hKey hTransfers⟩
      · cases h

/-- The steps of planning a provider. The traits come first, then the templates, and then the events
with the keys that were found. -/
theorem build_eq_ok_iff {p : Provider} {table : SymbolTable} {planned : PlannedProvider} :
    build p table = .ok planned ↔
      ∃ traits grouped events,
        Traits.ofProvider p = .ok traits ∧ ProviderTemplates.ofEvents p.events = .ok grouped ∧
          table.events.zipIdx.mapM (fun (e, index) =>
            planEvent p grouped.eventKeys (bitsOf grouped table) e index) = .ok events ∧
          assemble p table traits grouped events = planned := by
  simp only [build, Outcome.bind_eq_ok_iff, Outcome.mapError_eq_ok_iff, Outcome.pure_eq_ok_iff,
    exists_and_left]

section Events

variable {p : Provider} {table : SymbolTable} {planned : PlannedProvider}
  (hTable : SymbolTable.resolve p = .ok table) (h : build p table = .ok planned)

include hTable h

theorem length_events_of_build : planned.plan.events.length = p.events.length := by
  obtain ⟨traits, grouped, events, _, _, hEvents, rfl⟩ := build_eq_ok_iff.mp h
  exact (Outcome.mapM_zipIdx_eq_ok_iff.mp hEvents).1.trans
    (SymbolTable.length_events_of_resolve hTable)

/-- What the table and the plan have in the place of an event. All three lists are parallel. -/
theorem event_of_build {i : Nat} {e : Event} (he : p.events[i]? = some e) :
    ∃ r plan, table.events[i]? = some r ∧ planned.plan.events[i]? = some plan ∧
      plan.symbol = r.symbol ∧ plan.descriptor = r.descriptor ∧
      PlannedWrite planned.plan.enableBits e plan.descriptor plan.write := by
  obtain ⟨traits, grouped, events, _, hGrouped, hEvents, rfl⟩ := build_eq_ok_iff.mp h
  obtain ⟨_, hEach⟩ := Outcome.mapM_zipIdx_eq_ok_iff.mp hEvents
  have hKeys := (ProviderTemplates.ofEvents_eq_ok hGrouped).1
  obtain ⟨hi, rfl⟩ := List.getElem?_eq_some_iff.mp he
  have hKeyBound : i < grouped.eventKeys.length := hKeys.length_eq ▸ hi
  have hResolved : i < table.events.length :=
    (SymbolTable.length_events_of_resolve hTable).symm ▸ hi
  have hPlace := List.getElem?_eq_getElem hResolved
  obtain ⟨plan, hPlan, hPlanned⟩ := hEach i _ hPlace
  obtain ⟨hSymbol, hDescriptor, hWrite⟩ := planEvent_eq_ok he
    (List.getElem?_eq_getElem hKeyBound) (hKeys.get hi hKeyBound) hPlanned
  rw [← hDescriptor] at hWrite
  exact ⟨_, plan, hPlace, hPlan, hSymbol, hDescriptor, hWrite⟩

/-- The events of a plan are parallel to those of the provider. Unlogged ones are there too, without
a write. -/
theorem events_of_build :
    List.Forall₂ (fun e plan =>
        PlannedWrite planned.plan.enableBits e plan.descriptor plan.write)
      p.events planned.plan.events := by
  rw [List.forall₂_iff_get]
  refine ⟨(length_events_of_build hTable h).symm, fun i hi hi' => ?_⟩
  obtain ⟨_, plan, _, hPlan, _, _, hWrite⟩ :=
    event_of_build hTable h (List.getElem?_eq_getElem hi)
  obtain ⟨_, rfl⟩ := List.getElem?_eq_some_iff.mp hPlan
  exact hWrite

end Events

/-- A provider's table has the keys of its logged events, and templates stand under their keys.
Which event gave the properties is left open. -/
theorem templates_of_build {p : Provider} {table : SymbolTable} {planned : PlannedProvider}
    (h : build p table = .ok planned) :
    (∀ key, (∃ properties, planned.templates.get? key = some properties) ↔
        ∃ e ∈ p.events, EventKey e (some key)) ∧
      TemplateTable.Faithful planned.templates := by
  obtain ⟨traits, grouped, events, _, hGrouped, _, rfl⟩ := build_eq_ok_iff.mp h
  obtain ⟨hKeys, hFound, hFaithful⟩ := ProviderTemplates.ofEvents_eq_ok hGrouped
  exact ⟨fun key => (hFound key).trans (EventKey.mem_iff hKeys), hFaithful⟩

end ProviderPlan

/-- The plan of a provider by its own table. -/
def Provider.PlansTo (p : Provider) (planned : PlannedProvider) : Prop :=
  ∃ table, SymbolTable.resolve p = .ok table ∧ ProviderPlan.build p table = .ok planned

namespace GenerationPlan

theorem allOk_map_eq_some_iff {α : Type} {f : α → Except Diagnostic PlannedProvider} {as : List α}
    {planned : List PlannedProvider} :
    allOk (as.map f) = some planned ↔ List.Forall₂ (fun a q => f a = .ok q) as planned := by
  induction as generalizing planned with
  | nil => simp [allOk, eq_comm]
  | cons a as ih =>
      rw [List.map_cons, List.forall₂_cons_left_iff]
      simp only [← ih]
      cases f a with
      | error d => simp [allOk]
      | ok first => simp [allOk, @eq_comm _ planned]

/-- Merging asks the providers in their order. Under a key that several have, the first one's
properties stand. -/
theorem get?_mergedTemplates (planned : List PlannedProvider) (key : String) :
    (mergedTemplates planned).get? key = planned.findSome? fun p => p.templates.get? key := by
  -- The fold starts from any table, which is asked before the providers.
  have hFold (t : TemplateTable) :
      KeyedTable.get? (planned.foldl (fun table p => table.merge p.templates) t) key =
        (t.get? key).or (planned.findSome? fun p => p.templates.get? key) := by
    induction planned generalizing t with
    | nil => simp
    | cons p planned ih =>
        rw [List.foldl_cons, ih, KeyedTable.get?_merge, List.findSome?_cons, Option.or_assoc]
        cases p.templates.get? key <;> rfl
  rw [mergedTemplates, hFold]
  rfl

section Merged

variable {providers : List Provider} {planned : List PlannedProvider}
  (h : List.Forall₂ Provider.PlansTo providers planned)

include h

/-- The merged table has the keys of the logged events of all providers, and no others. -/
theorem exists_get?_mergedTemplates_iff {key : String} :
    (∃ properties, (mergedTemplates planned).get? key = some properties) ↔
      ∃ p ∈ providers, ∃ e ∈ p.events, EventKey e (some key) := by
  rw [get?_mergedTemplates, ← Option.isSome_iff_exists, List.findSome?_isSome_iff]
  induction h with
  | nil => simp
  | cons hHead _ ih =>
      obtain ⟨_, _, hBuild⟩ := hHead
      rw [List.exists_mem_cons_iff, List.exists_mem_cons_iff, ih, Option.isSome_iff_exists,
        (ProviderPlan.templates_of_build hBuild).1]

/-- Merging moves templates as they are, so each still stands under its own key. -/
theorem faithful_mergedTemplates : TemplateTable.Faithful (mergedTemplates planned) := by
  intro key properties hGet
  rw [get?_mergedTemplates] at hGet
  obtain ⟨q, hq, hFirst⟩ := List.exists_of_findSome?_eq_some hGet
  obtain ⟨i, hi, rfl⟩ := List.getElem_of_mem hq
  obtain ⟨_, _, hBuild⟩ := h.get (h.length_eq.symm ▸ hi) hi
  exact (ProviderPlan.templates_of_build hBuild).2 key properties hFirst

end Merged

/-- What is made of pairs is made of their first parts, with the second parts on the way. Both lists
have to be of one length. -/
theorem forall₂_of_forall₂_zip {α β γ : Type} {R : α → β → Prop} {S : α × β → γ → Prop}
    {as : List α} {bs : List β} {cs : List γ} (hR : List.Forall₂ R as bs)
    (hS : List.Forall₂ S (as.zip bs) cs) :
    List.Forall₂ (fun a c => ∃ b, R a b ∧ S (a, b) c) as cs := by
  induction hR generalizing cs with
  | nil =>
      cases hS
      exact .nil
  | cons hHead _ ih =>
      cases hS with
      | cons hFirst hRest => exact .cons ⟨_, hHead, hFirst⟩ (ih hRest)

/-- What a plan is made of: the plans of the providers in their order, and the plans of their merged
templates. -/
theorem build_eq_some {m : Manifest} {tables : List SymbolTable} {plan : GenerationPlan}
    (hTables : SymbolTable.resolveAll m.providers = some tables)
    (hPlan : (build m tables).plan = some plan) :
    ∃ planned : List PlannedProvider,
      List.Forall₂ Provider.PlansTo m.providers planned ∧
      plan.providers = planned.map PlannedProvider.plan ∧
      planTemplates (mergedTemplates planned) = .ok plan.templates := by
  simp only [build, buildAll] at hPlan
  split at hPlan
  · cases hPlan
  · rename_i planned hOutcomes
    split at hPlan
    · rename_i templates hTemplates
      cases hPlan
      exact ⟨planned, forall₂_of_forall₂_zip (SymbolTable.resolveAll_eq_some_iff.mp hTables)
        (allOk_map_eq_some_iff.mp hOutcomes), rfl, hTemplates⟩
    · cases hPlan

end GenerationPlan

end EventManifest
