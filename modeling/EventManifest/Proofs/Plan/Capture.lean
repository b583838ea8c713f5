import EventManifest.Proofs.Plan.Templates
import EventManifest.Proofs.Symbol.Distinctness

/-!
Which names of the header the parameters of a wrapper hide. Parameters are kept apart from each
other only, so the body of a wrapper loses a name of the header exactly if a property ends up with
it. Names that the body takes from the shared code are not considered.
-/

namespace EventManifest

/-- What the body of a wrapper means by name: the descriptor of the event, the context of the
provider, the test of the event, and the function of the template in each dialect. -/
def ProviderPlan.bodyIdentifiers (q : ProviderPlan) (e : EventPlan) (w : EventWrite) :
    List String :=
  [e.symbol, q.symbol ++ "_Context", "EventEnabled" ++ e.symbol] ++
    [Surface.functions, Surface.macros].map (Surface.templateFunction · w.templateKey)

namespace EventWrite

/-- The names of the wrapper's parameters. -/
def parameterNames (w : EventWrite) : List String :=
  w.parameters.map (Parameter.name (.named w.names))

/-- Those of the properties before a position. -/
def namesBefore (w : EventWrite) (index : Nat) : List String :=
  (w.parameters.filter (·.property < index)).map (Parameter.name (.named w.names))

/-- Whether the property at a position takes a length. -/
def takesLength (w : EventWrite) (index : Nat) : Bool :=
  w.parameters.any fun p => p.property == index && p.role == .length

/-- A property ends up with a name: the first free of its attempts, or that of the length beside
it. -/
def Binds (w : EventWrite) (properties : List Property) (g : String) : Prop :=
  ∃ (i : Nat) (p : Property) (name : String), properties[i]? = some p ∧
    Symbol.FirstFree (w.namesBefore i) (w.takesLength i) i (sanitize p.name) name ∧
    g ∈ Symbol.reserved (w.takesLength i) name

/-- Attempts only add to a name. So a wrapper can only hide what begins like a sanitized name of a
property. -/
theorem Binds.exists_isPrefix {w : EventWrite} {properties : List Property} {g : String}
    (h : w.Binds properties g) : ∃ p ∈ properties, (sanitize p.name).toList <+: g.toList := by
  obtain ⟨i, p, name, hp, hFirst, hg⟩ := h
  exact ⟨p, List.mem_of_getElem? hp, hFirst.isPrefix hg⟩

/-- A write passes properties by their transfers, under the names that they get. -/
structure Passes (w : EventWrite) (properties : List Property) (transfers : List Transfer) :
    Prop where
  planned : Transfer.ofProperties properties = .ok transfers
  parameters : w.parameters = transfers.flatMap Transfer.parameters
  names : w.names = Symbol.parameterNames properties transfers

namespace Passes

variable {w : EventWrite} {properties : List Property} {transfers : List Transfer}
  (h : w.Passes properties transfers)

include h

theorem place {i : Nat} {t : Transfer} (ht : transfers[i]? = some t) :
    t.index = i ∧ (∃ p, properties[i]? = some p) ∧ ∃ name, w.names[i]? = some name := by
  obtain ⟨hLength, hEach⟩ := Transfer.places_of_ofProperties h.planned
  obtain ⟨hi, _⟩ := List.getElem?_eq_some_iff.mp ht
  rw [hLength] at hi
  have hProperty := List.getElem?_eq_getElem hi
  obtain ⟨s, _, hTransfer⟩ := hEach i _ hProperty
  cases ht.symm.trans hTransfer
  rw [← Symbol.length_parameterNames properties transfers, ← h.names] at hi
  exact ⟨rfl, ⟨_, hProperty⟩, _, List.getElem?_eq_getElem hi⟩

/-- The parameters of a property have the names that it reserves, in the same order. -/
theorem map_name_parameters {i : Nat} {t : Transfer} {name : String}
    (ht : transfers[i]? = some t) (hName : w.names[i]? = some name) :
    t.parameters.map (Parameter.name (.named w.names)) =
      Symbol.reserved t.needsLength name := by
  rw [← (h.place ht).1] at hName
  exact Symbol.map_name_parameters hName

/-- The names of parameters, gathered by the positions of their properties. No other names occur. -/
theorem mem_parameterNames_iff {r : String} :
    r ∈ w.parameterNames ↔
      ∃ (i : Nat) (t : Transfer) (name : String), transfers[i]? = some t ∧
        w.names[i]? = some name ∧ r ∈ Symbol.reserved t.needsLength name := by
  rw [parameterNames, h.parameters, List.map_flatMap, List.mem_flatMap]
  constructor
  · rintro ⟨t, ht, hr⟩
    obtain ⟨i, hi⟩ := List.mem_iff_getElem?.mp ht
    obtain ⟨_, _, name, hName⟩ := h.place hi
    exact ⟨i, t, name, hi, hName, h.map_name_parameters hi hName ▸ hr⟩
  · rintro ⟨i, t, name, hi, hName, hr⟩
    exact ⟨t, List.mem_of_getElem? hi, (h.map_name_parameters hi hName).symm ▸ hr⟩

/-- The parameters of the properties before a position come first. These are the ones that stand in
the way of a name. -/
theorem namesBefore_eq (index : Nat) :
    w.namesBefore index = Symbol.wrapperNames w.names (transfers.take index) := by
  have hPlace {p : Parameter} {i : Nat} {t : Transfer} (ht : transfers[i]? = some t)
      (hp : p ∈ t.parameters) : p.property = i :=
    (Transfer.property_of_mem_parameters hp).trans (h.place ht).1
  have hBefore : ∀ p ∈ (transfers.take index).flatMap Transfer.parameters,
      decide (p.property < index) = true := by
    intro p hp
    obtain ⟨t, ht, hOwn⟩ := List.mem_flatMap.mp hp
    obtain ⟨i, hi⟩ := List.mem_iff_getElem?.mp ht
    rw [List.getElem?_take, Option.ite_none_right_eq_some] at hi
    exact decide_eq_true (hPlace hi.2 hOwn ▸ hi.1)
  have hAfter : ∀ p ∈ (transfers.drop index).flatMap Transfer.parameters,
      ¬ decide (p.property < index) = true := by
    intro p hp
    obtain ⟨t, ht, hOwn⟩ := List.mem_flatMap.mp hp
    obtain ⟨i, hi⟩ := List.mem_iff_getElem?.mp ht
    rw [List.getElem?_drop] at hi
    rw [hPlace hi hOwn, decide_eq_true_eq]
    omega
  rw [namesBefore, h.parameters, Symbol.wrapperNames]
  conv_lhs => rw [← List.take_append_drop index transfers]
  rw [List.flatMap_append, List.filter_append, List.filter_eq_self.mpr hBefore,
    List.filter_eq_nil_iff.mpr hAfter, List.append_nil]

theorem takesLength_eq {i : Nat} {t : Transfer} (ht : transfers[i]? = some t) :
    w.takesLength i = t.needsLength := by
  rw [Bool.eq_iff_iff, takesLength, List.any_eq_true, h.parameters]
  simp only [Bool.and_eq_true, beq_iff_eq]
  constructor
  · rintro ⟨p, hp, hProperty, hRole⟩
    obtain ⟨other, hOther, hOwn⟩ := List.mem_flatMap.mp hp
    obtain ⟨j, hj⟩ := List.mem_iff_getElem?.mp hOther
    rw [Transfer.property_of_mem_parameters hOwn, (h.place hj).1] at hProperty
    rw [hProperty, ht] at hj
    cases hj
    rcases Transfer.mem_parameters_iff.mp hOwn with ⟨hNeeds, _⟩ | rfl
    · exact hNeeds
    · cases hRole
  · intro hNeeds
    have hOwn := Transfer.mem_parameters_iff.mpr (.inl ⟨hNeeds, rfl⟩)
    exact ⟨t.lengthParameter, List.mem_flatMap.mpr ⟨t, List.mem_of_getElem? ht, hOwn⟩,
      (h.place ht).1, rfl⟩

/-- A property gets the first of its attempts that no parameter before it stands in the way of.
Names in the body of the wrapper do not stand in the way. -/
theorem firstFree {i : Nat} {p : Property} (hp : properties[i]? = some p) :
    ∃ t name, transfers[i]? = some t ∧ w.names[i]? = some name ∧
      Symbol.FirstFree (w.namesBefore i) t.needsLength i (sanitize p.name) name := by
  rw [h.namesBefore_eq, h.names]
  exact Symbol.firstFree_parameterNames h.planned hp

/-- The names of the parameters, from the properties alone. -/
theorem mem_parameterNames_iff_binds {r : String} :
    r ∈ w.parameterNames ↔ w.Binds properties r := by
  rw [h.mem_parameterNames_iff]
  constructor
  · rintro ⟨i, t, name, ht, hName, hr⟩
    obtain ⟨_, ⟨p, hp⟩, _⟩ := h.place ht
    obtain ⟨t', name', ht', hName', hFirst⟩ := h.firstFree hp
    cases ht.symm.trans ht'
    cases hName.symm.trans hName'
    rw [← h.takesLength_eq ht] at hFirst hr
    exact ⟨i, p, name, hp, hFirst, hr⟩
  · rintro ⟨i, p, name, hp, hFirst, hr⟩
    obtain ⟨t, name', ht, hName, hFirst'⟩ := h.firstFree hp
    rw [h.takesLength_eq ht] at hFirst hr
    rw [hFirst.unique hFirst'] at hr
    exact ⟨i, t, name', ht, hName, hr⟩

/-- A property without a length never gives way to anything but a parameter of its own name. So its
sanitized name is always among the parameters. -/
theorem sanitize_mem_parameterNames {i : Nat} {p : Property} (hp : properties[i]? = some p)
    (hLength : w.takesLength i = false) : sanitize p.name ∈ w.parameterNames := by
  obtain ⟨t, name, ht, hName, hFirst⟩ := h.firstFree hp
  rw [← h.takesLength_eq ht, hLength] at hFirst
  cases hTaken : Symbol.isTaken (w.namesBefore i) false (sanitize p.name) with
  | false =>
      rw [hFirst.eq_of_free hTaken] at hName
      refine h.mem_parameterNames_iff.mpr ⟨i, t, _, ht, hName, ?_⟩
      rw [← h.takesLength_eq ht, hLength]
      exact List.mem_singleton_self _
  | true =>
      obtain ⟨r, hr, hBefore⟩ := Symbol.isTaken_iff.mp hTaken
      rw [List.mem_singleton.mp hr] at hBefore
      exact (List.filter_sublist.map _).subset hBefore

end Passes

end EventWrite

/-- Every planned write passes the properties of its event. -/
theorem PlannedWrite.exists_passes {bits : List EnableBit} {e : Event} {d : EventDescriptor}
    {w : EventWrite} (h : PlannedWrite bits e d (some w)) :
    ∃ transfers, w.Passes e.properties transfers := by
  cases h with
  | logged _ _ hTransfers => exact ⟨_, hTransfers, rfl, rfl⟩

namespace GenerationPlan

/-- The body of a wrapper loses a name of the header exactly if a property of the event ends up with
it. No name is lost unless it begins with the name of a property, and the name of a property that
takes no length is always lost. -/
theorem body_hidden_iff {m : Manifest} {tables : List SymbolTable} {plan : GenerationPlan}
    (hTables : SymbolTable.resolveAll m.providers = some tables)
    (hPlan : (build m tables).plan = some plan) :
    List.Forall₂ (fun (p : Provider) (q : ProviderPlan) =>
        List.Forall₂ (fun (e : Event) (planned : EventPlan) =>
          e.notLogged = false → ∃ w, planned.write = some w ∧
            ∀ g ∈ q.bodyIdentifiers planned w,
              (g ∈ w.parameterNames ↔ w.Binds e.properties g) ∧
              ((∀ property ∈ e.properties, ¬(sanitize property.name).toList <+: g.toList) →
                g ∉ w.parameterNames) ∧
              ∀ i property, e.properties[i]? = some property → w.takesLength i = false →
                sanitize property.name = g → g ∈ w.parameterNames)
          p.events q.events)
      m.providers plan.providers := by
  refine (forall₂_events_of_build hTables hPlan).imp fun p q hEvents => hEvents.imp ?_
  rintro e ⟨symbol, d, write⟩ ⟨hWrite, _⟩ hLogged
  cases write with
  | none =>
      cases hWrite with
      | unlogged hUnlogged => simp [hLogged] at hUnlogged
  | some w =>
      obtain ⟨transfers, hPasses⟩ := hWrite.exists_passes
      refine ⟨w, rfl, fun g _ => ⟨hPasses.mem_parameterNames_iff_binds, fun hNone hMem => ?_, ?_⟩⟩
      · obtain ⟨property, hProperty, hPrefix⟩ :=
          (hPasses.mem_parameterNames_iff_binds.mp hMem).exists_isPrefix
        exact hNone property hProperty hPrefix
      · rintro i property hProperty hLength rfl
        exact hPasses.sanitize_mem_parameterNames hProperty hLength

/-- The names that the wrapper of the event `E` needs, if its provider is `P` and it has five
numbers. -/
def neededNames : List String :=
  ["E", "P_Context", "EventEnabledE", "Template_ddddd", "McTemplateU0ddddd"]

/-- The event has numbers of just these names. -/
def hidingNumbers : Manifest where
  providers :=
    [.bare "P" [⟨1, 0, none, none, none, none, [], false, some "E",
      some ⟨neededNames.map (Property.ofType · .uint32)⟩⟩]]

/-- The plan is made in full, and the parameters have all the names that the body needs. -/
theorem build_hidingNumbers :
    ∃ tables ∈ SymbolTable.resolveAll hidingNumbers.providers,
      ∃ plan ∈ (build hidingNumbers tables).plan, ∃ q ∈ plan.providers, ∃ e ∈ q.events,
        ∃ w ∈ e.write, q.bodyIdentifiers e w = neededNames ∧ w.parameterNames = neededNames := by
  decide

/-- Every name that a wrapper's body needs can be hidden, all of them at once. Planning does not
keep parameters from such names. -/
theorem body_hidden_hidingNumbers :
    ∃ tables plan, SymbolTable.resolveAll hidingNumbers.providers = some tables ∧
      (build hidingNumbers tables).plan = some plan ∧
      ∃ q ∈ plan.providers, ∃ e ∈ q.events, ∃ w, e.write = some w ∧
        "P_Context" ∈ q.bodyIdentifiers e w ∧
        ∀ g ∈ q.bodyIdentifiers e w, g ∈ w.parameterNames := by
  obtain ⟨tables, hTables, plan, hPlan, q, hq, e, he, w, hw, hBody, hNames⟩ := build_hidingNumbers
  refine ⟨tables, plan, hTables, hPlan, q, hq, e, he, w, hw, ?_, fun g hg => ?_⟩
  · rw [hBody]
    decide
  · rwa [hNames, ← hBody]

/-- They are hidden because numbers end up with them. None of the numbers needed a second
attempt. -/
theorem body_hidden_iff_hidingNumbers :
    ∃ tables plan q planned w, SymbolTable.resolveAll hidingNumbers.providers = some tables ∧
      (build hidingNumbers tables).plan = some plan ∧ plan.providers = [q] ∧
      q.events = [planned] ∧ planned.write = some w ∧
      ∀ g ∈ q.bodyIdentifiers planned w,
        g ∈ w.parameterNames ↔ w.Binds (neededNames.map (Property.ofType · .uint32)) g := by
  obtain ⟨tables, hTables, plan, hPlan, _⟩ := build_hidingNumbers
  obtain ⟨q, _, hEvents, hNoOther, hProviders⟩ :=
    List.forall₂_cons_left_iff.mp (body_hidden_iff hTables hPlan)
  cases hNoOther
  obtain ⟨planned, _, hEvent, hNoOther, hPlanned⟩ := List.forall₂_cons_left_iff.mp hEvents
  cases hNoOther
  obtain ⟨w, hw, hBody⟩ := hEvent rfl
  exact ⟨tables, plan, q, planned, w, hTables, hPlan, hProviders, hPlanned, hw,
    fun g hg => (hBody g hg).1⟩

end GenerationPlan

end EventManifest
