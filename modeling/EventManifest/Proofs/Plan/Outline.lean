import EventManifest.Proofs.Activity.Candidates

/-!
What a manifest says to decoders only: the templates of events that are not logged, the members of
structures, the value maps of properties, the messages of map items and the texts of strings. The
outline of a manifest is the manifest without all this. Resolving, planning and the search for
activities do not tell a manifest from its outline.
-/

namespace EventManifest

def Property.outline : Property → Property
  | data property => data { property with map := none }
  | struct name count _ => struct name count []

/-- An event that is not logged has no template at all. -/
def Event.outline (e : Event) : Event :=
  { e with
    template :=
      if e.notLogged then none else e.template.map fun t => ⟨t.properties.map Property.outline⟩ }

def MapItem.outline (item : MapItem) : MapItem :=
  { item with message := none }

def ValueMap.outline (m : ValueMap) : ValueMap :=
  { m with items := m.items.map MapItem.outline }

def LocalizedString.outline (s : LocalizedString) : LocalizedString :=
  { s with value := "" }

def Provider.outline (p : Provider) : Provider :=
  { p with
    maps := p.maps.map ValueMap.outline
    strings := p.strings.map LocalizedString.outline
    events := p.events.map Event.outline }

def Manifest.outline (m : Manifest) : Manifest :=
  ⟨m.providers.map Provider.outline⟩

/-! ### Properties -/

section Properties

@[simp] theorem Property.name_outline (p : Property) : p.outline.name = p.name := by
  cases p <;> rfl

@[simp] theorem Property.count_outline (p : Property) : p.outline.count = p.count := by
  cases p <;> rfl

@[simp] theorem Property.length_outline (p : Property) : p.outline.length = p.length := by
  cases p <;> rfl

@[simp] theorem Property.category_outline (p : Property) : p.outline.category = p.category := by
  cases p <;> rfl

variable (properties : List Property)

/-- References go by the names of properties, which an outline keeps. -/
theorem Shape.resolveOptional_outline (index : Nat) (owner what : String)
    (cardinality : Option Cardinality) :
    resolveOptional (properties.map Property.outline) index owner what cardinality =
      resolveOptional properties index owner what cardinality := by
  cases cardinality with
  | none => rfl
  | some cardinality =>
      cases cardinality with
      | fixed value => rfl
      | ref target => simp [resolveOptional, resolveBound, List.findIdx?_map, Function.comp_def]

/-- An outline has the same shapes, and is refused for the same defects in the same words. The
members of a structure have no part in its shape. -/
@[simp] theorem Shape.resolveAll_outline :
    resolveAll (properties.map Property.outline) = resolveAll properties := by
  simp [resolveAll, resolve, List.zipIdx_map, resolveOptional_outline, Function.comp_def]

/-- Hence the same key. -/
@[simp] theorem Template.keyOf_outline :
    keyOf (properties.map Property.outline) = keyOf properties := by
  simp [keyOf]

@[simp] theorem Transfer.ofProperties_outline :
    ofProperties (properties.map Property.outline) = ofProperties properties := by
  simp [ofProperties]

@[simp] theorem Symbol.parameterNames_outline (transfers : List Transfer) :
    parameterNames (properties.map Property.outline) transfers =
      parameterNames properties transfers := by
  simp [parameterNames, List.zipIdx_map, Function.comp_def]

@[simp] theorem TemplatePlan.ofProperties_outline (key : String) :
    ofProperties key (properties.map Property.outline) = ofProperties key properties := by
  simp [ofProperties]

/-- The parameters of a write, with their names and types, come from the outline alone. -/
@[simp] theorem ProviderPlan.planWrite_outline (bits : List EnableBit) (key : String)
    (d : EventDescriptor) :
    planWrite bits key (properties.map Property.outline) d = planWrite bits key properties d := by
  simp [planWrite]

end Properties

/-- The payload of a logged event keeps its properties, each in outline. That of other events is
left out. -/
theorem Event.properties_outline {e : Event} (hLogged : e.notLogged = false) :
    e.outline.properties = e.properties.map Property.outline := by
  cases hTemplate : e.template <;> simp [properties, outline, hLogged, hTemplate]

/-! ### Resolving -/

namespace SymbolTable

theorem resolveMap_outline (provider : String) (m : ValueMap) :
    resolveMap provider m.outline = resolveMap provider m := by
  simp only [resolveMap, ValueMap.outline, List.zipIdx_map, List.map_map]
  rfl

theorem lookup_outline (index : ValueIndex) (e : Event) (name : Option String) :
    index.lookup e.outline name = index.lookup e name := by
  cases name <;> rfl

theorem lookupAll_outline (index : ValueIndex) (e : Event) (mask : UInt64) (names : List String) :
    index.lookupAll e.outline mask names = index.lookupAll e mask names := by
  induction names generalizing mask with
  | nil => rfl
  | cons name names ih => simp only [ValueIndex.lookupAll, lookup_outline, ih]

/-- An event refers to the same numbers, and where it cannot, it is reported in the same words.
References stand in the outline as they are. -/
theorem describe_outline (index : ReferenceIndex) (e : Event) :
    index.describe e.outline = index.describe e := by
  simp only [ReferenceIndex.describe, lookupAll_outline, lookup_outline]
  rfl

theorem resolveEvents_outline (provider : String) (index : ReferenceIndex) (symbol : String)
    (seen : List (UInt16 × UInt8)) (events : List Event) :
    resolveEvents provider index symbol seen (events.map Event.outline) =
      resolveEvents provider index symbol seen events := by
  have hIdentity (e : Event) : e.outline.identity = e.identity := rfl
  induction events generalizing seen with
  | nil => rfl
  | cons e events ih =>
      rw [List.map_cons, resolveEvents, resolveEvents, describe_outline, hIdentity, ih]
      rfl

/-- Symbols of maps, strings and values are made of names, which stay. Messages are not looked
at. -/
theorem withEvents_outline (p : Provider) (events : List ResolvedEvent) :
    withEvents p.outline events = withEvents p events := by
  have hMaps : p.outline.maps.map (resolveMap (Symbol.ofProvider p)) =
      p.maps.map (resolveMap (Symbol.ofProvider p)) := by
    simp [Provider.outline, resolveMap_outline]
  have hStrings : p.outline.strings.map (resolveString (Symbol.ofProvider p)) =
      p.strings.map (resolveString (Symbol.ofProvider p)) := by
    rw [Provider.outline, List.map_map]
    rfl
  have hSymbol : Symbol.ofProvider p.outline = Symbol.ofProvider p := rfl
  simp only [withEvents, hSymbol, hMaps, hStrings]
  rfl

/-- A provider and its outline have the same table, or the same defect. -/
@[simp] theorem resolve_outline (p : Provider) : resolve p.outline = resolve p := by
  have hEvents : resolveEvents p.outline.name (.ofProvider p.outline) (Symbol.ofProvider p.outline)
      [] p.outline.events =
        resolveEvents p.name (.ofProvider p) (Symbol.ofProvider p) [] p.events :=
    resolveEvents_outline p.name (.ofProvider p) (Symbol.ofProvider p) [] p.events
  simp only [resolve, hEvents, withEvents_outline]

theorem resolveAll_outline (providers : List Provider) :
    resolveAll (providers.map Provider.outline) = resolveAll providers := by
  induction providers with
  | nil => rfl
  | cons p providers ih => rw [List.map_cons, resolveAll, resolveAll, resolve_outline, ih]

theorem defects_outline (m : Manifest) : defects m.outline = defects m := by
  simp only [defects, Manifest.outline, List.filterMap_map, Function.comp_def, resolve_outline]
  rfl

end SymbolTable

/-! ### Templates -/

namespace KeyedTable

variable {α β : Type}

/-- A table with other values under the same keys. -/
def map (f : α → β) (t : KeyedTable α) : KeyedTable β where
  entries := t.entries.map fun entry => (entry.1, f entry.2)
  sorted := List.pairwise_map.mpr t.sorted

/-- Whether a key is free does not depend on the values, so they can be changed before or after. -/
theorem map_insert (f : α → β) (key : String) (value : α) (t : KeyedTable α) :
    (t.insert key value).map f = (t.map f).insert key (f value) := by
  have hEntries (entries : List (String × α)) :
      (insertEntry key value entries).map (fun entry => (entry.1, f entry.2)) =
        insertEntry key (f value) (entries.map fun entry => (entry.1, f entry.2)) := by
    induction entries with
    | nil => rfl
    | cons first rest ih =>
        simp only [insertEntry, List.map_cons, ← ih]
        split
        · rfl
        · split
          · rfl
          · rfl
  exact KeyedTable.mk.injEq .. ▸ hEntries t.entries

/-- The same for all entries of another table. -/
theorem map_merge (f : α → β) (t other : KeyedTable α) :
    (t.merge other).map f = (t.map f).merge (other.map f) := by
  have hFold (entries : List (String × α)) (t : KeyedTable α) :
      (entries.foldl (fun t entry => t.insert entry.1 entry.2) t).map f =
        (entries.map fun entry => (entry.1, f entry.2)).foldl
          (fun t entry => t.insert entry.1 entry.2) (t.map f) := by
    induction entries generalizing t with
    | nil => rfl
    | cons first rest ih => rw [List.foldl_cons, ih, map_insert, List.map_cons, List.foldl_cons]
  exact hFold other.entries t

end KeyedTable

def TemplateTable.outline (t : TemplateTable) : TemplateTable :=
  t.map (List.map Property.outline)

def ProviderTemplates.outline (grouped : ProviderTemplates) : ProviderTemplates :=
  { grouped with templates := TemplateTable.outline grouped.templates }

/-- The templates of events that are not logged are not looked at, and those of the others have the
same keys or the same defects. -/
theorem ProviderTemplates.collect_outline (index : Nat) (templates : TemplateTable)
    (events : List Event) :
    collect index (TemplateTable.outline templates) (events.map Event.outline) =
      (collect index templates events).map ProviderTemplates.outline := by
  induction events generalizing index templates with
  | nil => rfl
  | cons e events ih =>
      have hNotLogged : e.outline.notLogged = e.notLogged := rfl
      rw [List.map_cons, collect, collect, hNotLogged]
      split
      · rw [ih]
        cases collect (index + 1) templates events <;> rfl
      · rename_i hLogged
        rw [Event.properties_outline (by simpa using hLogged), Template.keyOf_outline]
        cases Template.keyOf e.properties with
        | error defect => rfl
        | ok key =>
            have hInsert : KeyedTable.insert key (e.properties.map Property.outline)
                (TemplateTable.outline templates) =
                  TemplateTable.outline (KeyedTable.insert key e.properties templates) :=
              (KeyedTable.map_insert _ key e.properties templates).symm
            dsimp only
            rw [hInsert, ih]
            cases collect (index + 1) (templates.insert key e.properties) events <;> rfl

/-- The keys are the same, and under each stands the outline of what stood there. -/
theorem ProviderTemplates.ofEvents_outline (events : List Event) :
    ofEvents (events.map Event.outline) = (ofEvents events).map ProviderTemplates.outline :=
  collect_outline 0 .empty events

/-! ### Activities -/

namespace Activity

def Mark.outline (m : Mark) : Mark :=
  { m with event := m.event.outline }

/-- Outlines of events keep their opcodes and versions, and whether they are logged. -/
theorem marks_outline (events : List Event) :
    marks (events.map Event.outline) = (marks events).map Mark.outline := by
  rw [marks, marks, List.zipIdx_map, List.filterMap_map, List.map_filterMap]
  refine List.filterMap_congr fun x _ => ?_
  have hNotLogged : x.1.outline.notLogged = x.1.notLogged := rfl
  have hPhase : x.1.outline.phase? = x.1.phase? := rfl
  simp only [Function.comp_apply, Prod.map_fst, Prod.map_snd, id_eq, hNotLogged, hPhase]
  split
  · rfl
  · cases x.1.phase? <;> rfl

theorem latest?_outline (all : List Mark) (value : UInt16) :
    latest? (all.map Mark.outline) value = (latest? all value).map Mark.outline := by
  have hNewer (best : Option Mark) (m : Mark) :
      newer (best.map Mark.outline) m.outline = (newer best m).map Mark.outline := by
    cases best with
    | none => rfl
    | some b =>
        simp only [newer, Option.map_some]
        split
        · rename_i hLess
          rw [if_pos (show b.event.version < m.event.version from hLess)]
          rfl
        · rename_i hNotLess
          rw [if_neg (show ¬ b.event.version < m.event.version from hNotLess)]
          rfl
  rw [latest?, latest?, List.filter_map, List.foldl_map]
  change List.foldl _ (Option.map Mark.outline none) _ = _
  refine List.foldl_hom (Option.map Mark.outline) ?_
  exact hNewer

theorem values_outline (all : List Mark) : values (all.map Mark.outline) = values all := by
  rw [values, values, List.map_map]
  rfl

/-- Whether a stop has a payload can be seen from its outline, since only logged events are
marked. -/
theorem isEmpty_properties_outline {events : List Event} {value : UInt16} {m : Mark}
    (h : latest? (marks events) value = some m) :
    m.outline.event.properties.isEmpty = m.event.properties.isEmpty := by
  obtain ⟨hNone, _⟩ | ⟨n, hSome, hn, _⟩ := latest?_cases (marks events) value
  · cases hNone.symm.trans h
  · cases hSome.symm.trans h
    have hLogged := (mem_marks_iff.mp hn).2.1
    rw [Mark.outline, Event.properties_outline hLogged, List.isEmpty_map]

/-- Pairs are found alike. Whether a stop has a payload can be told from its outline, as it is
logged. -/
theorem candidateAt?_outline (table : SymbolTable) (events : List Event) (value : UInt16) :
    candidateAt? table (marks (events.map Event.outline)) value =
      candidateAt? table (marks events) value := by
  simp only [candidateAt?, marks_outline, latest?_outline]
  cases hStop : latest? (marks events) value with
  | none => rfl
  | some stop =>
      have hPayload := isEmpty_properties_outline hStop
      split
      · rfl
      · cases latest? (marks events) (value - 1) with
        | none => rfl
        | some start =>
            simp only [Option.map_some, Option.bind_eq_bind, Option.bind_some, hPayload]
            rfl

/-- Hence the same activities and issues, in the same order. -/
theorem find_outline (p : Provider) (table : SymbolTable) :
    find p.outline table = find p table := by
  have hCandidates : candidates p.outline table = candidates p table := by
    simp only [candidates, Provider.outline]
    rw [List.filterMap_congr fun value _ => candidateAt?_outline table p.events value,
      marks_outline, values_outline]
  rw [find, find, hCandidates]

end Activity

/-! ### Planning -/

def PlannedProvider.outline (planned : PlannedProvider) : PlannedProvider :=
  { planned with templates := TemplateTable.outline planned.templates }

namespace ProviderPlan

/-- An event that has a key is logged, so its payload is there in outline. Events without a key are
written without it anyway. -/
theorem planEvent_outline {p : Provider} {keys : List (Option String)}
    (hKeys : List.Forall₂ EventKey p.events keys) (bits : List EnableBit) (e : ResolvedEvent)
    (index : Nat) : planEvent p.outline keys bits e index = planEvent p keys bits e index := by
  have hEvents : p.outline.events[index]? = p.events[index]?.map Event.outline :=
    List.getElem?_map
  rw [planEvent, planEvent, hEvents]
  cases hKey : keys[index]?.join with
  | none => rfl
  | some key =>
      cases hEvent : p.events[index]? with
      | none => rfl
      | some event =>
          obtain ⟨hBound, rfl⟩ := List.getElem?_eq_some_iff.mp hEvent
          obtain ⟨hKeyBound, hAt⟩ :=
            List.getElem?_eq_some_iff.mp (Option.join_eq_some_iff.mp hKey)
          have hLogged : EventKey p.events[index] (some key) := hAt ▸ hKeys.get hBound hKeyBound
          simp only [Option.map_some,
            Event.properties_outline (EventKey.some_iff.mp hLogged).1, planWrite_outline]
          rfl

theorem assemble_outline (p : Provider) (table : SymbolTable) (traits : Option (List UInt8))
    (grouped : ProviderTemplates) (events : List EventPlan) :
    assemble p.outline table traits grouped.outline events =
      (assemble p table traits grouped events).outline := by
  have hSize (templates : TemplateTable) : (TemplateTable.outline templates).size = templates.size :=
    List.length_map _
  simp only [assemble, Activity.find_outline, summary, ProviderTemplates.outline, hSize]
  rfl

/-- A provider has the same plan as its outline. Only the templates that are handed on are outlines
themselves. -/
theorem build_outline (p : Provider) (table : SymbolTable) :
    build p.outline table = (build p table).map PlannedProvider.outline := by
  have hTraits : Traits.ofProvider p.outline = Traits.ofProvider p := rfl
  have hTemplates := ProviderTemplates.ofEvents_outline p.events
  rw [build, build, hTraits, Provider.outline]
  dsimp only
  rw [hTemplates, ← Provider.outline]
  cases Traits.ofProvider p with
  | error defect => rfl
  | ok traits =>
      cases hGrouped : ProviderTemplates.ofEvents p.events with
      | error defect => rfl
      | ok grouped =>
          have hPlan := planEvent_outline (ProviderTemplates.ofEvents_eq_ok hGrouped).1
          have hBits : bitsOf grouped.outline table = bitsOf grouped table := rfl
          have hKeys : grouped.outline.eventKeys = grouped.eventKeys := rfl
          simp only [Except.map, Except.mapError, bind, Except.bind, pure, Except.pure, hBits, hKeys,
            hPlan, assemble_outline]
          generalize (List.mapM _ _ : Except Diagnostic (List EventPlan)) = events
          cases events <;> rfl

end ProviderPlan

namespace GenerationPlan

/-- Outlines are made of the templates alone, and these are planned alike. So the last trace of what
was left out is gone. -/
theorem planTemplates_outline (templates : TemplateTable) :
    planTemplates (TemplateTable.outline templates) = planTemplates templates := by
  simp [planTemplates, TemplateTable.outline, KeyedTable.map, List.mapM_map, Function.comp_def]

theorem mergedTemplates_outline (planned : List PlannedProvider) :
    mergedTemplates (planned.map PlannedProvider.outline) =
      TemplateTable.outline (mergedTemplates planned) := by
  rw [mergedTemplates, mergedTemplates, List.foldl_map]
  change List.foldl _ (TemplateTable.outline .empty) _ = _
  refine List.foldl_hom TemplateTable.outline fun table p => ?_
  exact (KeyedTable.map_merge _ table p.templates).symm

theorem allOk_outline (outcomes : List (Except Diagnostic PlannedProvider)) :
    allOk (outcomes.map (Except.map PlannedProvider.outline)) =
      (allOk outcomes).map (List.map PlannedProvider.outline) := by
  induction outcomes with
  | nil => rfl
  | cons outcome outcomes ih =>
      cases outcome with
      | error d => rfl
      | ok planned =>
          simp only [List.map_cons, Except.map, allOk, ih]
          cases allOk outcomes <;> rfl

theorem buildAll_outline (providers : List (Provider × SymbolTable)) :
    buildAll (providers.map (Prod.map Provider.outline id)) = buildAll providers := by
  have hOutcomes (plan : Provider × SymbolTable → Except Diagnostic PlannedProvider)
      (hPlan : ∀ x, plan x = ProviderPlan.build x.1 x.2) :
      (providers.map (Prod.map Provider.outline id)).map plan =
        (providers.map plan).map (Except.map PlannedProvider.outline) := by
    simp [hPlan, ProviderPlan.build_outline]
  have hReports (outcome : Except Diagnostic PlannedProvider) :
      reports (outcome.map PlannedProvider.outline) = reports outcome := by
    cases outcome <;> rfl
  have hLog (outcome : Except Diagnostic PlannedProvider) :
      logOf (outcome.map PlannedProvider.outline) = logOf outcome := by
    cases outcome <;> rfl
  rw [buildAll, buildAll, hOutcomes _ fun _ => rfl]
  generalize providers.map _ = outcomes
  simp only [List.flatMap_map, hReports, hLog, allOk_outline]
  cases allOk outcomes with
  | none => rfl
  | some planned =>
      simp only [Option.map_some, mergedTemplates_outline, planTemplates_outline, List.map_map]
      rfl

theorem build_outline (m : Manifest) (tables : List SymbolTable) :
    build m.outline tables = build m tables := by
  rw [build, build, Manifest.outline, List.zip_map_left, buildAll_outline]

end GenerationPlan

end EventManifest
