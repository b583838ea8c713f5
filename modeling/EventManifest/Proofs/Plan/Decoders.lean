import EventManifest.Proofs.Plan.Outline

/-!
Manifests that differ in what only serves decoders. Such a difference shows neither in the tables
nor in the plan, the reports or the header, whether the compilation succeeds or fails.
-/

namespace EventManifest

/-- The name of a value map and the members of a structure may differ. -/
inductive Property.DiffersForDecoders : Property → Property → Prop where
  | data (property : DataProperty) (map : Option String) :
      DiffersForDecoders (.data property) (.data { property with map := map })
  | struct (name : String) (count : Option Cardinality) (members members' : List Property) :
      DiffersForDecoders (.struct name count members) (.struct name count members')

/-- The template of an event that is not logged may differ in any way. -/
structure Event.DiffersForDecoders (e e' : Event) : Prop where
  rest : e' = { e with template := e'.template }
  template : e.notLogged = false →
    Option.Rel (fun t t' => List.Forall₂ Property.DiffersForDecoders t.properties t'.properties)
      e.template e'.template

/-- The messages of items may differ. -/
structure ValueMap.DiffersForDecoders (m m' : ValueMap) : Prop where
  rest : m' = { m with items := m'.items }
  items : List.Forall₂ (fun i i' => i' = { i with message := i'.message }) m.items m'.items

structure Provider.DiffersForDecoders (p p' : Provider) : Prop where
  rest : p' = { p with maps := p'.maps, strings := p'.strings, events := p'.events }
  maps : List.Forall₂ ValueMap.DiffersForDecoders p.maps p'.maps
  /-- The texts of strings may differ. -/
  strings : List.Forall₂ (fun s s' => s' = { s with value := s'.value }) p.strings p'.strings
  events : List.Forall₂ Event.DiffersForDecoders p.events p'.events

def Manifest.DiffersForDecoders (m m' : Manifest) : Prop :=
  List.Forall₂ Provider.DiffersForDecoders m.providers m'.providers

theorem map_eq_map_of_forall₂ {α β : Type} {f : α → β} {R : α → α → Prop} {as bs : List α}
    (hEach : ∀ a b, R a b → f a = f b) (h : List.Forall₂ R as bs) : as.map f = bs.map f := by
  induction h with
  | nil => rfl
  | cons hHead _ ih => rw [List.map_cons, List.map_cons, hEach _ _ hHead, ih]

theorem map_eq_map_of_rel {α β : Type} {f : α → β} {R : α → α → Prop} {a b : Option α}
    (hEach : ∀ a b, R a b → f a = f b) (h : Option.Rel R a b) : a.map f = b.map f := by
  cases h with
  | none => rfl
  | some hSome => rw [Option.map_some, Option.map_some, hEach _ _ hSome]

/-- What is left of a property in outline is what its shape and its name are made of. -/
theorem Property.DiffersForDecoders.outline_eq {p p' : Property} (h : p.DiffersForDecoders p') :
    p.outline = p'.outline := by
  cases h <;> rfl

/-- An event that is not logged has no payload in outline, so its template may be any. -/
theorem Event.DiffersForDecoders.outline_eq {e e' : Event} (h : e.DiffersForDecoders e') :
    e.outline = e'.outline := by
  obtain ⟨hRest, hTemplate⟩ := h
  rw [hRest]
  cases hLogged : e.notLogged with
  | true => simp [outline, hLogged]
  | false =>
      have hOutlines : e.template.map (fun t => Template.mk (t.properties.map Property.outline)) =
          e'.template.map fun t => ⟨t.properties.map Property.outline⟩ := by
        refine map_eq_map_of_rel (fun t t' hProperties => ?_) (hTemplate hLogged)
        rw [map_eq_map_of_forall₂ (fun _ _ h => h.outline_eq) hProperties]
      simp [outline, hLogged, hOutlines]

theorem ValueMap.DiffersForDecoders.outline_eq {m m' : ValueMap} (h : m.DiffersForDecoders m') :
    m.outline = m'.outline := by
  have hItems : m.items.map MapItem.outline = m'.items.map MapItem.outline := by
    refine map_eq_map_of_forall₂ (fun item item' hItem => ?_) h.items
    rw [hItem]
    rfl
  rw [h.rest, outline, outline, hItems]

theorem Provider.DiffersForDecoders.outline_eq {p p' : Provider} (h : p.DiffersForDecoders p') :
    p.outline = p'.outline := by
  have hMaps : p.maps.map ValueMap.outline = p'.maps.map ValueMap.outline :=
    map_eq_map_of_forall₂ (fun _ _ h => h.outline_eq) h.maps
  have hStrings : p.strings.map LocalizedString.outline =
      p'.strings.map LocalizedString.outline := by
    refine map_eq_map_of_forall₂ (fun s s' hString => ?_) h.strings
    rw [hString]
    rfl
  have hEvents : p.events.map Event.outline = p'.events.map Event.outline :=
    map_eq_map_of_forall₂ (fun _ _ h => h.outline_eq) h.events
  rw [h.rest, outline, outline, hMaps, hStrings, hEvents]

/-- Manifests that differ for decoders only have one outline. From here on only outlines are
compared. -/
theorem Manifest.DiffersForDecoders.outline_eq {m m' : Manifest} (h : m.DiffersForDecoders m') :
    m.outline = m'.outline := by
  have hProviders : m.providers.map Provider.outline = m'.providers.map Provider.outline :=
    map_eq_map_of_forall₂ (fun _ _ h => h.outline_eq) h
  rw [outline, outline, hProviders]

/-- The same end of a run of another manifest. -/
def Run.withManifest (run : Run) (m : Manifest) : Run :=
  { run with state := { run.state with manifest := m } }

/-- No stage changes the manifest. What it leaves behind is made of other parts of the state. -/
theorem Compilation.manifest_runStage (options : HeaderOptions) (stage : Stage)
    (c : Compilation) : (runStage options c stage).state.manifest = c.manifest := by
  obtain ⟨_, tables, plan, header, diagnostics, failed, provenance⟩ := c
  cases stage with
  | resolve => rfl
  | plan => cases tables <;> rfl
  | render => cases plan <;> rfl

section SameOutline

variable {m m' : Manifest} (hOutline : m.outline = m'.outline)

include hOutline

/-- Symbols are made of the outline. In particular texts of messages are not looked at. -/
theorem SymbolTable.resolveAll_of_outline_eq :
    resolveAll m'.providers = resolveAll m.providers := by
  rw [← resolveAll_outline m'.providers, ← resolveAll_outline m.providers]
  exact congrArg (fun m => resolveAll m.providers) hOutline.symm

theorem SymbolTable.defects_of_outline_eq : defects m' = defects m := by
  rw [← defects_outline m', ← hOutline, defects_outline]

/-- So is the plan with all its reports, for any tables. -/
theorem GenerationPlan.build_of_outline_eq (tables : List SymbolTable) :
    build m' tables = build m tables := by
  rw [← build_outline m', ← hOutline, build_outline]

namespace Compilation

/-- A stage does to one manifest what it does to the other. The reports and the logs are the same
too. -/
theorem runStage_of_outline_eq (options : HeaderOptions) (stage : Stage) (c : Compilation) :
    runStage options { c with manifest := m' } stage =
      (runStage options { c with manifest := m } stage).withManifest m' := by
  obtain ⟨_, tables, plan, header, diagnostics, failed, provenance⟩ := c
  cases stage with
  | resolve =>
      simp only [runStage, resolve, SymbolTable.resolveAll_of_outline_eq hOutline,
        SymbolTable.defects_of_outline_eq hOutline]
      rfl
  | plan =>
      simp only [runStage, makePlan, GenerationPlan.build_of_outline_eq hOutline]
      cases tables <;> rfl
  | render => cases plan <;> rfl

/-- By induction over the stages. A run that stops early stops for both at the same stage. -/
theorem runStages_of_outline_eq (options : HeaderOptions) (stages : List Stage)
    (c : Compilation) :
    runStages options { c with manifest := m' } stages =
      (runStages options { c with manifest := m } stages).withManifest m' := by
  induction stages generalizing c with
  | nil => rfl
  | cons stage stages ih =>
      rw [runStages, runStages, runStage_of_outline_eq hOutline]
      have hManifest := manifest_runStage options stage { c with manifest := m }
      generalize runStage options { c with manifest := m } stage = first at hManifest
      obtain ⟨state, notices, failedAt⟩ := first
      cases failedAt with
      | some stage => rfl
      | none =>
          dsimp only at hManifest
          have hState : { state with manifest := m } = state := by rw [← hManifest]
          simp only [Run.withManifest, ih state, hState]

end Compilation

end SameOutline

/-- Manifests that differ for decoders only are resolved to the same tables with the same reports,
planned alike whatever the tables are, and compiled alike by every run. -/
theorem Compilation.run_of_differsForDecoders {m m' : Manifest} (h : m.DiffersForDecoders m') :
    SymbolTable.resolveAll m'.providers = SymbolTable.resolveAll m.providers ∧
      SymbolTable.defects m' = SymbolTable.defects m ∧
      (∀ tables, GenerationPlan.build m' tables = GenerationPlan.build m tables) ∧
      ∀ options target (c : Compilation),
        run options target { c with manifest := m' } =
          (run options target { c with manifest := m }).withManifest m' := by
  have hOutline := h.outline_eq
  exact ⟨SymbolTable.resolveAll_of_outline_eq hOutline,
    SymbolTable.defects_of_outline_eq hOutline, GenerationPlan.build_of_outline_eq hOutline,
    fun options target => runStages_of_outline_eq hOutline options target.required⟩

/-- A logged and an unlogged event, a map and a string, with free choice of what decoders see. -/
def decoderChoices (hidden : Option Template) (members : List Property)
    (map message : Option String) (text : String) : Manifest :=
  ⟨[{ Provider.bare "P"
        [⟨1, 0, none, none, none, none, [], false, some "Shown",
            some ⟨[.data ⟨"A", .uint32, none, none, map⟩, .struct "B" none members]⟩⟩,
          ⟨2, 0, none, none, none, none, [], true, some "Hidden", hidden⟩] with
      maps := [⟨"M", .value, none, [⟨1, none, message⟩]⟩]
      strings := [⟨"S", text, none, some 7⟩] }]⟩

/-- All these manifests are the same but for what decoders see. -/
theorem differsForDecoders_decoderChoices (hidden hidden' : Option Template)
    (members members' : List Property) (map map' message message' : Option String)
    (text text' : String) :
    (decoderChoices hidden members map message text).DiffersForDecoders
      (decoderChoices hidden' members' map' message' text') := by
  refine .cons ⟨rfl, ?_, ?_, ?_⟩ .nil
  · exact .cons ⟨rfl, .cons rfl .nil⟩ .nil
  · exact .cons rfl .nil
  · refine .cons ⟨rfl, fun _ => .some ?_⟩ (.cons ⟨rfl, fun hLogged => ?_⟩ .nil)
    · exact .cons (.data _ map') (.cons (.struct "B" none members members') .nil)
    · cases hLogged

/-- The template of the event that is not logged has binary data without a length, which no logged
event may have. Both manifests have a plan. -/
theorem run_of_differsForDecoders_decoderChoices :
    ∃ m m' tables plan, m = decoderChoices none [] none none "" ∧
      m' = decoderChoices (some ⟨[.ofType "Data" .binary]⟩) [.ofType "Part" .guid] (some "M")
        (some "one") "text" ∧
      SymbolTable.resolveAll m.providers = some tables ∧
      (GenerationPlan.build m tables).plan = some plan ∧
      SymbolTable.resolveAll m'.providers = some tables ∧
      (GenerationPlan.build m' tables).plan = some plan ∧
      ∀ options target, Compilation.run options target { manifest := m' } =
        (Compilation.run options target { manifest := m }).withManifest m' := by
  have hPlanned : ∃ tables ∈ SymbolTable.resolveAll (decoderChoices none [] none none "").providers,
      ∃ plan, plan ∈ (GenerationPlan.build (decoderChoices none [] none none "") tables).plan := by
    simp only [← Option.isSome_iff_exists, Option.mem_def]
    decide
  obtain ⟨tables, hTables, plan, hPlan⟩ := hPlanned
  obtain ⟨hResolved, _, hBuild, hRun⟩ := Compilation.run_of_differsForDecoders
    (differsForDecoders_decoderChoices none (some ⟨[.ofType "Data" .binary]⟩) []
      [.ofType "Part" .guid] none (some "M") none (some "one") "" "text")
  exact ⟨_, _, tables, plan, rfl, rfl, hTables, hPlan, hResolved.trans hTables,
    (congrArg PlanResult.plan (hBuild tables)).trans hPlan,
    fun options target => hRun options target { manifest := ⟨[]⟩ }⟩

end EventManifest
