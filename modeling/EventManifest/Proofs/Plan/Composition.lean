import EventManifest.Proofs.Plan.Templates

/-!
Planning by parts. What is reported about a provider and what is planned for it does not depend on
the others, and a template is dropped only for one with its key from an earlier provider. So the
plan of two groups of providers is put together from the plans of the groups, and it is there
exactly if both of them are.
-/

namespace EventManifest.GenerationPlan

/-- What planning makes of each provider with its table. -/
def outcomes (pairs : List (Provider × SymbolTable)) : List (Except Diagnostic PlannedProvider) :=
  pairs.map fun x => ProviderPlan.build x.1 x.2

/-- Tables need not belong to their providers here; the keys come from the events alone. -/
theorem faithful_of_allOk {pairs : List (Provider × SymbolTable)} {planned : List PlannedProvider}
    (h : allOk (outcomes pairs) = some planned) :
    TemplateTable.Faithful (mergedTemplates planned) := by
  intro key properties hGet
  rw [get?_mergedTemplates] at hGet
  obtain ⟨q, hq, hFirst⟩ := List.exists_of_findSome?_eq_some hGet
  obtain ⟨x, _, hBuild⟩ := Outcome.exists_of_mem_right (allOk_map_eq_some_iff.mp h) hq
  exact (ProviderPlan.templates_of_build hBuild).2 key properties hFirst

/-- A template that stands under its key can be planned, so a faithful table is planned whole.
Planning templates is never what a plan fails by. -/
theorem exists_planTemplates {table : TemplateTable} (h : TemplateTable.Faithful table) :
    ∃ templates, planTemplates table = .ok templates := by
  cases hTemplates : planTemplates table with
  | ok templates => exact ⟨templates, rfl⟩
  | error defect =>
      obtain ⟨before, ⟨key, properties⟩, after, hEntries, _, hRefused⟩ :=
        Outcome.mapM_eq_error_iff.mp hTemplates
      have hEntry : (key, properties) ∈ table.entries := by simp [hEntries]
      have hKey := h key properties (KeyedTable.mem_entries_iff.mp hEntry)
      obtain ⟨transfers, hTransfers⟩ := Template.ofProperties_of_keyOf hKey
      have hPlanned : TemplatePlan.ofProperties key properties = .ok (.ofTransfers key transfers) :=
        TemplatePlan.ofProperties_eq_ok_iff.mpr ⟨transfers, hTransfers, rfl⟩
      cases hPlanned.symm.trans hRefused

/-- The templates that a table is planned to. Each is planned from the properties that stand under
its key. -/
theorem mem_planTemplates_iff {table : TemplateTable} {templates : List TemplatePlan}
    (h : planTemplates table = .ok templates) {t : TemplatePlan} :
    t ∈ templates ↔
      ∃ properties, table.get? t.key = some properties ∧
        TemplatePlan.ofProperties t.key properties = .ok t := by
  constructor
  · intro ht
    obtain ⟨properties, transfers, hGet, hTransfers, hTemplate⟩ :=
      exists_of_mem_planTemplates h ht
    exact ⟨properties, hGet,
      TemplatePlan.ofProperties_eq_ok_iff.mpr ⟨transfers, hTransfers, hTemplate⟩⟩
  · rintro ⟨properties, hGet, hTemplate⟩
    obtain ⟨i, hi, hEntry⟩ := List.getElem_of_mem (KeyedTable.mem_entries_iff.mpr hGet)
    have hEach := forall₂_of_planTemplates h
    have hi' : i < templates.length := hEach.length_eq ▸ hi
    have hPlace := hEach.get hi hi'
    rw [List.get_eq_getElem, hEntry, hTemplate] at hPlace
    cases hPlace
    exact List.getElem_mem hi'

/-- All providers are reported on, whatever happens to the plan. That the templates could be refused
when no provider was never comes about. -/
theorem diagnostics_buildAll (pairs : List (Provider × SymbolTable)) :
    (buildAll pairs).diagnostics = (outcomes pairs).flatMap reports := by
  simp only [buildAll, outcomes]
  split
  · rfl
  · rename_i planned hPlanned
    obtain ⟨templates, hTemplates⟩ := exists_planTemplates (faithful_of_allOk hPlanned)
    simp only [hTemplates]

/-- If each provider can be planned, then there is a plan. The providers keep their order in it. -/
theorem plan_buildAll_of_allOk {pairs : List (Provider × SymbolTable)}
    {planned : List PlannedProvider} (h : allOk (outcomes pairs) = some planned) :
    ∃ templates, planTemplates (mergedTemplates planned) = .ok templates ∧
      (buildAll pairs).plan = some ⟨planned.map PlannedProvider.plan, templates⟩ := by
  obtain ⟨templates, hTemplates⟩ := exists_planTemplates (faithful_of_allOk h)
  refine ⟨templates, hTemplates, ?_⟩
  rw [outcomes] at h
  simp only [buildAll, h, hTemplates]

/-- One provider that is refused leaves the whole without a plan. -/
theorem plan_buildAll_eq_none {pairs : List (Provider × SymbolTable)}
    (h : allOk (outcomes pairs) = none) : (buildAll pairs).plan = none := by
  rw [outcomes] at h
  simp only [buildAll, h]

/-- Two groups succeed exactly if both do. -/
theorem allOk_append (xs ys : List (Except Diagnostic PlannedProvider)) :
    allOk (xs ++ ys) = (allOk xs).bind fun planned => (allOk ys).map (planned ++ ·) := by
  induction xs with
  | nil => simp [allOk]
  | cons x xs ih =>
      cases x with
      | error d => rfl
      | ok first => cases hRest : allOk xs <;> simp [allOk, ih, hRest, Function.comp_def]

/-- What is merged last is asked last. So the properties of the first group stand where both have a
key. -/
theorem get?_mergedTemplates_append (planned others : List PlannedProvider) (key : String) :
    (mergedTemplates (planned ++ others)).get? key =
      ((mergedTemplates planned).get? key).or ((mergedTemplates others).get? key) := by
  rw [get?_mergedTemplates, get?_mergedTemplates, get?_mergedTemplates, List.findSome?_append]

/-- Templates of two groups in one plan: by increasing keys, all of the first group, and those of
the second whose key the first group does not have. -/
structure MergesTo (first second templates : List TemplatePlan) : Prop where
  increasing : templates.Pairwise fun s t => s.key.toUTF8.toList < t.key.toUTF8.toList
  mem_iff (t : TemplatePlan) :
    t ∈ templates ↔ t ∈ first ∨ t ∈ second ∧ t.key ∉ first.map TemplatePlan.key

/-- Where two groups share a key, the template of the first one is taken, even if the second would
have another text. -/
theorem mergesTo_of_planTemplates {planned others : List PlannedProvider}
    {first second templates : List TemplatePlan}
    (hFirst : planTemplates (mergedTemplates planned) = .ok first)
    (hSecond : planTemplates (mergedTemplates others) = .ok second)
    (hTemplates : planTemplates (mergedTemplates (planned ++ others)) = .ok templates) :
    MergesTo first second templates where
  increasing := by
    have hKeys := (mergedTemplates (planned ++ others)).sorted
    rw [← List.pairwise_map, ← map_key_of_planTemplates hTemplates, List.pairwise_map] at hKeys
    exact hKeys.imp Text.toUTF8_lt_of_lt
  mem_iff t := by
    rw [mem_planTemplates_iff hTemplates, mem_planTemplates_iff hFirst,
      mem_planTemplates_iff hSecond, map_key_of_planTemplates hFirst, KeyedTable.mem_map_fst_iff,
      get?_mergedTemplates_append]
    -- Whether the first group has the key decides which group is asked.
    cases (mergedTemplates planned).get? t.key with
    | none => simp
    | some properties => simp

/-- The plan of a whole of two parts. It is there exactly if both parts have one. -/
structure Joins (left right whole : Option GenerationPlan) : Prop where
  isSome_iff : whole.isSome ↔ left.isSome ∧ right.isSome
  plan {first second plan : GenerationPlan} (hLeft : left = some first)
    (hRight : right = some second) (hWhole : whole = some plan) :
    plan.providers = first.providers ++ second.providers ∧
      MergesTo first.templates second.templates plan.templates

/-- The plan of a whole from the plans of two parts. The parts need not be plans of the same
manifest. -/
theorem joins_buildAll_append (pairs others : List (Provider × SymbolTable)) :
    Joins (buildAll pairs).plan (buildAll others).plan (buildAll (pairs ++ others)).plan := by
  have hWhole : allOk (outcomes (pairs ++ others)) = _ :=
    (congrArg allOk List.map_append).trans (allOk_append (outcomes pairs) (outcomes others))
  cases hLeft : allOk (outcomes pairs) with
  | none =>
      rw [hLeft, Option.bind_none] at hWhole
      rw [plan_buildAll_eq_none hLeft, plan_buildAll_eq_none hWhole]
      exact ⟨by simp, fun hLeft => by cases hLeft⟩
  | some planned =>
      obtain ⟨first, hFirst, hFirstPlan⟩ := plan_buildAll_of_allOk hLeft
      cases hRight : allOk (outcomes others) with
      | none =>
          rw [hLeft, hRight, Option.bind_some, Option.map_none] at hWhole
          rw [plan_buildAll_eq_none hRight, plan_buildAll_eq_none hWhole]
          exact ⟨by simp, fun _ hRight => by cases hRight⟩
      | some planned' =>
          rw [hLeft, hRight, Option.bind_some, Option.map_some] at hWhole
          obtain ⟨second, hSecond, hSecondPlan⟩ := plan_buildAll_of_allOk hRight
          obtain ⟨templates, hTemplates, hPlan⟩ := plan_buildAll_of_allOk hWhole
          rw [hFirstPlan, hSecondPlan, hPlan]
          refine ⟨by simp, fun hLeft hRight hWhole => ?_⟩
          cases hLeft
          cases hRight
          cases hWhole
          exact ⟨List.map_append, mergesTo_of_planTemplates hFirst hSecond hTemplates⟩

/-- Providers may be planned in two groups, each by its own tables. The groups are reported on one
after the other, there is a plan exactly if both groups have one, and then it has the plans of the
first group's providers before those of the second, and the templates of both with the first group's
template under a key that both have. -/
theorem build_append {providers others : List Provider} {tables tables' : List SymbolTable}
    (hTables : SymbolTable.resolveAll providers = some tables)
    (hTables' : SymbolTable.resolveAll others = some tables') :
    SymbolTable.resolveAll (providers ++ others) = some (tables ++ tables') ∧
      (build ⟨providers ++ others⟩ (tables ++ tables')).diagnostics =
        (build ⟨providers⟩ tables).diagnostics ++ (build ⟨others⟩ tables').diagnostics ∧
      Joins (build ⟨providers⟩ tables).plan (build ⟨others⟩ tables').plan
        (build ⟨providers ++ others⟩ (tables ++ tables')).plan := by
  have hEach := SymbolTable.resolveAll_eq_some_iff.mp hTables
  have hEach' := SymbolTable.resolveAll_eq_some_iff.mp hTables'
  simp only [build, List.zip_append hEach.length_eq]
  refine ⟨SymbolTable.resolveAll_eq_some_iff.mpr (List.rel_append hEach hEach'), ?_, ?_⟩
  · simp only [diagnostics_buildAll, outcomes, List.map_append, List.flatMap_append]
  · exact joins_buildAll_append _ _

/-- A provider that logs blocks of bytes and nothing else. -/
def blocksProvider (name : String) (count length : UInt32) : Provider :=
  .bare name [⟨1, 0, none, none, none, none, [], false, none,
    some ⟨Template.blocksOf count length⟩⟩]

/-- The two providers have one key with different factors, so their templates differ. -/
theorem build_blocksProvider :
    ∃ tables ∈ SymbolTable.resolveAll [blocksProvider "First" 65536 65536],
      ∃ tables' ∈ SymbolTable.resolveAll [blocksProvider "Second" 32768 131072],
        ∃ first ∈ (build ⟨[blocksProvider "First" 65536 65536]⟩ tables).plan,
          ∃ second ∈ (build ⟨[blocksProvider "Second" 32768 131072]⟩ tables').plan,
            first.templates ≠ second.templates ∧
              first.templates.map TemplatePlan.key = second.templates.map TemplatePlan.key := by
  decide

/-- Blocks of two providers with one key and different templates. The whole keeps the template of
the first provider. -/
theorem build_append_blocksProvider :
    ∃ tables tables' first second plan,
      SymbolTable.resolveAll [blocksProvider "First" 65536 65536] = some tables ∧
      SymbolTable.resolveAll [blocksProvider "Second" 32768 131072] = some tables' ∧
      (build ⟨[blocksProvider "First" 65536 65536]⟩ tables).plan = some first ∧
      (build ⟨[blocksProvider "Second" 32768 131072]⟩ tables').plan = some second ∧
      first.templates ≠ second.templates ∧
      (build ⟨[blocksProvider "First" 65536 65536, blocksProvider "Second" 32768 131072]⟩
        (tables ++ tables')).plan = some plan ∧
      plan.providers = first.providers ++ second.providers ∧
      ∀ t, t ∈ plan.templates ↔ t ∈ first.templates := by
  obtain ⟨tables, hTables, tables', hTables', first, hFirst, second, hSecond, hApart, hKeys⟩ :=
    build_blocksProvider
  obtain ⟨_, _, hJoins⟩ := build_append hTables hTables'
  obtain ⟨plan, hPlan⟩ := Option.isSome_iff_exists.mp (hJoins.isSome_iff.mpr
    ⟨Option.isSome_of_mem hFirst, Option.isSome_of_mem hSecond⟩)
  obtain ⟨hProviders, hMerged⟩ := hJoins.plan hFirst hSecond hPlan
  refine ⟨tables, tables', first, second, plan, hTables, hTables', hFirst, hSecond, hApart, hPlan,
    hProviders, fun t => ?_⟩
  rw [hMerged.mem_iff, hKeys, or_iff_left_iff_imp]
  exact fun ⟨hMem, hAbsent⟩ => absurd (List.mem_map_of_mem hMem) hAbsent

end EventManifest.GenerationPlan
