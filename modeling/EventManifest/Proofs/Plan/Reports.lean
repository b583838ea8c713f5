import EventManifest.Plan.Build
import EventManifest.Proofs.Outcome

/-!
The reports of planning. Whatever stops a plan is reported as an error, and nothing else is, so
there is a plan exactly if no error is reported. Which defects there are is not looked at here.
-/

namespace EventManifest

namespace Diagnostic

@[simp] theorem isError_ofDefect (location : Location) (defect : Defect) :
    (ofDefect location defect).isError = true :=
  rfl

/-- Pairs that are left out are no errors, whatever the reason is. -/
@[simp] theorem isError_diagnostic (provider : String) (issue : Activity.Issue) :
    (issue.diagnostic provider).isError = false := by
  cases issue <;> rfl

theorem isError_eq_false_iff {d : Diagnostic} : d.isError = false ↔ d.severity ≠ .error := by
  simp [isError]

@[simp] theorem hasErrors_append (reports others : List Diagnostic) :
    hasErrors (reports ++ others) = (hasErrors reports || hasErrors others) :=
  List.any_append

/-- No errors means that no report has the severity of one. Warnings may be there in any number. -/
theorem hasErrors_eq_false_iff {reports : List Diagnostic} :
    hasErrors reports = false ↔ ∀ d ∈ reports, d.severity ≠ .error := by
  simp only [hasErrors, List.any_eq_false, Bool.not_eq_true, isError_eq_false_iff]

end Diagnostic

namespace ProviderPlan

/-- An event that cannot be planned is an error of its provider. -/
theorem isError_of_planEvent {p : Provider} {keys : List (Option String)} {bits : List EnableBit}
    {e : ResolvedEvent} {index : Nat} {d : Diagnostic}
    (h : planEvent p keys bits e index = .error d) : d.isError = true := by
  simp only [planEvent] at h
  split at h
  · split at h
    · cases h
    · cases h
      rfl
  · cases h

/-- A provider that cannot be planned is reported with an error. There is one report for it, the
first that was met. -/
theorem isError_of_build {p : Provider} {table : SymbolTable} {d : Diagnostic}
    (h : build p table = .error d) : d.isError = true := by
  rcases Outcome.bind_eq_error_iff.mp h with hTraits | ⟨traits, _, h⟩
  · obtain ⟨defect, _, rfl⟩ := Outcome.mapError_eq_error_iff.mp hTraits
    rfl
  rcases Outcome.bind_eq_error_iff.mp h with hGrouped | ⟨grouped, _, h⟩
  · obtain ⟨⟨index, defect⟩, _, rfl⟩ := Outcome.mapError_eq_error_iff.mp hGrouped
    rfl
  rcases Outcome.bind_eq_error_iff.mp h with hEvents | ⟨events, _, h⟩
  · obtain ⟨_, _, _, _, _, hEvent⟩ := Outcome.mapM_eq_error_iff.mp hEvents
    exact isError_of_planEvent hEvent
  · cases h

/-- The warnings of a provider that can be planned are no errors. They are about activities only. -/
theorem hasErrors_warnings_of_build {p : Provider} {table : SymbolTable}
    {planned : PlannedProvider} (h : build p table = .ok planned) :
    Diagnostic.hasErrors planned.warnings = false := by
  simp only [build, Outcome.bind_eq_ok_iff, Outcome.pure_eq_ok_iff] at h
  obtain ⟨traits, _, grouped, _, events, _, rfl⟩ := h
  simp [assemble, Diagnostic.hasErrors]

end ProviderPlan

namespace GenerationPlan

/-- A provider reports an error exactly if it has no plan. So no plan is given up silently. -/
theorem hasErrors_reports (p : Provider) (table : SymbolTable) :
    Diagnostic.hasErrors (reports (ProviderPlan.build p table)) =
      !(ProviderPlan.build p table).isOk := by
  cases hBuild : ProviderPlan.build p table with
  | ok planned => exact ProviderPlan.hasErrors_warnings_of_build hBuild
  | error d =>
      rw [reports, Diagnostic.hasErrors, List.any_cons, ProviderPlan.isError_of_build hBuild]
      rfl

/-- Together, the reports have an error exactly if one of the outcomes is none. -/
theorem hasErrors_flatMap_reports (outcomes : List (Except Diagnostic PlannedProvider))
    (h : ∀ outcome ∈ outcomes, Diagnostic.hasErrors (reports outcome) = !outcome.isOk) :
    Diagnostic.hasErrors (outcomes.flatMap reports) = (allOk outcomes).isNone := by
  induction outcomes with
  | nil => rfl
  | cons first rest ih =>
      rw [List.forall_mem_cons] at h
      rw [List.flatMap_cons, Diagnostic.hasErrors_append, h.1, ih h.2]
      cases first with
      | ok planned => simp [allOk, Except.isOk, Except.toBool]
      | error d => rfl

/-- There is a plan exactly if no error is reported. This holds for any tables, also for those of
other manifests. -/
theorem hasErrors_build (m : Manifest) (tables : List SymbolTable) :
    Diagnostic.hasErrors (build m tables).diagnostics = (build m tables).plan.isNone := by
  simp only [build, buildAll]
  generalize hOutcomes : (m.providers.zip tables).map _ = outcomes
  have hReports : Diagnostic.hasErrors (outcomes.flatMap reports) = (allOk outcomes).isNone := by
    refine hasErrors_flatMap_reports outcomes ?_
    rw [← hOutcomes]
    exact List.forall_mem_map.mpr fun _ _ => hasErrors_reports _ _
  split
  · rename_i hNone
    rw [hReports, hNone]
    rfl
  · rename_i planned hSome
    rw [hSome] at hReports
    split
    · rw [hReports]
      rfl
    · simp [Diagnostic.hasErrors]

end GenerationPlan

end EventManifest
