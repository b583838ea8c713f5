import EventManifest.Compilation
import EventManifest.Proofs.Plan.Reports

/-!
Runs of a compilation from its beginning. A run comes to its target with exactly the artifacts on
the way to it, or it stops at a stage that reports errors and leaves nothing from that stage on. No
stage is ever started without its input. Runs that continue an earlier one are not the subject here:
they can find artifacts of any age.
-/

namespace EventManifest

namespace SymbolTable

/-- There are tables exactly if no error is reported. So a failure at this stage is never silent. -/
theorem hasErrors_defects (m : Manifest) :
    Diagnostic.hasErrors (defects m) = (resolveAll m.providers).isNone := by
  obtain ⟨providers⟩ := m
  induction providers with
  | nil => rfl
  | cons p providers ih =>
      simp only [defects, List.filterMap_cons, resolveAll] at ih ⊢
      cases resolve p with
      | error defect => rfl
      | ok table =>
          dsimp only
          rw [ih]
          cases resolveAll providers <;> rfl

end SymbolTable

namespace Stage

theorem mem_required_self (stage : Stage) : stage ∈ stage.required := by
  rw [required_eq]
  exact List.mem_append_right _ (List.mem_singleton_self _)

/-- Stages in an order in which each comes when exactly the ones it needs are done. -/
inductive Chain : (done stages : List Stage) → Prop where
  | nil (done : List Stage) : Chain done []
  | cons {done rest : List Stage} {stage : Stage} (hRequired : stage.required = done ++ [stage])
      (hRest : Chain (done ++ [stage]) rest) : Chain done (stage :: rest)

/-- What a stage requires stands in an order in which it can be made, with the stage itself at the
end. -/
theorem chain_required (target : Stage) : Chain [] target.required := by
  have hResolve {rest : List Stage} (h : Chain [resolve] rest) : Chain [] (resolve :: rest) :=
    .cons rfl h
  have hPlan {rest : List Stage} (h : Chain [resolve, plan] rest) :
      Chain [resolve] (plan :: rest) :=
    .cons rfl h
  cases target with
  | resolve => exact hResolve (.nil _)
  | plan => exact hResolve (hPlan (.nil _))
  | render => exact hResolve (hPlan (.cons rfl (.nil _)))

section Required

variable {stage : Stage} {done : List Stage} (hRequired : stage.required = done ++ [stage])

include hRequired

theorem eq_of_required : done = (stage.input.map required).getD [] := by
  rw [required_eq] at hRequired
  exact (List.append_cancel_right hRequired).symm

/-- What a stage reads was made before it. -/
theorem mem_done_of_input {before : Stage} (hInput : stage.input = some before) :
    before ∈ done := by
  rw [eq_of_required hRequired, hInput]
  exact before.mem_required_self

/-- A stage that needs another one does not come before it. There are no circles. -/
theorem not_mem_done_of_mem_required {later : Stage} (hLater : stage ∈ later.required) :
    later ∉ done := by
  rw [eq_of_required hRequired]
  revert hLater
  cases stage <;> cases later <;> decide

end Required

end Stage

namespace Run

/-- The stages that came to their end, with their reports. -/
def finished (r : Run) : List (Stage × List Diagnostic) :=
  r.notices.filterMap fun
    | .finished stage reports => some (stage, reports)
    | .logged _ => none

end Run

namespace Compilation

/-- Whether the artifact of a stage is there. -/
def has (c : Compilation) : Stage → Bool
  | .resolve => c.tables.isSome
  | .plan => c.plan.isSome
  | .render => c.header.isSome

/-- The stages that a run starts, each with the state it finds. -/
def starts (options : HeaderOptions) (c : Compilation) : List Stage → List (Stage × Compilation)
  | [] => []
  | stage :: rest =>
      (stage, c) ::
        match (c.runStage options stage).failedAt with
        | some _ => []
        | none => starts options (c.runStage options stage).state rest

/-- A state in which the given stages are done, and no other. -/
structure Clean (done : List Stage) (c : Compilation) : Prop where
  has_iff : ∀ stage, c.has stage = true ↔ stage ∈ done
  failed : c.failed = false
  noErrors : Diagnostic.hasErrors c.diagnostics = false

/-- A state that a failed stage leaves: nothing is there from that stage on. -/
structure Broken (stage : Stage) (c : Compilation) : Prop where
  has_later : ∀ later : Stage, stage ∈ later.required → c.has later = false
  failed : c.failed = true
  errors : Diagnostic.hasErrors c.diagnostics = true

theorem finished_finish (c : Compilation) (stage : Stage) (log : List LogLine)
    (reports : List Diagnostic) :
    (c.finish stage log reports).finished = [(stage, reports)] := by
  simp [Run.finished, finish, List.filterMap_append, List.filterMap_map]

/-- What a stage does when its input is there. It comes to its end, it leaves its artifact unless it
reports errors, and it touches no other. Rendering has nothing to report. -/
theorem runStage_eq_finish (options : HeaderOptions) {c : Compilation} {stage : Stage}
    (hInput : ∀ before, stage.input = some before → c.has before = true) :
    ∃ (made : Compilation) (log : List LogLine) (reports : List Diagnostic),
      c.runStage options stage = made.finish stage log reports ∧
        made.diagnostics = c.diagnostics ∧ made.failed = c.failed ∧
        (∀ other, other ≠ stage → made.has other = c.has other) ∧
        made.has stage = !Diagnostic.hasErrors reports ∧ (stage = .render → reports = []) := by
  cases stage with
  | resolve =>
      refine ⟨_, _, _, rfl, rfl, rfl, ?_, ?_, fun hRender => Stage.noConfusion hRender⟩
      · intro other hOther
        cases other <;> simp_all [has]
      · simp [has, SymbolTable.hasErrors_defects]
  | plan =>
      obtain ⟨tables, hTables⟩ := Option.isSome_iff_exists.mp (hInput .resolve rfl)
      simp only [runStage, makePlan, hTables]
      refine ⟨_, _, _, rfl, rfl, rfl, ?_, ?_, fun hRender => Stage.noConfusion hRender⟩
      · intro other hOther
        cases other <;> simp_all [has]
      · simp [has, GenerationPlan.hasErrors_build]
  | render =>
      obtain ⟨plan, hPlan⟩ := Option.isSome_iff_exists.mp (hInput .plan rfl)
      simp only [runStage, render, hPlan]
      refine ⟨_, _, _, rfl, rfl, rfl, ?_, rfl, fun _ => rfl⟩
      intro other hOther
      cases other <;> simp_all [has]

/-- One stage on its way: from a state with exactly what it needs it either adds its own part or
leaves nothing of it. -/
theorem Clean.runStage {done : List Stage} {c : Compilation} (hClean : c.Clean done)
    {stage : Stage} (hRequired : stage.required = done ++ [stage]) (options : HeaderOptions) :
    ∃ reports, (c.runStage options stage).finished = [(stage, reports)] ∧
      (c.runStage options stage).state.diagnostics = c.diagnostics ++ reports ∧
      ((c.runStage options stage).failedAt = none ∧
          (c.runStage options stage).state.Clean (done ++ [stage]) ∨
        (c.runStage options stage).failedAt = some stage ∧ stage ≠ .render ∧
          (c.runStage options stage).state.Broken stage) := by
  obtain ⟨made, log, reports, hRun, hDiagnostics, hFailed, hOthers, hOwn, hRender⟩ :=
    runStage_eq_finish options fun before hInput =>
      (hClean.has_iff before).mpr (Stage.mem_done_of_input hRequired hInput)
  rw [hRun]
  have hHas (s : Stage) : (made.finish stage log reports).state.has s = made.has s := by
    cases s <;> rfl
  refine ⟨reports, finished_finish .., congrArg (· ++ reports) hDiagnostics, ?_⟩
  cases hErrors : Diagnostic.hasErrors reports with
  | false =>
      refine Or.inl ⟨by simp [finish, hErrors], ⟨fun s => ?_, ?_, ?_⟩⟩
      · rw [hHas]
        by_cases hSame : s = stage
        · simp [hSame, hOwn, hErrors]
        · simp [hOthers s hSame, hClean.has_iff, hSame]
      · simp [finish, hFailed, hClean.failed, hErrors]
      · simp [finish, hDiagnostics, hClean.noErrors, hErrors]
  | true =>
      refine Or.inr ⟨by simp [finish, hErrors], fun hSame => ?_, ⟨fun later hLater => ?_, ?_, ?_⟩⟩
      · rw [hRender hSame] at hErrors
        cases hErrors
      · rw [hHas]
        by_cases hSame : later = stage
        · simp [hSame, hOwn, hErrors]
        · rw [hOthers later hSame, Bool.eq_false_iff, Ne, hClean.has_iff]
          exact Stage.not_mem_done_of_mem_required hRequired hLater
      · simp [finish, hErrors]
      · simp [finish, hErrors]

/-- What a run over a chain of stages comes to. -/
structure Course (options : HeaderOptions) (c : Compilation) (done stages : List Stage)
    (r : Run) : Prop where
  /-- It completes the chain or breaks at a stage. -/
  ends : r.failedAt = none ∧ r.state.Clean (done ++ stages) ∨
    ∃ stage, r.failedAt = some stage ∧ stage ≠ .render ∧ r.state.Broken stage
  /-- The stages started are all, or those up to the one that failed. -/
  started : done ++ (c.starts options stages).map Prod.fst =
    match r.failedAt with
    | none => done ++ stages
    | some stage => stage.required
  /-- What is started is finished, in the same order. -/
  finished : r.finished.map Prod.fst = (c.starts options stages).map Prod.fst
  /-- The state keeps all reports and adds none. -/
  reports : r.state.diagnostics = c.diagnostics ++ r.finished.flatMap Prod.snd
  /-- No stage starts without its input. -/
  inputs : ∀ stage found, (stage, found) ∈ c.starts options stages →
    ∀ before, stage.input = some before → found.has before = true

namespace Course

variable {options : HeaderOptions} {c : Compilation} {done stages : List Stage} {r : Run}
  (h : c.Course options done stages r)

include h

/-- A run that comes to its end has made everything, and nothing else. -/
theorem clean (hAt : r.failedAt = none) : r.state.Clean (done ++ stages) := by
  rcases h.ends with ⟨_, hClean⟩ | ⟨stage, hFailed, _⟩
  · exact hClean
  · cases hAt.symm.trans hFailed

/-- A run that stops leaves nothing from the failed stage on. The last stage, which renders, cannot
fail. -/
theorem broken {stage : Stage} (hAt : r.failedAt = some stage) :
    stage ≠ .render ∧ r.state.Broken stage := by
  rcases h.ends with ⟨hNone, _⟩ | ⟨failed, hFailed, hBroken⟩
  · cases hAt.symm.trans hNone
  · cases hAt.symm.trans hFailed
    exact hBroken

/-- Whether a run failed can be told from the reports it leaves, and from its mark. The three never
disagree. -/
theorem isSome_failedAt :
    r.failedAt.isSome = Diagnostic.hasErrors r.state.diagnostics ∧
      r.failedAt.isSome = r.state.failed := by
  cases hAt : r.failedAt with
  | none => exact ⟨(h.clean hAt).noErrors.symm, (h.clean hAt).failed.symm⟩
  | some stage => exact ⟨(h.broken hAt).2.errors.symm, (h.broken hAt).2.failed.symm⟩

end Course

/-- By induction over the chain, with one step for each stage. Where a stage fails, those behind it
are not started. -/
theorem course_runStages (options : HeaderOptions) {done stages : List Stage}
    (hChain : Stage.Chain done stages) {c : Compilation} (hClean : c.Clean done) :
    c.Course options done stages (c.runStages options stages) := by
  induction hChain generalizing c with
  | nil done =>
      refine ⟨Or.inl ⟨rfl, ?_⟩, rfl, rfl, ?_, nofun⟩
      · rwa [List.append_nil]
      · exact (List.append_nil _).symm
  | @cons done rest stage hRequired _ ih =>
      have hInput (before : Stage) (h : stage.input = some before) : c.has before = true :=
        (hClean.has_iff before).mpr (Stage.mem_done_of_input hRequired h)
      obtain ⟨reports, hFinished, hReports, ⟨hAt, hNext⟩ | ⟨hAt, hRender, hBroken⟩⟩ :=
        hClean.runStage hRequired options
      · -- The stage did its part, and the rest of the chain goes on from there.
        have hRest := ih hNext
        have hRun : (c.runStages options (stage :: rest)).finished =
            (stage, reports) ::
              ((c.runStage options stage).state.runStages options rest).finished := by
          simp only [runStages, hAt]
          simp only [Run.finished, List.filterMap_append] at hFinished ⊢
          rw [hFinished]
          rfl
        have hStarts : c.starts options (stage :: rest) =
            (stage, c) :: (c.runStage options stage).state.starts options rest := by
          simp only [starts, hAt]
        constructor
        · simpa [runStages, hAt] using hRest.ends
        · simpa [runStages, hAt, hStarts] using hRest.started
        · simp [hRun, hStarts, hRest.finished]
        · rw [hRun]
          simp [runStages, hAt, hRest.reports, hReports]
        · simp only [hStarts, List.mem_cons]
          rintro s found (hHead | hTail)
          · cases hHead
            exact hInput
          · exact hRest.inputs s found hTail
      · -- The stage failed, and nothing else was started.
        have hRun : c.runStages options (stage :: rest) = c.runStage options stage := by
          simp only [runStages, hAt]
        have hStarts : c.starts options (stage :: rest) = [(stage, c)] := by
          simp only [starts, hAt]
        rw [hRun]
        refine ⟨Or.inr ⟨stage, hAt, hRender, hBroken⟩, ?_, ?_, ?_, ?_⟩
        · simp [hStarts, hAt, hRequired]
        · simp [hFinished, hStarts]
        · simp [hReports, hFinished]
        · simp only [hStarts, List.mem_singleton]
          rintro s found hHead
          cases hHead
          exact hInput

/-- A manifest of which nothing has been made. -/
theorem clean_nil (m : Manifest) : Clean [] { manifest := m } := by
  refine ⟨fun stage => ?_, rfl, rfl⟩
  cases stage <;> simp [has]

/-- A stage whose input is there never complains about a missing one. -/
theorem runStage_ne_withoutInput (options : HeaderOptions) {c : Compilation} {stage : Stage}
    (hInput : ∀ before, stage.input = some before → c.has before = true) :
    c.runStage options stage ≠ c.withoutInput stage := by
  obtain ⟨made, log, reports, hRun, _⟩ := runStage_eq_finish options hInput
  intro hSame
  have hFinished := congrArg Run.finished (hRun.symm.trans hSame)
  rw [finished_finish] at hFinished
  cases hFinished

/-- What holds of a run that makes everything up to a target from nothing. -/
structure AllOrNothing (options : HeaderOptions) (target : Stage) (c : Compilation)
    (r : Run) : Prop where
  succeeds_iff_no_error : r.failedAt = none ↔ ∀ d ∈ r.state.diagnostics, d.severity ≠ .error
  succeeds_iff_not_failed : r.failedAt = none ↔ r.state.failed = false
  /-- A success leaves exactly the artifacts on the way to the target. -/
  artifacts : r.failedAt = none → ∀ stage, r.state.has stage = true ↔ stage ∈ target.required
  /-- A failure comes from resolving or planning and leaves nothing from there on. -/
  failure : ∀ stage, r.failedAt = some stage →
    (stage = .resolve ∨ stage = .plan) ∧ r.state.failed = true ∧
      ∀ later : Stage, stage ∈ later.required → r.state.has later = false
  /-- The stages started lead to the target, or to the stage that failed. -/
  started : (c.starts options target.required).map Prod.fst = (r.failedAt.getD target).required
  /-- Each of them is announced once, in this order. -/
  finished : r.finished.map Prod.fst = (c.starts options target.required).map Prod.fst
  /-- The announced reports are the recorded ones. -/
  reports : r.finished.flatMap Prod.snd = r.state.diagnostics
  /-- No stage fails for lack of input. -/
  inputs : ∀ stage found, (stage, found) ∈ c.starts options target.required →
    found.runStage options stage ≠ found.withoutInput stage

/-- A run from a bare manifest makes all that leads to its target, or it reports an error and makes
nothing from the failed stage on. -/
theorem allOrNothing_run (options : HeaderOptions) (target : Stage) (m : Manifest) :
    AllOrNothing options target { manifest := m } (run options target { manifest := m }) := by
  have hCourse : Course options { manifest := m } [] target.required
      (run options target { manifest := m }) :=
    course_runStages options target.chain_required (clean_nil m)
  obtain ⟨hErrors, hMark⟩ := hCourse.isSome_failedAt
  constructor
  case succeeds_iff_no_error =>
    rw [← Diagnostic.hasErrors_eq_false_iff, ← hErrors, Option.isSome_eq_false_iff,
      Option.isNone_iff_eq_none]
  case succeeds_iff_not_failed =>
    rw [← hMark, Option.isSome_eq_false_iff, Option.isNone_iff_eq_none]
  case artifacts => exact fun hAt => (hCourse.clean hAt).has_iff
  case failure =>
    intro stage hAt
    obtain ⟨hRender, hBroken⟩ := hCourse.broken hAt
    refine ⟨?_, hBroken.failed, hBroken.has_later⟩
    cases stage with
    | resolve => exact Or.inl rfl
    | plan => exact Or.inr rfl
    | render => exact absurd rfl hRender
  case started =>
    have hStarted := hCourse.started
    rw [List.nil_append] at hStarted
    rw [hStarted]
    cases (run options target { manifest := m }).failedAt <;> rfl
  case finished => exact hCourse.finished
  case reports => exact hCourse.reports.symm
  case inputs =>
    exact fun stage found hMem => runStage_ne_withoutInput options (hCourse.inputs stage found hMem)

end Compilation

end EventManifest
