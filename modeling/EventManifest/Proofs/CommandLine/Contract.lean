import EventManifest.Proofs.CommandLine.Folder
import EventManifest.Proofs.Compilation
import EventManifest.Proofs.Plan.Build

/-!
What a command owes. It ends with 2 if the schema cannot be read or understood, with 1 if a stage
fails, and otherwise with the output that was asked for. A command never finds that its output is
missing although the stages have run. Run in a folder, it leaves the output under its path and all
else as it was. How arguments are parsed and what the messages say is not looked at here.
-/

namespace EventManifest

/-- The plan that a manifest leads to, if it leads to one. -/
def Manifest.HasPlan (m : Manifest) (plan : GenerationPlan) : Prop :=
  ∃ tables, SymbolTable.resolveAll m.providers = some tables ∧
    (GenerationPlan.build m tables).plan = some plan

/-- A manifest leads to one plan at most. -/
theorem Manifest.HasPlan.eq {m : Manifest} {plan other : GenerationPlan} (h : m.HasPlan plan)
    (h' : m.HasPlan other) : plan = other := by
  obtain ⟨tables, hTables, hPlan⟩ := h
  obtain ⟨tables', hTables', hPlan'⟩ := h'
  cases hTables.symm.trans hTables'
  exact Option.some.inj (hPlan.symm.trans hPlan')

namespace Compilation

/-- Every artifact that is there has been made from the manifest as it is. -/
structure Current (options : HeaderOptions) (c : Compilation) : Prop where
  tables : ∀ tables, c.tables = some tables →
    SymbolTable.resolveAll c.manifest.providers = some tables
  plan : ∀ plan, c.plan = some plan → c.manifest.HasPlan plan
  header : ∀ header, c.header = some header →
    ∃ plan, c.manifest.HasPlan plan ∧ Header.render options plan = header

/-- A stage makes its artifact from current ones and keeps the others. A stage that fails makes
none. -/
theorem Current.runStage {options : HeaderOptions} {c : Compilation} (h : c.Current options)
    (stage : Stage) :
    (c.runStage options stage).state.manifest = c.manifest ∧
      (c.runStage options stage).state.Current options := by
  cases stage with
  | resolve => exact ⟨rfl, fun _ hTables => hTables, h.plan, h.header⟩
  | plan =>
      simp only [Compilation.runStage, makePlan]
      cases hTables : c.tables with
      | none => exact ⟨rfl, h⟩
      | some tables =>
          exact ⟨rfl, fun _ hSame => h.tables _ (hTables.trans hSame),
            fun _ hPlan => ⟨tables, h.tables tables hTables, hPlan⟩, h.header⟩
  | render =>
      simp only [Compilation.runStage, render]
      cases hPlan : c.plan with
      | none => exact ⟨rfl, h⟩
      | some plan =>
          exact ⟨rfl, h.tables, fun _ hSame => h.plan _ (hPlan.trans hSame),
            fun _ hHeader => ⟨plan, h.plan plan hPlan, Option.some.inj hHeader⟩⟩

/-- By induction over the stages, whether the run comes to its end or not. -/
theorem Current.runStages {options : HeaderOptions} {c : Compilation} (h : c.Current options)
    (stages : List Stage) :
    (c.runStages options stages).state.manifest = c.manifest ∧
      (c.runStages options stages).state.Current options := by
  induction stages generalizing c with
  | nil => exact ⟨rfl, h⟩
  | cons stage rest ih =>
      obtain ⟨hManifest, hNext⟩ := h.runStage stage
      obtain ⟨hLater, hCurrent⟩ := ih hNext
      rw [Compilation.runStages]
      split
      · exact ⟨hManifest, hNext⟩
      · exact ⟨hLater.trans hManifest, hCurrent⟩

/-- A loaded compilation: the manifest of the text and where it comes from, and nothing made yet. It
does not depend on any option. -/
theorem ofText_eq_ok_iff {text : String} {c : Compilation} :
    ofText text = .ok c ↔
      ∃ m, Manifest.ofText text = .ok m ∧
        c = { manifest := m, provenance := some (.ofSource text m) } := by
  simp only [ofText, Outcome.bind_eq_ok_iff, Outcome.pure_eq_ok_iff, @eq_comm _ _ c]

theorem clean_of_ofText {text : String} {c : Compilation} (h : ofText text = .ok c) :
    c.Clean [] := by
  obtain ⟨m, _, rfl⟩ := ofText_eq_ok_iff.mp h
  refine ⟨fun stage => ?_, rfl, rfl⟩
  cases stage <;> simp [has]

theorem current_of_ofText {text : String} {c : Compilation} (h : ofText text = .ok c)
    (options : HeaderOptions) : c.Current options := by
  obtain ⟨m, _, rfl⟩ := ofText_eq_ok_iff.mp h
  refine ⟨fun _ hNone => ?_, fun _ hNone => ?_, fun _ hNone => ?_⟩ <;> cases hNone

/-- A run from a loaded text that does not fail has made its target, from the manifest of the
text. -/
theorem made_of_run {text : String} {c : Compilation} (h : ofText text = .ok c)
    {options : HeaderOptions} {target : Stage} (hAt : (c.run options target).failedAt = none) :
    (c.run options target).state.has target = true ∧
      (c.run options target).state.manifest = c.manifest ∧
      (c.run options target).state.Current options := by
  have hCourse := course_runStages options target.chain_required (clean_of_ofText h)
  refine ⟨((hCourse.clean hAt).has_iff target).mpr target.mem_required_self, ?_⟩
  exact (current_of_ofText h options).runStages target.required

end Compilation

namespace CommandLine

namespace Settings

/-- What a command has to write about a text that could be loaded. -/
inductive Owes (s : Settings) (text : String) (m : Manifest) : String → Prop where
  | header {plan : GenerationPlan} (hEmission : s.emission = .header) (hPlan : m.HasPlan plan) :
      s.Owes text m (Header.render s.options plan)
  | plan {plan : GenerationPlan} (hEmission : s.emission = .plan) (hPlan : m.HasPlan plan) :
      s.Owes text m (plan.toJson.pretty ++ "\n")
  | buildInfo (hEmission : s.emission = .buildInfo) :
      s.Owes text m (Provenance.ofSource text m).buildInfo

/-- The run of the stages that the settings ask for. -/
def course (s : Settings) (c : Compilation) : Run :=
  match s.target with
  | some stage => c.run s.options stage
  | none => ⟨c, [], none⟩

/-- The output is there once the stages have run, so it is never found to be missing. What it is
depends on the command. -/
theorem exists_emitted {s : Settings} {text : String} {c : Compilation}
    (h : Compilation.ofText text = .ok c) (hAt : (s.course c).failedAt = none) :
    ∃ output, s.emitted (s.course c).state = some output ∧ s.Owes text c.manifest output := by
  rw [course] at hAt ⊢
  cases hEmission : s.emission with
  | header =>
      have hTarget : s.target = some .render := by rw [target, hEmission]
      simp only [hTarget] at hAt ⊢
      obtain ⟨hMade, hManifest, hCurrent⟩ := Compilation.made_of_run h hAt
      obtain ⟨output, hHeader⟩ := Option.isSome_iff_exists.mp hMade
      obtain ⟨plan, hPlan, rfl⟩ := hCurrent.header output hHeader
      exact ⟨_, by rw [emitted, hEmission, hHeader], .header hEmission (hManifest ▸ hPlan)⟩
  | plan =>
      have hTarget : s.target = some .plan := by rw [target, hEmission]
      simp only [hTarget] at hAt ⊢
      obtain ⟨hMade, hManifest, hCurrent⟩ := Compilation.made_of_run h hAt
      obtain ⟨plan, hPlan⟩ := Option.isSome_iff_exists.mp hMade
      refine ⟨plan.toJson.pretty ++ "\n", by rw [emitted, hEmission, hPlan]; rfl, ?_⟩
      exact .plan hEmission (hManifest ▸ hCurrent.plan plan hPlan)
  | buildInfo =>
      have hTarget : s.target = none := by rw [target, hEmission]
      simp only [hTarget]
      obtain ⟨m, _, rfl⟩ := Compilation.ofText_eq_ok_iff.mp h
      exact ⟨_, by rw [emitted, hEmission]; rfl, .buildInfo hEmission⟩

/-- Generating ends with the failure of a stage or with the output, and with nothing else. Input
that could not be loaded is another matter. -/
theorem output_generate (s : Settings) {text : String} {c : Compilation}
    (h : Compilation.ofText text = .ok c) :
    ((s.course c).failedAt.isSome ∧ (s.generate c).output = .error .generation) ∨
      (s.course c).failedAt = none ∧
        ∃ output, s.Owes text c.manifest output ∧ (s.generate c).output = .ok output := by
  simp only [generate]
  split
  · rename_i stage hFailed
    have hAt : (s.course c).failedAt = some stage := hFailed
    exact Or.inl ⟨Option.isSome_of_eq_some hAt, rfl⟩
  · rename_i hPassed
    have hAt : (s.course c).failedAt = none := hPassed
    obtain ⟨output, hEmitted, hOwes⟩ := exists_emitted h hAt
    split
    · rename_i found hFound
      cases hEmitted.symm.trans hFound
      exact Or.inr ⟨hAt, output, hOwes, rfl⟩
    · rename_i hMissing
      cases hEmitted.symm.trans hMissing

end Settings

/-- How a command has to end, given what came of reading the schema and of writing the output. -/
structure Contract (s : Settings) (source : Except FileError String) (failure : Option FileError)
    (r : Report) : Prop where
  /-- Without a schema nothing is written. -/
  unread : ∀ e, source = .error e → r.exit.code = 2 ∧ r.written = none
  /-- Nor is it for a text that is no manifest. -/
  invalid : ∀ text fault, source = .ok text → Compilation.ofText text = .error fault →
    r.exit.code = 2 ∧ r.written = none
  /-- Where stages have to run, a failure of theirs and nothing else leads to 1. -/
  refused : ∀ text c target, source = .ok text → Compilation.ofText text = .ok c →
    s.target = some target →
      (r.exit.code = 1 ∧ r.written = none ↔ (c.run s.options target).failedAt.isSome)
  /-- Otherwise the output is what is owed, and only writing it can fail. Build information needs no
  stage. -/
  written : ∀ text c, source = .ok text → Compilation.ofText text = .ok c →
    (∀ target, s.target = some target → (c.run s.options target).failedAt = none) →
      ∃ output, s.Owes text c.manifest output ∧ r.written = some output ∧
        r.exit.code = if failure.isSome then 2 else 0
  /-- The output is never missing when it is looked for. -/
  present : ∀ text c, source = .ok text → Compilation.ofText text = .ok c →
    (s.course c).failedAt = none → s.emitted (s.course c).state ≠ none

section Conclude

variable {p : Prepared} (s : Settings) (failure : Option FileError)

/-- A command that has nothing to write ends with the reason, whatever happens to files. -/
theorem conclude_of_error {exit : Exit} (h : p.output = .error exit) :
    (p.conclude s failure).exit = exit ∧ (p.conclude s failure).written = none := by
  simp only [Prepared.conclude, h, and_self]

/-- A command that has something to write ends well, unless the file could not be written. -/
theorem conclude_of_ok {text : String} (h : p.output = .ok text) :
    (p.conclude s failure).exit = (if failure.isSome then .input else .success) ∧
      (p.conclude s failure).written = some text := by
  cases failure <;> simp [Prepared.conclude, h]

end Conclude

/-- Whatever came of reading the schema and of writing the output, the command ends as it has to. -/
theorem contract_run (s : Settings) (source : Except FileError String)
    (failure : Option FileError) : Contract s source failure (run s source failure) := by
  have hPrepare {text : String} {c : Compilation} (hText : Compilation.ofText text = .ok c) :
      (s.prepare (.ok text)).output = (s.generate c).output := by
    rw [Settings.prepare, hText]
  constructor
  case unread =>
    rintro e rfl
    exact ⟨rfl, rfl⟩
  case invalid =>
    rintro text fault rfl hText
    rw [run, Settings.prepare, hText]
    exact ⟨rfl, rfl⟩
  case refused =>
    rintro text c target rfl hText hTarget
    have hCourse : s.course c = c.run s.options target := by rw [Settings.course, hTarget]
    rw [run, ← hCourse]
    rcases s.output_generate hText with ⟨hFailed, hOutput⟩ | ⟨hAt, output, _, hOutput⟩
    · obtain ⟨hExit, hWritten⟩ := conclude_of_error s failure ((hPrepare hText).trans hOutput)
      exact iff_of_true ⟨by rw [hExit]; rfl, hWritten⟩ hFailed
    · obtain ⟨_, hWritten⟩ := conclude_of_ok s failure ((hPrepare hText).trans hOutput)
      simp [hWritten, hAt]
  case written =>
    rintro text c rfl hText hAll
    have hAt : (s.course c).failedAt = none := by
      rw [Settings.course]
      split
      · rename_i target hTarget
        exact hAll target hTarget
      · rfl
    rcases s.output_generate hText with ⟨hFailed, _⟩ | ⟨_, output, hOwes, hOutput⟩
    · simp [hAt] at hFailed
    · obtain ⟨hExit, hWritten⟩ := conclude_of_ok s failure ((hPrepare hText).trans hOutput)
      refine ⟨output, hOwes, hWritten, ?_⟩
      rw [run, hExit]
      cases failure <;> rfl
  case present =>
    rintro text c rfl hText hAt hNone
    obtain ⟨output, hEmitted, _⟩ := Settings.exists_emitted hText hAt
    cases hNone.symm.trans hEmitted

/-- What becomes of a text that is to be written from a folder, if there is one: why it could not be
written, what appears on the standard output, and the folder afterwards. A file can be read under
its path once it is written, and it cannot be written only where its path leads to no file. -/
inductive Delivers (f : Folder) (s : Settings) :
    Option String → Option FileError → String → Folder → Prop where
  | nothing : Delivers f s none none "" f
  | stdout {text : String} (hOutput : s.output = none) : Delivers f s (some text) none text f
  | file {text path : String} {g : Folder} (hOutput : s.output = some path)
      (hWrite : f.write path text.toUTF8.toList = .ok g)
      (hReceives : f.Receives path text.toUTF8.toList g) : Delivers f s (some text) none "" g
  | refused {text path : String} {e : FileError} (hOutput : s.output = some path)
      (hWrite : f.write path text.toUTF8.toList = .error e)
      (hNowhere : ∀ place, f.locate path = .ok place → f.isFolder place = true) :
      Delivers f s (some text) (some e) "" f

/-- Where nothing is to be written, nothing is, neither to a file nor to the standard output. -/
theorem Delivers.eq_of_none {f g : Folder} {s : Settings} {failure : Option FileError}
    {stdout : String} (h : Delivers f s none failure stdout g) : stdout = "" ∧ g = f := by
  cases h
  exact ⟨rfl, rfl⟩

/-- Without a file the text appears on the standard output, and the folder stays. This cannot
fail. -/
theorem Delivers.eq_of_stdout {f g : Folder} {s : Settings} {text : String}
    {failure : Option FileError} {stdout : String}
    (h : Delivers f s (some text) failure stdout g) (hOutput : s.output = none) :
    failure = none ∧ stdout = text ∧ g = f := by
  cases h with
  | stdout => exact ⟨rfl, rfl, rfl⟩
  | file hSome => cases hSome.symm.trans hOutput
  | refused hSome => cases hSome.symm.trans hOutput

/-- A text that is due for a file with a place of its own is written there, and nowhere else. It
does not appear on the standard output as well. -/
theorem Delivers.receives_of_locate {f g : Folder} {s : Settings} {text path : String}
    {failure : Option FileError} {stdout : String} {place : Place}
    (h : Delivers f s (some text) failure stdout g) (hOutput : s.output = some path)
    (hPlace : f.locate path = .ok place) (hFile : f.isFolder place = false) :
    failure = none ∧ stdout = "" ∧ f.Receives path text.toUTF8.toList g := by
  cases h with
  | stdout hNone => cases hNone.symm.trans hOutput
  | file hSame _ hReceives =>
      cases hSame.symm.trans hOutput
      exact ⟨rfl, rfl, hReceives⟩
  | refused hSame _ hNowhere =>
      cases hSame.symm.trans hOutput
      cases (hNowhere place hPlace).symm.trans hFile

/-- A command run in a folder ends as it does from what it reads there, and delivers what it then
has to write. -/
theorem delivers_runIn (f : Folder) {arguments : List String} {s : Settings}
    (h : parse arguments = .ok s) :
    ∃ failure r, r = run s (f.read s.schema >>= FileError.decode) failure ∧
      (runIn f arguments).exitCode = r.exit.code ∧
      (runIn f arguments).stderr = Text.ofLines r.messages ∧
      Delivers f s r.written failure (runIn f arguments).stdout (runIn f arguments).folder := by
  rw [runIn, h]
  dsimp only
  generalize f.read s.schema >>= FileError.decode = source
  cases hPrepared : (s.prepare source).output with
  | error exit =>
      refine ⟨none, _, rfl, ?_⟩
      rw [run, (conclude_of_error s none hPrepared).2]
      cases s.output with
      | none => exact ⟨rfl, rfl, .nothing⟩
      | some path => exact ⟨rfl, rfl, .nothing⟩
  | ok text =>
      have hWritten (failure : Option FileError) := (conclude_of_ok s failure hPrepared).2
      cases hOutput : s.output with
      | none =>
          refine ⟨none, _, rfl, rfl, rfl, ?_⟩
          rw [run, hWritten]
          exact .stdout hOutput
      | some path =>
          dsimp only
          cases hWrite : f.write path text.toUTF8.toList with
          | ok g =>
              refine ⟨none, _, rfl, rfl, rfl, ?_⟩
              rw [run, hWritten]
              exact .file hOutput hWrite (Folder.receives_of_write hWrite)
          | error e =>
              refine ⟨some e, _, rfl, rfl, rfl, ?_⟩
              rw [run, hWritten]
              exact .refused hOutput hWrite (Folder.forall_isFolder_of_write hWrite)

/-- Whatever comes of reading the schema and of writing the output, a command keeps to its contract;
and in a folder it writes what its report says, and nothing if that is nothing. A file that was
written holds the bytes of the text, and every other entry is as before. Nothing is claimed of files
outside the folder. -/
theorem commands_keep_contract :
    (∀ s source failure, Contract s source failure (run s source failure)) ∧
      ∀ (f : Folder) (arguments : List String) (s : Settings), parse arguments = .ok s →
        ∃ failure r, r = run s (f.read s.schema >>= FileError.decode) failure ∧
          (runIn f arguments).exitCode = r.exit.code ∧
          (runIn f arguments).stderr = Text.ofLines r.messages ∧
          Delivers f s r.written failure (runIn f arguments).stdout (runIn f arguments).folder :=
  ⟨contract_run, fun f _ _ h => delivers_runIn f h⟩

/-- A schema with an array of so many bytes. -/
def arraySchema (count : String) : String :=
  "\x7b\"providers\":[\x7b\"name\":\"P\",\"guid\":\"00000000-0000-0000-0000-000000000000\"," ++
    "\"events\":[\x7b\"value\":1,\"template\":[[[\"data\",\"N\",\"UInt8\"," ++ count ++
    "]]]\x7d]\x7d]\x7d"

def arrayManifest (count : UInt32) : Manifest :=
  ⟨[.bare "P" [⟨1, 0, none, none, none, none, [], false, none,
    some ⟨[.data ⟨"N", .uint8, some (.fixed count), none, none⟩]⟩⟩]]⟩

/-- The manifest with where it comes from, and nothing made yet. -/
def arrayLoaded (text : String) (count : UInt32) : Compilation :=
  { manifest := arrayManifest count, provenance := some (.ofSource text (arrayManifest count)) }

/-- Both schemas can be loaded. That the first has an array of no bytes is found later. -/
theorem ofText_arraySchema :
    Compilation.ofText (arraySchema "0") = .ok (arrayLoaded (arraySchema "0") 0) ∧
      Compilation.ofText (arraySchema "2") = .ok (arrayLoaded (arraySchema "2") 2) := by
  have hNone : Manifest.ofText (arraySchema "0") = .ok (arrayManifest 0) := by decide +kernel
  have hTwo : Manifest.ofText (arraySchema "2") = .ok (arrayManifest 2) := by decide +kernel
  exact ⟨Compilation.ofText_eq_ok_iff.mpr ⟨_, hNone, rfl⟩,
    Compilation.ofText_eq_ok_iff.mpr ⟨_, hTwo, rfl⟩⟩

/-- A folder with nothing but a schema. -/
def schemaFolder : Folder :=
  ⟨[(["S"], .file (arraySchema "2").toUTF8.toList)]⟩

/-- The schema is read from the folder and is well-formed UTF-8. -/
theorem read_schemaFolder :
    schemaFolder.read "S" = .ok (arraySchema "2").toUTF8.toList ∧
      (schemaFolder.read "S" >>= FileError.decode) = .ok (arraySchema "2") := by
  have hRead : schemaFolder.read "S" = .ok (arraySchema "2").toUTF8.toList :=
    Folder.read_eq_ok_iff.mpr ⟨.inside ["S"], by decide, by decide, rfl⟩
  refine ⟨hRead, ?_⟩
  rw [hRead]
  exact FileError.decode_toUTF8 (arraySchema "2")

/-- An array of two has a header and a plan. The one is written to a file beside the schema and the
other to the standard output. An array of none can be loaded and has build information, but no
header; and where there is no file, there is no output either. -/
theorem commands_keep_contract_arrays :
    (∃ plan, (arrayManifest 2).HasPlan plan ∧
      (runIn schemaFolder ["S", "-o", "H"]).exitCode = 0 ∧
      (runIn schemaFolder ["S", "-o", "H"]).stdout = "" ∧
      (runIn schemaFolder ["S", "-o", "H"]).folder.read "H" =
        .ok (Header.render {} plan).toUTF8.toList ∧
      (runIn schemaFolder ["S", "-o", "H"]).folder.read "S" =
        .ok (arraySchema "2").toUTF8.toList ∧
      (runIn schemaFolder ["S", "--emit", "plan"]).exitCode = 0 ∧
      (runIn schemaFolder ["S", "--emit", "plan"]).stdout = plan.toJson.pretty ++ "\n" ∧
      (runIn schemaFolder ["S", "--emit", "plan"]).folder = schemaFolder) ∧
    ((Compilation.run {} .render (arrayLoaded (arraySchema "0") 0)).failedAt = some .plan ∧
      (run { schema := "S" } (.ok (arraySchema "0")) none).exit.code = 1 ∧
      (run { schema := "S" } (.ok (arraySchema "0")) none).written = none ∧
      (run { schema := "S", emission := .buildInfo } (.ok (arraySchema "0")) none).exit.code = 0 ∧
      (run { schema := "S", emission := .buildInfo } (.ok (arraySchema "0")) none).written =
        some (Provenance.ofSource (arraySchema "0") (arrayManifest 0)).buildInfo) ∧
    (runIn ⟨[]⟩ ["S"]).exitCode = 2 ∧ (runIn ⟨[]⟩ ["S"]).stdout = "" ∧
      (runIn ⟨[]⟩ ["S"]).folder = ⟨[]⟩ := by
  obtain ⟨hContract, hFolder⟩ := commands_keep_contract
  obtain ⟨hNone, hTwo⟩ := ofText_arraySchema
  refine ⟨?_, ?_, ?_⟩
  · obtain ⟨hSchema, hSource⟩ := read_schemaFolder
    have hRendered : (Compilation.run {} .render (arrayLoaded (arraySchema "2") 2)).failedAt =
        none := by
      decide +kernel
    have hPlanned : (Compilation.run {} .plan (arrayLoaded (arraySchema "2") 2)).failedAt =
        none := by
      decide +kernel
    obtain ⟨failure, r, rfl, hCode, _, hDelivers⟩ := hFolder schemaFolder ["S", "-o", "H"]
      { schema := "S", output := some "H" } (by decide)
    obtain ⟨output, hOwes, hOutput, hExit⟩ :=
      (hContract { schema := "S", output := some "H" } _ failure).written _ _ hSource hTwo
        (fun _ hTarget => by cases hTarget; exact hRendered)
    obtain ⟨failure', r', rfl, hCode', _, hDelivers'⟩ :=
      hFolder schemaFolder ["S", "--emit", "plan"] { schema := "S", emission := .plan } (by decide)
    obtain ⟨output', hOwes', hOutput', hExit'⟩ :=
      (hContract { schema := "S", emission := .plan } _ failure').written _ _ hSource hTwo
        (fun _ hTarget => by cases hTarget; exact hPlanned)
    cases hOwes with
    | plan hEmission => cases hEmission
    | buildInfo hEmission => cases hEmission
    | @header plan _ hPlan =>
    cases hOwes' with
    | header hEmission => cases hEmission
    | buildInfo hEmission => cases hEmission
    | plan _ hPlan' =>
    cases hPlan.eq hPlan'
    have hPlace : schemaFolder.locate "H" = .ok (.inside ["H"]) := by decide
    rw [hOutput] at hDelivers
    obtain ⟨rfl, hStdout, hReceives⟩ := hDelivers.receives_of_locate rfl hPlace (by decide)
    rw [hOutput'] at hDelivers'
    obtain ⟨rfl, hPrinted, hSame⟩ := hDelivers'.eq_of_stdout rfl
    refine ⟨plan, hPlan, hCode.trans hExit, hStdout, ?_, ?_, hCode'.trans hExit', hPrinted, hSame⟩
    · exact hReceives.read_eq hPlace
    · exact hReceives.read_eq_of_locate_ne hPlace (by decide) hSchema
  · have hFailed : (Compilation.run {} .render (arrayLoaded (arraySchema "0") 0)).failedAt =
        some .plan := by
      decide +kernel
    have hHeader := (hContract { schema := "S" } (.ok (arraySchema "0")) none).refused
      (arraySchema "0") _ .render rfl hNone rfl
    obtain ⟨hCode, hWritten⟩ := hHeader.mpr (by rw [hFailed]; rfl)
    obtain ⟨output, hOwes, hOutput, hExit⟩ :=
      (hContract { schema := "S", emission := .buildInfo } (.ok (arraySchema "0")) none).written
        (arraySchema "0") _ rfl hNone (fun _ hTarget => by cases hTarget)
    refine ⟨hFailed, hCode, hWritten, hExit, ?_⟩
    cases hOwes with
    | header hEmission => cases hEmission
    | plan hEmission => cases hEmission
    | buildInfo => exact hOutput
  · have hParsed : parse ["S"] = .ok { schema := "S" } := by decide
    have hMissing : (Folder.read ⟨[]⟩ "S" >>= FileError.decode) = .error .notFound := by decide
    obtain ⟨failure, r, rfl, hCode, _, hDelivers⟩ := hFolder ⟨[]⟩ ["S"] _ hParsed
    obtain ⟨hExit, hWritten⟩ := (hContract { schema := "S" } _ failure).unread _ hMissing
    rw [hWritten] at hDelivers
    exact ⟨hCode.trans hExit, hDelivers.eq_of_none⟩

end CommandLine

end EventManifest
