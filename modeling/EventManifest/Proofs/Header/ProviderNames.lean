import EventManifest.Header.Render
import EventManifest.Proofs.Text.Hex
import EventManifest.Proofs.Text.Lines
import Mathlib.Data.List.Infix

/-!
Where the name of a provider shows in a header: in the comment that introduces the provider, and
nowhere else. The name is written there as it is, so that a name with a line feed ends the comment
and what follows stands as a line of code.
-/

namespace EventManifest

/-- A provider's plan with its name taken away. -/
def ProviderPlan.anonymous (p : ProviderPlan) : ProviderPlan :=
  { p with name := "" }

/-- A plan with the names of its providers taken away. -/
def GenerationPlan.anonymous (plan : GenerationPlan) : GenerationPlan :=
  { plan with providers := plan.providers.map ProviderPlan.anonymous }

theorem Guid.newline_not_mem_toText (g : Guid) : '\n' ∉ g.toText.toList := by
  have hDigits : ∀ width n, '\n' ∉ Text.fixedHex width n := fun width n hMem => by
    cases Text.hexValue?_of_mem_fixedHex hMem
  simp [toText, toChars, hDigits]

namespace Header

/-- What the line that introduces a provider begins with. -/
def commentStart : List Char :=
  "// Provider \"".toList

def isProviderComment (line : List Char) : Bool :=
  commentStart.isPrefixOf line

/-- The lines of a text that do not introduce a provider. -/
def codeLines (text : String) : List (List Char) :=
  (Text.lines text).filter fun line => !isProviderComment line

/-- Every line of the name between its quotes begins as the comment does, so that none is taken for
code. -/
def KeepsComment (name : String) : Prop :=
  ∀ line ∈ Text.lines ("// Provider \"" ++ name ++ "\""), isProviderComment line

instance (name : String) : Decidable (KeepsComment name) :=
  inferInstanceAs (Decidable (∀ line ∈ Text.lines _, isProviderComment line = true))

/-- A name of one line stays in its comment. What else it contains does not matter. -/
theorem keepsComment_of_newline_not_mem {name : String} (hName : '\n' ∉ name.toList) :
    KeepsComment name := by
  have hText : ("// Provider \"" ++ name ++ "\"").toList =
      commentStart ++ (name.toList ++ ['"']) := by
    rw [String.toList_append, String.toList_append, List.append_assoc]
    rfl
  have hNone : '\n' ∉ commentStart ++ (name.toList ++ ['"']) := by
    simp only [List.mem_append, hName]
    decide
  intro line hLine
  rw [Text.lines_eq_singleton (hText ▸ hNone), List.mem_singleton, hText] at hLine
  rw [hLine, isProviderComment, List.isPrefixOf_iff_prefix]
  exact List.prefix_append _ _

theorem isPrefix_commentStart {line : List Char} (hPrefix : line ++ ['"'] <+: commentStart) :
    line ++ ['"'] = commentStart := by
  have hInits : ∀ init ∈ commentStart.inits, init.getLast? = some '"' → init = commentStart := by
    decide
  exact hInits _ ((List.mem_inits _ _).mpr hPrefix) (by simp)

/-- Whether a line begins as a comment is settled by its part up to a quote. So it does not depend
on the GUID behind the name. -/
theorem isProviderComment_append (line added : List Char) :
    isProviderComment (line ++ '"' :: added) = isProviderComment (line ++ ['"']) := by
  have hSplit : line ++ '"' :: added = (line ++ ['"']) ++ added := by simp
  rw [Bool.eq_iff_iff, isProviderComment, isProviderComment, List.isPrefixOf_iff_prefix,
    List.isPrefixOf_iff_prefix, hSplit]
  constructor
  · intro hComment
    rcases List.prefix_or_prefix_of_prefix hComment (List.prefix_append _ added) with hIn | hOut
    · exact hIn
    · exact (isPrefix_commentStart hOut).symm ▸ List.prefix_rfl
  · exact fun hComment => hComment.trans (List.prefix_append _ added)

theorem toList_providerComment (p : ProviderPlan) :
    (providerComment p).toList =
      ("// Provider \"" ++ p.name).toList ++
        '"' :: ' ' :: '\x7b' :: (p.guid.toText.toList ++ ['\x7d']) := by
  change ("// Provider \"" ++ p.name ++ "\" \x7b" ++ p.guid.toText ++ "\x7d").toList = _
  simp

/-- The comment of a provider leaves no line of code behind exactly if the name keeps to it. A name
of several lines may do so, if each of them looks like such a comment. -/
theorem codeLines_providerComment_eq_nil_iff {p : ProviderPlan} :
    codeLines (providerComment p) = [] ↔ KeepsComment p.name := by
  obtain ⟨init, last, hLines⟩ := Text.exists_splitOn_append ("// Provider \"" ++ p.name).toList
  have hQuoted : Text.lines ("// Provider \"" ++ p.name ++ "\"") = init ++ [last ++ ['"']] := by
    rw [Text.lines, String.toList_append]
    exact hLines ['"'] (by decide)
  have hClosing : '\n' ∉ '"' :: ' ' :: '\x7b' :: (p.guid.toText.toList ++ ['\x7d']) := by
    simp [p.guid.newline_not_mem_toText]
  have hComment : Text.lines (providerComment p) =
      init ++ [last ++ '"' :: ' ' :: '\x7b' :: (p.guid.toText.toList ++ ['\x7d'])] := by
    rw [← hLines _ hClosing, Text.lines, toList_providerComment]
  simp only [codeLines, KeepsComment, hQuoted, hComment, List.filter_eq_nil_iff,
    Bool.not_eq_true', Bool.not_eq_false, List.mem_append, List.mem_singleton, or_imp, forall_and,
    forall_eq, isProviderComment_append]

/-- Code is read from each line of a header by itself. A line that was written may be several when
it is read. -/
theorem codeLines_ofLines (written : List String) :
    codeLines (Text.ofLines written) = written.flatMap codeLines ++ [[]] := by
  rw [codeLines, Text.lines_ofLines, List.filter_append, List.filter_flatMap]
  rfl

/-- A list keeps its pieces only if nothing is put between them. Lengths tell this, without regard
to what the pieces are. -/
theorem flatMap_append_eq_flatMap_iff {α β : Type} {extra body : α → List β} {items : List α} :
    items.flatMap (fun x => extra x ++ body x) = items.flatMap body ↔
      ∀ x ∈ items, extra x = [] := by
  constructor
  · intro hEq
    have hLength := congrArg List.length hEq
    clear hEq
    have hGrows : ∀ xs : List α,
        (xs.flatMap body).length ≤ (xs.flatMap fun x => extra x ++ body x).length := by
      intro xs
      induction xs with
      | nil => exact Nat.le_refl 0
      | cons x xs ih => simp only [List.flatMap_cons, List.length_append]; omega
    induction items with
    | nil => simp
    | cons x xs ih =>
      have hRest := hGrows xs
      simp only [List.flatMap_cons, List.length_append] at hLength
      rw [List.forall_mem_cons]
      exact ⟨List.eq_nil_of_length_eq_zero (by omega), ih (by omega)⟩
  · intro hNone
    refine List.flatMap_congr fun x hx => ?_
    rw [hNone x hx, List.nil_append]

/-- The lines of one provider. -/
def providerLines (o : HeaderOptions) (p : ProviderPlan) : List String :=
  match o.dialect with
  | .functions => Functions.providerLines o p
  | .macros => Macros.providerLines o p

/-- The name of a provider shows only in the first of its lines. All other lines use its symbol. -/
theorem providerLines_eq (o : HeaderOptions) (p : ProviderPlan) :
    providerLines o p = providerComment p :: (providerLines o p.anonymous).tail := by
  rw [providerLines, providerLines]
  cases o.dialect <;> rfl

/-- What stands in a header before the lines of its providers. -/
def linesBefore (o : HeaderOptions) (plan : GenerationPlan) : List String :=
  match o.dialect with
  | .functions =>
      Functions.preamble ++ Functions.sharedLines o ++ Functions.templatesLines o plan.templates ++
        if plan.providers.isEmpty then []
        else o.enclosing.elim [] (Functions.openNamespace o.standard)
  | .macros =>
      Macros.preamble ++ Macros.traceContext ++ Macros.sharedCode ++
        plan.templates.flatMap Macros.templateLines

/-- What stands in a header after the lines of its providers. -/
def linesAfter (o : HeaderOptions) (plan : GenerationPlan) : List String :=
  match o.dialect with
  | .functions =>
      if plan.providers.isEmpty then []
      else o.enclosing.elim [] (Functions.closeNamespace o.standard)
  | .macros => Macros.activityLines plan.providers

theorem linesBefore_anonymous (o : HeaderOptions) (plan : GenerationPlan) :
    linesBefore o plan.anonymous = linesBefore o plan := by
  simp [linesBefore, GenerationPlan.anonymous]

theorem linesAfter_anonymous (o : HeaderOptions) (plan : GenerationPlan) :
    linesAfter o plan.anonymous = linesAfter o plan := by
  simp only [linesAfter, GenerationPlan.anonymous, Macros.activityLines, List.isEmpty_map,
    List.all_map, List.flatMap_map]
  rfl

/-- A header is made of the lines before its providers, those of the providers, and those after. -/
theorem linesOf_eq (o : HeaderOptions) (plan : GenerationPlan) :
    linesOf o plan =
      linesBefore o plan ++ plan.providers.flatMap (providerLines o) ++ linesAfter o plan := by
  cases hDialect : o.dialect with
  | functions =>
    have hProviders : providerLines o = Functions.providerLines o := by
      funext p
      simp only [providerLines, hDialect]
    cases hPlanned : plan.providers <;> cases hEnclosing : o.enclosing <;>
      simp [linesOf, linesBefore, linesAfter, hProviders, hDialect, Functions.lines, hPlanned,
        hEnclosing]
  | macros =>
    have hProviders : providerLines o = Macros.providerLines o := by
      funext p
      simp only [providerLines, hDialect]
    simp [linesOf, linesBefore, linesAfter, hProviders, hDialect, Macros.lines]

theorem isInfix_flatMap_of_mem {α β : Type} {f : α → List β} {items : List α} {item : α}
    (h : item ∈ items) : f item <:+: items.flatMap f := by
  rw [List.flatMap_def]
  exact List.infix_of_mem_flatten (List.mem_map_of_mem h)

/-- The lines of every provider of a plan are in its header, in one piece. -/
theorem providerLines_isInfix {o : HeaderOptions} {plan : GenerationPlan} {q : ProviderPlan}
    (hq : q ∈ plan.providers) : providerLines o q <:+: linesOf o plan := by
  rw [linesOf_eq]
  exact (isInfix_flatMap_of_mem hq).trans (List.infix_append _ _ _)

/-- The code of a provider's lines after the first. -/
def declarationCode (o : HeaderOptions) (p : ProviderPlan) : List (List Char) :=
  (providerLines o p).tail.flatMap codeLines

/-- The code of a header: what it is without names, with the lines that names have left behind put
before the code of each provider. -/
theorem codeLines_render (o : HeaderOptions) (plan : GenerationPlan) :
    codeLines (render o plan) =
      (linesBefore o plan.anonymous).flatMap codeLines ++
        plan.providers.flatMap (fun p => codeLines (providerComment p) ++
          declarationCode o p.anonymous) ++
        ((linesAfter o plan.anonymous).flatMap codeLines ++ [[]]) := by
  rw [render, codeLines_ofLines, linesOf_eq, linesBefore_anonymous, linesAfter_anonymous]
  have hProvider (p : ProviderPlan) : (providerLines o p).flatMap codeLines =
      codeLines (providerComment p) ++ declarationCode o p.anonymous := by
    rw [providerLines_eq o p, List.flatMap_cons, declarationCode]
  simp only [List.flatMap_append, List.flatMap_assoc, hProvider, List.append_assoc]

/-- Take two plans that are equal except for the names of their providers, those of the first
keeping to their comments. Their headers have the same code exactly if the names of the second keep
to their comments too, which names without a line feed do. -/
theorem codeLines_render_eq_iff {plan plan' : GenerationPlan}
    (hSame : plan'.anonymous = plan.anonymous)
    (hKept : ∀ p ∈ plan.providers, KeepsComment p.name) (o : HeaderOptions) :
    (codeLines (render o plan') = codeLines (render o plan) ↔
      ∀ p ∈ plan'.providers, KeepsComment p.name) ∧
    ((∀ p ∈ plan'.providers, '\n' ∉ p.name.toList) →
      codeLines (render o plan') = codeLines (render o plan)) := by
  have hPlan : plan.providers.flatMap
        (fun p => codeLines (providerComment p) ++ declarationCode o p.anonymous) =
      plan'.providers.flatMap fun p => declarationCode o p.anonymous := by
    have hNone : ∀ p ∈ plan.providers, codeLines (providerComment p) = [] :=
      fun p hp => codeLines_providerComment_eq_nil_iff.mpr (hKept p hp)
    have hProviders : plan'.anonymous.providers.flatMap (declarationCode o) =
        plan.anonymous.providers.flatMap (declarationCode o) := by rw [hSame]
    simp only [GenerationPlan.anonymous, List.flatMap_map] at hProviders
    rw [flatMap_append_eq_flatMap_iff.mpr hNone, hProviders]
  have hIff : codeLines (render o plan') = codeLines (render o plan) ↔
      ∀ p ∈ plan'.providers, KeepsComment p.name := by
    rw [codeLines_render, codeLines_render, hSame, List.append_left_inj, List.append_right_inj,
      hPlan, flatMap_append_eq_flatMap_iff]
    simp only [codeLines_providerComment_eq_nil_iff]
  exact ⟨hIff, fun hNames => hIff.mpr fun p hp => keepsComment_of_newline_not_mem (hNames p hp)⟩

/-- A plan of one provider with nothing but its name. -/
def introducing (name : String) : GenerationPlan :=
  ⟨[⟨name, "P", ⟨0, 0, 0, 0⟩, none, none, false, [], [], [], [], [], [], [], [], [], []⟩], []⟩

/-- A name of two lines, the second of which stands as a directive in both dialects. The plans
differ in nothing but this name. -/
theorem codeLines_introducing_ne :
    (introducing "A\n#error B").anonymous = (introducing "A").anonymous ∧
      KeepsComment "A" ∧ ¬ KeepsComment "A\n#error B" ∧
      ∀ o, codeLines (render o (introducing "A\n#error B")) ≠
        codeLines (render o (introducing "A")) := by
  have hSame : (introducing "A\n#error B").anonymous = (introducing "A").anonymous := rfl
  have hKept : ∀ p ∈ (introducing "A").providers, KeepsComment p.name := by decide
  have hLeft : ¬ ∀ p ∈ (introducing "A\n#error B").providers, KeepsComment p.name := by decide
  exact ⟨hSame, by decide, by decide,
    fun o hCode => hLeft ((codeLines_render_eq_iff hSame hKept o).1.mp hCode)⟩

end Header

end EventManifest
