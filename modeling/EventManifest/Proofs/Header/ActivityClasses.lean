import EventManifest.Proofs.Header.Dialects
import EventManifest.Proofs.Header.ProviderNames
import EventManifest.Proofs.Header.Reading
import EventManifest.Proofs.Plan.Activities
import EventManifest.Proofs.Plan.Identifiers

/-!
The classes of activities in a header. Every activity of a plan has one class, under a name of its
own within the provider. A class is seen by the line that declares it, its destructor by the lines
that stand in it, and the function that a destructor calls by the lines that declare it. Nothing is
said about the constructor beyond that it declares no other class.
-/

namespace EventManifest.Header

section Readers

/-- What the line that declares a class begins with. -/
def classStart : List Char :=
  ['c', 'l', 'a', 's', 's', ' ']

/-- What the line that declares a destructor begins with. -/
def destructorStart : List Char :=
  [' ', ' ', ' ', ' ', '~']

/-- The names of the classes that lines declare. -/
def classNames (lines : List String) : List String :=
  lines.filterMap fun line => (line.toList.dropPrefix? classStart).map String.ofList

/-- A destructor that makes one call, if an event is enabled. -/
structure Destructor where
  className : String
  /-- The event that is tested. -/
  event : String
  call : Call
deriving DecidableEq, Repr

/-- The name of a destructor's class, by the line that declares it. -/
def destructorName? (line : String) : Option String :=
  between? "    ~" "()" line

/-- A destructor by the lines that declare it, test an event and make the call. -/
def Destructor.ofParts? (head guard call : String) : Option Destructor := do
  let className ← destructorName? head
  let event ← between? "        if (EventEnabled" "()) \x7b" guard
  let text ← between? "            " ");" call
  return ⟨className, event, .ofText text⟩

/-- The first destructor that lines declare. Its body has to be one call under one test. -/
def Destructor.ofLines? (lines : List String) : Option Destructor :=
  match lines.dropWhile fun line => (destructorName? line).isNone with
  | head :: opening :: guard :: call :: closing :: ending :: _ =>
      if [opening, closing, ending] = ["    \x7b", "        \x7d", "    \x7d"] then
        Destructor.ofParts? head guard call
      else none
  | _ => none

/-- A function by its declaration. -/
structure DeclaredFunction where
  name : String
  parameters : List String
deriving DecidableEq, Repr

/-- The first function that lines declare: its name is the last word in front of a parenthesis that
ends a line, and its parameters are the lines behind it, up to the first without a comma. -/
def DeclaredFunction.ofLines? (lines : List String) : Option DeclaredFunction :=
  match lines.dropWhile fun line => line.toList.getLast? ≠ some '(' with
  | [] => none
  | head :: rest =>
      let name := (head.toList.dropLast.reverse.takeWhile isWordChar).reverse
      let more := rest.takeWhile fun line => line.toList.getLast? = some ','
      let parameter (line : String) :=
        (line.toList.dropWhile (· = ' ')).takeWhile fun c => c ≠ ',' ∧ c ≠ ')'
      some ⟨String.ofList name,
        (rest.take (more.length + 1)).map fun line => String.ofList (parameter line)⟩

end Readers

/-- Classes are read line by line, so lines can be looked at in parts. -/
theorem classNames_append (lines others : List String) :
    classNames (lines ++ others) = classNames lines ++ classNames others :=
  List.filterMap_append

theorem classNames_singleton (name : String) : classNames ["class " ++ name] = [name] := by
  have hText : ("class " ++ name).toList = classStart ++ name.toList := String.toList_append
  have hDrop : (classStart ++ name.toList).dropPrefix? classStart = some name.toList :=
    List.dropPrefix?_eq_some_iff.mpr ⟨classStart, rfl, beq_self_eq_true _⟩
  rw [classNames, List.filterMap_cons, hText, hDrop]
  exact congrArg (· :: []) String.ofList_toList

/-- Lines that are blank or begin with none of the marks. -/
def Unmarked (marks : List (List Char)) (lines : List String) : Prop :=
  ∀ line ∈ lines, line = "" ∨ Apart marks line

namespace Unmarked

variable {marks : List (List Char)} {lines others : List String}

theorem nil : Unmarked marks [] :=
  fun _ hLine => absurd hLine List.not_mem_nil

theorem blank (h : Unmarked marks lines) : Unmarked marks ("" :: lines) :=
  List.forall_mem_cons.mpr ⟨.inl rfl, h⟩

theorem cons {line : String} (hLine : Apart marks line) (h : Unmarked marks lines) :
    Unmarked marks (line :: lines) :=
  List.forall_mem_cons.mpr ⟨.inr hLine, h⟩

theorem append (h : Unmarked marks lines) (h' : Unmarked marks others) :
    Unmarked marks (lines ++ others) :=
  List.forall_mem_append.mpr ⟨h, h'⟩

theorem mono {fewer : List (List Char)} (h : Unmarked marks lines) (hFewer : fewer ⊆ marks) :
    Unmarked fewer lines :=
  fun line hLine => (h line hLine).imp_right fun hApart mark hMark => hApart mark (hFewer hMark)

/-- No line begins with a mark, the blank ones least of all. -/
theorem not_isPrefix {mark : List Char} (h : Unmarked marks lines) (hMark : mark ∈ marks)
    (hSome : mark ≠ []) {line : String} (hLine : line ∈ lines) : ¬ mark <+: line.toList := by
  rcases h line hLine with rfl | hApart
  · exact fun hPrefix => hSome (List.prefix_nil.mp hPrefix)
  · exact (hApart mark hMark).1

/-- Where no line begins like the declaration of a class, none is declared. -/
theorem classNames_eq_nil (h : Unmarked marks lines) (hMark : classStart ∈ marks) :
    classNames lines = [] := by
  refine List.filterMap_eq_nil_iff.mpr fun line hLine => ?_
  rw [Text.dropPrefix?_eq_none (h.not_isPrefix hMark (by decide) hLine)]
  rfl

/-- Items begin as their indentation does, whatever their own texts are. -/
theorem itemLines {indent : String} (hIndent : Apart marks indent) (closing : String)
    (items : List String) : Unmarked marks (itemLines indent closing items) := by
  fun_induction Header.itemLines indent closing items with
  | case1 => exact nil
  | case2 item => exact cons ((hIndent.append _).append _) nil
  | case3 item items _ ih => exact cons ((hIndent.append _).append _) ih

end Unmarked

section Parts

variable (s : Surface) (scope : String) (q : ProviderPlan) (a : ActivityPair) (symbol : String)
  (w : EventWrite)

theorem unmarked_constructorHead (className : String) (parameters : List String) :
    Unmarked [classStart, destructorStart] (constructorHead className parameters) := by
  rw [constructorHead]
  split
  · exact .cons (.append (.append (.literal (by decide)) _) _) .nil
  · exact .cons (.append (.append (.literal (by decide)) _) _)
      (.itemLines (.literal (by decide)) _ _)

theorem unmarked_guardedWrite (call : String) :
    Unmarked [classStart, destructorStart] (guardedWrite symbol call) :=
  .cons (.append (.append (.literal (by decide)) _) _) <|
    .cons (.append (.append (.literal (by decide)) _) _) <|
    .cons (.literal (by decide)) .nil

/-- In front of the destructor there is neither another class nor another destructor. So the
destructor that is read is the one of the class. -/
theorem unmarked_constructorLines :
    Unmarked [classStart, destructorStart] (constructorLines s scope q a symbol w) := by
  have hOpen : Unmarked [classStart, destructorStart] ["\x7b", "public:"] :=
    .cons (.literal (by decide)) (.cons (.literal (by decide)) .nil)
  have hCreate : Unmarked [classStart, destructorStart] ["    \x7b", "        " ++ s.systemScope ++
      "EventActivityIdControl(EVENT_ACTIVITY_CTRL_CREATE_ID, &m_id);"] :=
    .cons (.literal (by decide)) (.cons (.append (.append (.literal (by decide)) _) _) .nil)
  have hEnd : Unmarked [classStart, destructorStart] ["    \x7d", ""] :=
    .cons (.literal (by decide)) (.blank .nil)
  exact (((hOpen.append (unmarked_constructorHead _ _)).append hCreate).append
    (unmarked_guardedWrite _ _)).append hEnd

/-- The destructor contains no declaration of a class. -/
theorem unmarked_destructorLines :
    Unmarked [classStart] (destructorLines s scope q a symbol w) := by
  have hOpen : Unmarked [classStart] ["    ~" ++ activityClassName a ++ "()", "    \x7b"] :=
    .cons (.append (.append (.literal (by decide)) _) _) (.cons (.literal (by decide)) .nil)
  exact (hOpen.append ((unmarked_guardedWrite _ _).mono (by simp))).append
    (.cons (.literal (by decide)) .nil)

theorem unmarked_closingLines : Unmarked [classStart] (closingLines a) := by
  refine .blank (.cons ?_ (.cons ?_ (.blank ?_)))
  · exact .append (.append (.append (.append (.literal (by decide)) _) _) _) _
  · exact .append (.append (.append (.append (.literal (by decide)) _) _) _) _
  · refine .cons (.literal (by decide)) (.cons (.literal (by decide)) (.cons (.literal (by decide))
      (.cons (.literal (by decide)) (.blank ?_))))
    exact .cons (.literal (by decide)) (.cons (.literal (by decide))
      (.cons (.literal (by decide)) (.blank .nil)))

theorem destructorName?_append (className : String) :
    destructorName? ("    ~" ++ className ++ "()") = some className :=
  between?_append _ _ _

/-- The parts of a destructor are read back, if what it passes on can be told apart. A comma in an
argument would make two of it. -/
theorem ofParts?_destructor (className : String)
    (hArguments : ∀ item ∈ activityArguments s q symbol, IsArgument item) :
    Destructor.ofParts? ("    ~" ++ className ++ "()")
        ("        if (EventEnabled" ++ symbol ++ "()) \x7b")
        ("            " ++
          templateCall s scope w.templateKey (activityArguments s q symbol) ++ ";") =
      some ⟨className, symbol,
        ⟨scope ++ s.templateFunction w.templateKey, activityArguments s q symbol⟩⟩ := by
  have hSome : activityArguments s q symbol ≠ [] := List.cons_ne_nil _ _
  have hEnd : ");" = ")" ++ ";" := by decide
  have hCall : "            " ++
      templateCall s scope w.templateKey (activityArguments s q symbol) ++ ";" =
        "            " ++ (scope ++ s.templateFunction w.templateKey ++ "(" ++
          commaList (activityArguments s q symbol)) ++ ");" := by
    simp only [templateCall, hEnd, String.append_assoc]
  simp only [Destructor.ofParts?, destructorName?_append, hCall, between?_append,
    Option.bind_eq_bind, Option.bind_some]
  rw [Call.ofText_append _ hSome hArguments]
  rfl

/-- A destructor is read back from lines in which it stands. No other destructor may stand in front
of it; what stands behind it does not matter. -/
theorem ofLines?_destructorLines {before : List String} (after : List String)
    (hBefore : ∀ line ∈ before, ¬ destructorStart <+: line.toList)
    (hArguments : ∀ item ∈ activityArguments s q symbol, IsArgument item) :
    Destructor.ofLines? (before ++ destructorLines s scope q a symbol w ++ after) =
      some ⟨activityClassName a, symbol,
        ⟨scope ++ s.templateFunction w.templateKey, activityArguments s q symbol⟩⟩ := by
  have hSkip : (before ++ (destructorLines s scope q a symbol w ++ after)).dropWhile
      (fun line => (destructorName? line).isNone) =
        destructorLines s scope q a symbol w ++ after := by
    rw [List.dropWhile_append_of_pos]
    · change List.dropWhile _ (("    ~" ++ activityClassName a ++ "()") :: _) = _
      rw [List.dropWhile_cons_of_neg (by simp [destructorName?_append])]
      rfl
    · intro line hLine
      have hStart : ¬ "    ~".toList <+: line.toList := hBefore line hLine
      rw [destructorName?, between?_eq_none hStart]
      rfl
  rw [List.append_assoc, Destructor.ofLines?, hSkip]
  exact ofParts?_destructor s scope q symbol w (activityClassName a) hArguments

end Parts

section Class

variable {q : ProviderPlan} {a : ActivityPair} {start stop : EventPlan} {w v : EventWrite}
  (h : q.Completes a start stop w v) (s : Surface) (scope : String)

include h

/-- The class of an activity that has both of its events. Without one of them there would be no
lines at all. -/
theorem activityClass_eq :
    activityClass s scope q a =
      ["class " ++ activityClassName a] ++ constructorLines s scope q a start.symbol w ++
        destructorLines s scope q a stop.symbol v ++ closingLines a := by
  obtain ⟨startSymbol, startDescriptor, startWrite⟩ := start
  obtain ⟨stopSymbol, stopDescriptor, stopWrite⟩ := stop
  obtain rfl : startWrite = some w := h.startWritten
  obtain rfl : stopWrite = some v := h.stopWritten
  simp only [activityClass, h.startPlace, h.stopPlace]
  rfl

/-- An activity has one class, under its own name. The lines inside it declare no further one. -/
theorem classNames_activityClass :
    classNames (activityClass s scope q a) = [activityClassName a] := by
  rw [activityClass_eq h, classNames_append, classNames_append, classNames_append,
    classNames_singleton, (unmarked_constructorLines _ _ _ _ _ _).classNames_eq_nil (by simp),
    (unmarked_destructorLines _ _ _ _ _ _).classNames_eq_nil (by simp),
    (unmarked_closingLines a).classNames_eq_nil (by simp)]
  rfl

omit h in
/-- What an activity passes on can be told apart, whichever event it is. The arguments are names
with a word around them. -/
theorem isArgument_of_mem_activityArguments {symbol : String}
    (hProvider : isIdentifier q.symbol = true) (hSymbol : isIdentifier symbol = true)
    (hNull : isWord s.null = true) : ∀ item ∈ activityArguments s q symbol, IsArgument item := by
  have hWord {name : String} (hName : isIdentifier name = true) : isWord name = true :=
    isWord_iff.mpr (isIdentifierChars_iff.mp hName).2.1
  have hObject {name : String} (hName : isWord name = true) : IsArgument (s.object name) := by
    rw [Surface.object]
    split
    · exact .append (by decide) (isArgument_of_isWord hName)
    · exact isArgument_of_isWord hName
  have hContext : isWord (q.symbol ++ "_Context") = true := by
    rw [isWord_append, hWord hProvider]
    decide
  simp only [activityArguments, List.forall_mem_cons, List.not_mem_nil, false_implies, implies_true,
    and_true]
  exact ⟨hObject hContext, hObject (hWord hSymbol), by decide, isArgument_of_isWord hNull⟩

/-- The destructor of an activity's class calls the function of templates without payload, if the
event that ends the activity is enabled. -/
theorem ofLines?_activityClass (hProvider : isIdentifier q.symbol = true)
    (hStop : isIdentifier stop.symbol = true) (hNull : isWord s.null = true) :
    Destructor.ofLines? (activityClass s scope q a) =
      some ⟨activityClassName a, stop.symbol,
        ⟨scope ++ s.templateFunction "", activityArguments s q stop.symbol⟩⟩ := by
  have hBefore : ∀ line ∈ ["class " ++ activityClassName a] ++
      constructorLines s scope q a start.symbol w, ¬ destructorStart <+: line.toList := by
    have hClass : Unmarked [destructorStart] ["class " ++ activityClassName a] :=
      .cons (.append (.literal (by decide)) _) .nil
    have hLines := hClass.append ((unmarked_constructorLines s scope q a start.symbol w).mono
      (List.subset_cons_self _ _))
    exact fun line hLine => hLines.not_isPrefix List.mem_cons_self (by decide) hLine
  rw [activityClass_eq h, ofLines?_destructorLines s scope q a stop.symbol v _ hBefore
    (isArgument_of_mem_activityArguments s hProvider hStop hNull), h.emptyKey]

end Class

section Header

def surfaceOf : Dialect → Surface
  | .functions => .functions
  | .macros => .macros

/-- What stands before the name of a template where an activity calls it. -/
def templateScope (o : HeaderOptions) : String :=
  match o.dialect with
  | .functions => o.shared ++ "::"
  | .macros => ""

/-- The class of an activity. -/
def classLines (o : HeaderOptions) (q : ProviderPlan) (a : ActivityPair) : List String :=
  activityClass (surfaceOf o.dialect) (templateScope o) q a

/-- The classes of a provider's activities. -/
def activityLines (o : HeaderOptions) (q : ProviderPlan) : List String :=
  q.activities.flatMap (classLines o q)

/-- The lines of a template's function. -/
def functionLines (d : Dialect) (t : TemplatePlan) : List String :=
  match d with
  | .functions => Functions.templateLines t
  | .macros => Macros.templateLines t

/-- The function of templates without payload, with all that it takes. -/
def payloadFreeFunction : Dialect → DeclaredFunction
  | .functions =>
      ⟨"WriteNoPayload",
        ["const ProviderContext& Context", "const EVENT_DESCRIPTOR& Descriptor",
          "_In_opt_ const GUID* ActivityId", "_In_opt_ const GUID* RelatedActivityId"]⟩
  | .macros =>
      ⟨"McTemplateU0",
        ["_In_ PMCGEN_TRACE_CONTEXT Context", "_In_ PCEVENT_DESCRIPTOR Descriptor",
          "_In_opt_ const GUID* ActivityId", "_In_opt_ const GUID* RelatedActivityId"]⟩

/-- The call that ends an activity: the function of templates without payload takes the context of
the provider, the event, the activity and no related activity. -/
def endingCall (o : HeaderOptions) (q : ProviderPlan) (stop : EventPlan) : Call :=
  match o.dialect with
  | .functions =>
      ⟨o.shared ++ "::WriteNoPayload", [q.symbol ++ "_Context", stop.symbol, "&m_id", "nullptr"]⟩
  | .macros =>
      ⟨"McTemplateU0", ["&" ++ q.symbol ++ "_Context", "&" ++ stop.symbol, "&m_id", "NULL"]⟩

/-- A function is found under the name of the call, and takes as many arguments as are passed on. -/
structure Call.Fits (call : Call) (scope : String) (f : DeclaredFunction) : Prop where
  function : call.function = scope ++ f.name
  arity : call.arguments.length = f.parameters.length

/-- The declaration of the function without payload, read from its lines in each dialect. -/
theorem ofLines?_payloadFree (d : Dialect) :
    DeclaredFunction.ofLines? (functionLines d .payloadFree) = some (payloadFreeFunction d) := by
  cases d <;> decide +kernel

/-- The call has the name of that function, with the scope in front, and as many arguments as it
takes. Their types are not compared. -/
theorem endingCall_fits (o : HeaderOptions) (q : ProviderPlan) (stop : EventPlan) :
    (endingCall o q stop).Fits (templateScope o) (payloadFreeFunction o.dialect) := by
  rw [endingCall, templateScope]
  cases o.dialect with
  | functions =>
      have hName : "::WriteNoPayload" = "::" ++ "WriteNoPayload" := by decide
      exact ⟨by rw [hName, ← String.append_assoc]; rfl, rfl⟩
  | macros => exact ⟨rfl, rfl⟩

variable {o : HeaderOptions} {plan : GenerationPlan}

/-- The classes of every provider of a plan are in its header, for all options. They stand there in
one piece. -/
theorem activityLines_isInfix {q : ProviderPlan} (hq : q ∈ plan.providers) :
    activityLines o q <:+: linesOf o plan := by
  rw [linesOf_eq, activityLines]
  cases hDialect : o.dialect with
  | functions =>
      have hClasses : classLines o q = activityClass .functions (o.shared ++ "::") q := by
        funext a
        simp only [classLines, templateScope, hDialect, surfaceOf]
      have hLast : q.activities.flatMap (activityClass .functions (o.shared ++ "::") q) <:+:
          providerLines o q := by
        rw [providerLines, hDialect]
        exact (List.suffix_append _ _).isInfix
      rw [hClasses]
      exact (hLast.trans (isInfix_flatMap_of_mem hq)).trans (List.infix_append _ _ _)
  | macros =>
      have hClasses : classLines o q = activityClass .macros "" q := by
        funext a
        simp only [classLines, templateScope, hDialect, surfaceOf]
      have hAfter : linesAfter o plan = Macros.activityLines plan.providers := by
        rw [linesAfter, hDialect]
      rw [hClasses, hAfter, Macros.activityLines]
      split
      · rename_i hNone
        have hEmpty := List.all_eq_true.mp hNone q hq
        rw [List.isEmpty_iff.mp hEmpty]
        exact List.nil_infix
      · have hOwn := isInfix_flatMap_of_mem
          (f := fun p => p.activities.flatMap (activityClass .macros "" p)) hq
        exact (hOwn.trans (List.infix_append _ _ _)).trans (List.suffix_append _ _).isInfix

/-- The function of every template of a plan is in its header. -/
theorem functionLines_isInfix {t : TemplatePlan} (ht : t ∈ plan.templates) :
    functionLines o.dialect t <:+: linesOf o plan := by
  rw [linesOf_eq]
  refine List.IsInfix.trans ?_ ((List.prefix_append _ _).trans (List.prefix_append _ _)).isInfix
  cases hDialect : o.dialect with
  | functions =>
      have hTemplates :
          Functions.templateLines t <:+: Functions.templatesLines o plan.templates := by
        have hSome : plan.templates.isEmpty = false :=
          List.isEmpty_eq_false_iff.mpr (List.ne_nil_of_mem ht)
        rw [Functions.templatesLines, hSome]
        exact (isInfix_flatMap_of_mem ht).trans (List.infix_append _ _ _)
      rw [linesBefore, hDialect]
      exact hTemplates.trans
        ((List.suffix_append _ _).isInfix.trans (List.prefix_append _ _).isInfix)
  | macros =>
      rw [linesBefore, hDialect]
      exact (isInfix_flatMap_of_mem ht).trans (List.suffix_append _ _).isInfix

end Header

/-- What a header has for the activities of a provider, whatever its options are. -/
structure RendersActivities (plan : GenerationPlan) (q : ProviderPlan) : Prop where
  /-- Both events of an activity are written. It has one class, whose destructor tests the event
  that ends the activity and makes the call for it. -/
  complete : ∀ a ∈ q.activities, ∃ start stop w v, q.Completes a start stop w v ∧
    ∀ o, classNames (classLines o q a) = [activityClassName a] ∧
      Destructor.ofLines? (classLines o q a) =
        some ⟨a.symbol ++ "Activity", stop.symbol, endingCall o q stop⟩
  /-- The classes are one for each activity, under different names. -/
  classes : ∀ o, classNames (activityLines o q) = q.activities.map activityClassName
  nodup : (q.activities.map activityClassName).Nodup
  written : ∀ o, activityLines o q <:+: linesOf o plan
  /-- The function that ends activities is planned and declared. -/
  payloadFree : q.activities ≠ [] → .payloadFree ∈ plan.templates ∧
    ∀ o, functionLines o.dialect .payloadFree <:+: linesOf o plan ∧
      DeclaredFunction.ofLines? (functionLines o.dialect .payloadFree) =
        some (payloadFreeFunction o.dialect)
  /-- The call has the four arguments that the function takes. -/
  fits : ∀ o stop, (endingCall o q stop).Fits (templateScope o) (payloadFreeFunction o.dialect)

theorem nodup_activityClassName {activities : List ActivityPair}
    (h : (activities.map ActivityPair.symbol).Nodup) :
    (activities.map activityClassName).Nodup := by
  have hNames : activities.map activityClassName =
      (activities.map ActivityPair.symbol).map (· ++ "Activity") := by
    rw [List.map_map]
    rfl
  rw [hNames]
  exact h.map fun _ _ => (String.append_left_inj _).mp

/-- A provider has as many classes as activities, in the same order. -/
theorem classNames_activityLines {q : ProviderPlan}
    (h : ∀ a ∈ q.activities, ∃ start stop w v, q.Completes a start stop w v) (o : HeaderOptions) :
    classNames (activityLines o q) = q.activities.map activityClassName := by
  have hFlat (activities : List ActivityPair) (f : ActivityPair → List String) :
      classNames (activities.flatMap f) = activities.flatMap fun a => classNames (f a) :=
    List.filterMap_flatMap
  rw [activityLines, hFlat, List.map_eq_flatMap]
  refine List.flatMap_congr fun a ha => ?_
  obtain ⟨_, _, _, _, hCompletes⟩ := h a ha
  exact classNames_activityClass hCompletes _ _

/-- The call that ends an activity, as it is read from the class: the test of the stop event guards
it, and the four arguments are those of the template without payload. -/
theorem ofLines?_classLines {q : ProviderPlan} {a : ActivityPair} {start stop : EventPlan}
    {w v : EventWrite} (h : q.Completes a start stop w v) (hNames : q.HasIdentifiers)
    (o : HeaderOptions) :
    Destructor.ofLines? (classLines o q a) =
      some ⟨a.symbol ++ "Activity", stop.symbol, endingCall o q stop⟩ := by
  have hStop := hNames.events stop (List.mem_of_getElem? h.stopPlace)
  have hNull : isWord (surfaceOf o.dialect).null = true := by
    cases o.dialect <;> decide
  rw [classLines, ofLines?_activityClass h _ _ hNames.provider hStop hNull, endingCall,
    templateScope]
  cases o.dialect with
  | functions =>
      have hName : "::WriteNoPayload" = "::" ++ "WriteNoPayload" := by decide
      rw [hName, ← String.append_assoc]
      rfl
  | macros =>
      have hContext : "&" ++ q.symbol ++ "_Context" = "&" ++ (q.symbol ++ "_Context") :=
        String.append_assoc
      rw [hContext]
      rfl

/-- The header of a manifest has a class for every activity, and what the class calls. For every
manifest with a plan, each activity has both of its events, its class is rendered once, and the call
in the destructor fits the function of templates without payload, which the header declares. It is
not claimed that the header compiles. -/
theorem rendersActivities_of_build {m : Manifest} {tables : List SymbolTable}
    {plan : GenerationPlan} (hTables : SymbolTable.resolveAll m.providers = some tables)
    (hPlan : (GenerationPlan.build m tables).plan = some plan) :
    ∀ q ∈ plan.providers, RendersActivities plan q := by
  obtain ⟨planned, hEach, hProviders, _⟩ := GenerationPlan.build_eq_some hTables hPlan
  intro q hq
  obtain ⟨r, hr, rfl⟩ := List.mem_map.mp (hProviders ▸ hq)
  obtain ⟨p, _, hPlans⟩ := Outcome.exists_of_mem_right hEach hr
  have hNames := ProviderPlan.hasIdentifiers_of_plansTo hPlans
  have hCompletes (a : ActivityPair) (ha : a ∈ r.plan.activities) :=
    ProviderPlan.exists_completes hPlans ha
  constructor
  case complete =>
    intro a ha
    obtain ⟨start, stop, w, v, h⟩ := hCompletes a ha
    exact ⟨start, stop, w, v, h,
      fun o => ⟨classNames_activityClass h _ _, ofLines?_classLines h hNames o⟩⟩
  case classes => exact classNames_activityLines hCompletes
  case nodup => exact nodup_activityClassName (ProviderPlan.nodup_symbol_activities hPlans)
  case written => exact fun o => activityLines_isInfix hq
  case payloadFree =>
    intro hSome
    obtain ⟨a, ha⟩ := List.exists_mem_of_ne_nil _ hSome
    obtain ⟨start, stop, w, v, h⟩ := hCompletes a ha
    obtain ⟨_, _, hEvents⟩ :=
      Outcome.exists_of_mem_right (GenerationPlan.forall₂_events_of_build hTables hPlan) hq
    obtain ⟨_, _, _, hPlanned⟩ :=
      Outcome.exists_of_mem_right hEvents (List.mem_of_getElem? h.stopPlace)
    have hKey := hPlanned v h.stopWritten
    rw [h.emptyKey] at hKey
    have hMem := GenerationPlan.payloadFree_mem hTables hPlan hKey
    exact ⟨hMem, fun o => ⟨functionLines_isInfix hMem, ofLines?_payloadFree o.dialect⟩⟩
  case fits => exact fun o stop => endingCall_fits o _ stop

/-- Two activities, one of which begins with a number. -/
def copyAndMove : Provider :=
  { Provider.bare "P"
      [⟨1, 0, none, none, none, some "Start", [], false, some "CopyStart",
          some ⟨[.ofType "Size" .uint32]⟩⟩,
        ⟨2, 0, none, none, none, some "Stop", [], false, some "CopyStop", none⟩,
        ⟨3, 0, none, none, none, some "Start", [], false, some "MoveStart", none⟩,
        ⟨4, 0, none, none, none, some "Stop", [], false, some "MoveStop", none⟩] with
    opcodes := [⟨"Start", 1, none⟩, ⟨"Stop", 2, none⟩] }

theorem find_copyAndMove {table : SymbolTable} (h : SymbolTable.resolve copyAndMove = .ok table) :
    (Activity.find copyAndMove table).pairs = [⟨"CopySt", 0, 1⟩, ⟨"MoveSt", 2, 3⟩] := by
  have hDistinct : distinct ((Activity.marks copyAndMove.events).map fun m => m.event.value) =
      [1, 2, 3, 4] := by
    decide
  have hValues : Activity.values (Activity.marks copyAndMove.events) = [1, 2, 3, 4] := by
    rw [Activity.values, hDistinct]
    exact List.mergeSort_of_pairwise (by decide)
  cases h
  rw [Activity.find, Activity.candidates, hValues]
  decide +kernel

/-- The plan of the two activities, with the symbols of their four events. -/
theorem build_copyAndMove :
    ∃ tables ∈ SymbolTable.resolveAll [copyAndMove],
      ∃ plan ∈ (GenerationPlan.build ⟨[copyAndMove]⟩ tables).plan,
        ∃ q ∈ plan.providers, q.symbol = "P" ∧
          q.events.map EventPlan.symbol = ["CopyStart", "CopyStop", "MoveStart", "MoveStop"] := by
  decide

/-- Each of the two has its class in a header of either dialect, and the class of the first ends it
by a call with four arguments. -/
theorem rendersActivities_copyAndMove :
    ∃ tables plan q, SymbolTable.resolveAll [copyAndMove] = some tables ∧
      (GenerationPlan.build ⟨[copyAndMove]⟩ tables).plan = some plan ∧ q ∈ plan.providers ∧
      (∀ o, classNames (activityLines o q) = ["CopyStActivity", "MoveStActivity"]) ∧
      Destructor.ofLines? (classLines { dialect := .functions } q ⟨"CopySt", 0, 1⟩) =
        some ⟨"CopyStActivity", "CopyStop",
          ⟨"etw::WriteNoPayload", ["P_Context", "CopyStop", "&m_id", "nullptr"]⟩⟩ ∧
      Destructor.ofLines? (classLines { dialect := .macros } q ⟨"CopySt", 0, 1⟩) =
        some ⟨"CopyStActivity", "CopyStop",
          ⟨"McTemplateU0", ["&P_Context", "&CopyStop", "&m_id", "NULL"]⟩⟩ ∧
      TemplatePlan.payloadFree ∈ plan.templates ∧ RendersActivities plan q := by
  obtain ⟨tables, hTables, plan, hPlan, q, hq, hSymbol, hEvents⟩ := build_copyAndMove
  have h := rendersActivities_of_build hTables hPlan q hq
  have hActivities : q.activities = [⟨"CopySt", 0, 1⟩, ⟨"MoveSt", 2, 3⟩] := by
    obtain ⟨planned, hEach, hProviders, _⟩ := GenerationPlan.build_eq_some hTables hPlan
    obtain ⟨r, hr, rfl⟩ := List.mem_map.mp (hProviders ▸ hq)
    obtain ⟨p, hp, table, hTable, hBuild⟩ := Outcome.exists_of_mem_right hEach hr
    cases List.mem_singleton.mp hp
    rw [ProviderPlan.activities_of_build hBuild, find_copyAndMove hTable]
  have hSome : q.activities ≠ [] := by
    rw [hActivities]
    exact List.cons_ne_nil _ _
  obtain ⟨start, stop, w, v, hCompletes, hClass⟩ :=
    h.complete ⟨"CopySt", 0, 1⟩ (by simp [hActivities])
  have hStop : stop.symbol = "CopyStop" := by
    have hPlace : (q.events.map EventPlan.symbol)[1]? = some stop.symbol := by
      rw [List.getElem?_map, hCompletes.stopPlace, Option.map_some]
    rw [hEvents] at hPlace
    exact (Option.some.inj hPlace).symm
  refine ⟨tables, plan, q, hTables, hPlan, hq, fun o => ?_, ?_, ?_, (h.payloadFree hSome).1, h⟩
  · rw [h.classes o, hActivities]
    rfl
  · rw [(hClass _).2, endingCall, hSymbol, hStop]
    decide
  · rw [(hClass _).2, endingCall, hSymbol, hStop]
    decide

end EventManifest.Header
