import EventManifest.Header.Render
import EventManifest.Proofs.Header.FillLines
import EventManifest.Proofs.Template.Sharing

/-!
The function of a template in the two dialects. Both declare one array, fill its slots from the
second to the last in order, and pass on the array with its length. The lines that fill the slots
differ by a fixed substitution of words.
-/

namespace EventManifest.Header

/-- The macro that holds the number of slots without the first one. -/
def argCount (t : TemplatePlan) : String :=
  "McTemplateU0" ++ t.key ++ "_ARGCOUNT"

/-- The function of a template in both dialects, line by line. -/
structure SameFunction (t : TemplatePlan) (functions macros : List (List Char)) : Prop where
  functions_fill : FillsSlots t.slotCount functions
  functions_array :
    restsOf "    EVENT_DATA_DESCRIPTOR " functions =
      [("EventData[" ++ toString t.slotCount ++ "];").toList]
  functions_pass :
    restsOf "    return " functions =
      [("WriteEvent(Context, Descriptor, ActivityId, RelatedActivityId, " ++
        (toString t.slotCount ++ ", EventData);")).toList]
  macros_fill : FillsSlots t.slotCount macros
  macros_count :
    restsOf "#define " macros =
      [("McTemplateU0" ++ t.key ++ "_def").toList,
        (argCount t ++ " " ++ toString (t.slotCount - 1)).toList]
  macros_array :
    restsOf "    EVENT_DATA_DESCRIPTOR " macros =
      [("EventData[" ++ argCount t ++ " + 1];").toList]
  macros_pass :
    restsOf "    return " macros =
      [("McGenEventWrite(Context, Descriptor, ActivityId, RelatedActivityId, " ++
        (argCount t ++ " + 1, EventData);")).toList]
  /-- The comments and calls of one dialect turn into those of the other, one by one. -/
  descriptors :
    (descriptorLines functions).map (Text.substitute dialectRules) = descriptorLines macros

section Key

theorem not_mem_numeral {c : Char} (hc : c.isDigit = false) (n : Nat) : c ∉ Shape.numeral n := by
  have hNone := not_mem_toString hc n
  rwa [Nat.toString_eq_ofList_toDigits, String.toList_ofList] at hNone

/-- An upper-case letter never stands alone in a key, and what follows it does not go on as a call
does. -/
theorem isInert_cons_of_not_mem (c : Char) {tail : List Char} (hSome : tail ≠ [])
    (hSecond : 'v' ∉ tail) (hFirst : 'E' ∉ tail) : Text.isInert fillLetters (c :: tail) := by
  refine Text.isInert_cons.mpr ⟨?_, ?_, Text.isInert_of_not_mem hFirst⟩
  · cases tail with
    | nil => exact absurd rfl hSome
    | cons next rest => grind [fillLetters]
  · cases tail with
    | nil => exact absurd rfl hSome
    | cons next rest => grind [fillLetters]

/-- A signature has letters and digits only, among which no word of the lines can begin. -/
theorem quiet_signature (s : Shape) : Quiet (String.ofList s.signatureChars) := by
  have hLower : s.category.letter ≠ 'E' ∧ s.category.letter ≠ '\n' ∧
      s.category.letter.toUpper ≠ '\n' := by
    cases s.category with
    | struct => decide
    | data inType => cases inType <;> decide
  obtain ⟨hLetter, hNewline, hNewline'⟩ := hLower
  have hNumeral (n : Nat) : Shape.numeral n ≠ [] := Nat.toDigits_ne_nil
  have hE := not_mem_numeral (c := 'E') rfl
  have hv := not_mem_numeral (c := 'v') rfl
  have hn := not_mem_numeral (c := '\n') rfl
  have hLines : '\n' ∉ s.signatureChars := by
    unfold Shape.signatureChars
    split <;> simp [hNewline.symm, hNewline'.symm, hn]
  have hCalls : Text.isInert fillLetters s.signatureChars := by
    unfold Shape.signatureChars
    split
    · exact Text.isInert_of_not_mem (by simp [hLetter.symm])
    · exact Text.isInert_of_not_mem (by simp [hLetter.symm, hE])
    · exact Text.isInert_of_not_mem (by simp [hLetter.symm, hE])
    · exact Text.isInert_of_not_mem (by simp [hLetter.symm, hE])
    all_goals exact isInert_cons_of_not_mem _ (by simp [hNumeral]) (by simp [hv]) (by simp [hE])
  exact .literal (by simp [quietWords, hCalls, Text.isInert_of_not_mem hLines])

/-- Hence neither has a key. It can stand in any line without changing how the line is read. -/
theorem quiet_key {properties : List Property} {key : String}
    (hKey : Template.keyOf properties = .ok key) : Quiet key := by
  obtain ⟨shapes, hShapes, rfl⟩ := Template.keyOf_eq_ok_iff.mp hKey
  clear hKey hShapes
  induction shapes with
  | nil => exact .literal (by decide)
  | cons s shapes ih =>
    rw [List.flatMap_cons, String.ofList_append]
    exact (quiet_signature s).append ih

end Key

section Parameters

/-- Whether a piece begins with a character. -/
def BeginsWith (c : Char) (piece : String) : Prop :=
  ∃ rest, piece.toList = c :: rest

theorem BeginsWith.literal {c : Char} {rest : List Char} :
    BeginsWith c (String.ofList (c :: rest)) :=
  ⟨rest, String.toList_ofList⟩

theorem BeginsWith.append {c : Char} {a : String} (h : BeginsWith c a) (b : String) :
    BeginsWith c (a ++ b) := by
  obtain ⟨rest, hRest⟩ := h
  exact ⟨rest ++ b.toList, by rw [String.toList_append, hRest, List.cons_append]⟩

theorem beginsWith_marker (a : Access) : BeginsWith '_' (a.marker .positional) := by
  obtain ⟨optional, zeroTerminated, extent⟩ := a
  cases extent with
  | single => cases optional <;> cases zeroTerminated <;> exact .literal
  | elements factors | bytes factors => exact .append (.append .literal _) _

/-- The declaration of a parameter begins as no other line of the body does. So it is never taken
for one. -/
theorem opens_item {item : String} {c : Char} (hc : c ∈ ['_', 'c']) (hItem : BeginsWith c item)
    (hQuiet : Quiet item) : Opens allMarks ("    " ++ item) := by
  have hApart : ∀ mark ∈ allMarks,
      ¬ mark <+: [' ', ' ', ' ', ' ', c] ∧ ¬ [' ', ' ', ' ', ' ', c] <+: mark := by
    simp only [List.mem_cons, List.not_mem_nil, or_false] at hc
    rcases hc with rfl | rfl <;> decide
  obtain ⟨rest, hRest⟩ := hItem
  have hText : "    " ++ item = String.ofList [' ', ' ', ' ', ' ', c] ++ String.ofList rest := by
    rw [← String.ofList_append, ← String.toList_inj, String.toList_append, hRest,
      String.toList_ofList, String.toList_ofList]
    rfl
  refine ⟨.append (.literal (by decide)) hQuiet, ?_⟩
  rw [hText]
  exact Apart.append (.literal hApart) _

theorem opens_literal {c : Char} {letters : List Char} (hc : c ∈ ['_', 'c'])
    (hQuiet : ∀ word ∈ quietWords, Text.isInert word (c :: letters) = true) :
    Opens allMarks ("    " ++ String.ofList (c :: letters)) :=
  opens_item hc .literal (.literal hQuiet)

theorem opens_templateParameter (p : Parameter) :
    Opens allMarks ("    " ++ templateParameter p) :=
  opens_item (by decide)
    (.append (.append (.append (.append (beginsWith_marker p.access) _) _) _) _)
    (quiet_templateParameter p)

/-- The parameters of a function: those that every template has, and those of its own. The former
differ between the dialects. -/
theorem opens_parameters {fixed : List String}
    (hFixed : ∀ item ∈ fixed, Opens allMarks ("    " ++ item)) (ps : List Parameter) :
    ∀ item ∈ fixed ++ ps.map templateParameter, Opens allMarks ("    " ++ item) := by
  intro item hItem
  rcases List.mem_append.mp hItem with hItem | hItem
  · exact hFixed item hItem
  · obtain ⟨p, _, rfl⟩ := List.mem_map.mp hItem
    exact opens_templateParameter p

/-- The parameters of a function, one a line. The last one has the closing parenthesis behind it. -/
theorem neutral_itemLines {marks : List (List Char)} {closing : String} (hClosing : Quiet closing)
    {items : List String} (hItems : ∀ item ∈ items, Opens marks ("    " ++ item)) :
    ∀ line ∈ itemLines "    " closing items, Neutral marks line := by
  induction items with
  | nil => exact fun line hLine => absurd hLine List.not_mem_nil
  | cons item items ih =>
    rw [List.forall_mem_cons] at hItems
    cases items with
    | nil =>
      intro line hLine
      rw [itemLines, List.mem_singleton] at hLine
      rw [hLine]
      exact (hItems.1.append hClosing).neutral
    | cons next rest =>
      intro line hLine
      rcases List.mem_cons.mp hLine with rfl | hLine
      · exact (hItems.1.append (.literal (by decide))).neutral
      · exact ih hItems.2 line hLine

end Parameters

section Frame

/-- Special lines in a row, among lines that begin otherwise. They are found in their order, each
without its beginning. -/
theorem restsOf_eq_rests (mark : List Char) {start : List Char} {before after : List String}
    (rests : List String) (hStart : mark <+: start)
    (hOther : ∀ line ∈ before ++ after, ¬ mark <+: line.toList) :
    restsOf (String.ofList start)
      ((before ++ rests.map (String.ofList start ++ ·) ++ after).map String.toList) =
        rests.map String.toList := by
  have hBefore := restsOf_eq_nil hStart fun line hLine => hOther line (List.mem_append_left _ hLine)
  have hAfter := restsOf_eq_nil hStart fun line hLine => hOther line (List.mem_append_right _ hLine)
  have hRest (rest : String) :
      (String.ofList start ++ rest).toList.dropPrefix? start = some rest.toList := by
    rw [String.toList_append, String.toList_ofList]
    exact List.dropPrefix?_eq_some_iff.mpr ⟨start, rfl, by simp⟩
  have hRests : restsOf (String.ofList start)
      ((rests.map (String.ofList start ++ ·)).map String.toList) = rests.map String.toList := by
    rw [restsOf, String.toList_ofList, List.map_map, List.filterMap_map]
    simp only [Function.comp_def, hRest, List.filterMap_eq_map']
  rw [List.map_append, List.map_append, restsOf_append, restsOf_append, hBefore, hRests, hAfter,
    List.nil_append, List.append_nil]

/-- The case of one special line. -/
theorem restsOf_eq_singleton (mark : List Char) {start : List Char} {before after : List String}
    {rest : String} (hStart : mark <+: start)
    (hOther : ∀ line ∈ before ++ after, ¬ mark <+: line.toList) :
    restsOf (String.ofList start)
      ((before ++ (String.ofList start ++ rest) :: after).map String.toList) = [rest.toList] := by
  have hRests := restsOf_eq_rests mark [rest] hStart hOther
  rwa [List.map_singleton, List.append_assoc] at hRests

/-- The lines of a function that declares an array, fills its slots and passes it on. The others are
of no importance. -/
structure Framed (array pass : String) (before gap gap' after : List String) : Prop where
  quiet_array : Quiet array
  quiet_pass : Quiet pass
  neutral : ∀ line ∈ before ++ gap ++ gap' ++ after, Neutral bodyMarks line

/-- The lines in their order. -/
def framedLines (s : Surface) (slots : List Slot) (array pass : String)
    (before gap gap' after : List String) : List String :=
  before ++ ("    EVENT_DATA_DESCRIPTOR " ++ array) ::
    (gap ++ s.fillLines slots ++ gap' ++ ("    return " ++ pass) :: after)

variable {s : Surface} {slots : List Slot} {array pass : String}
  {before gap gap' after : List String} (hs : Regular s)
  (h : Framed array pass before gap gap' after)

include h

theorem Framed.neutral_array :
    Neutral [noteMark, passMark, defineMark] ("    EVENT_DATA_DESCRIPTOR " ++ array) :=
  Opens.neutral (.append (.literal (by decide) (by decide)) h.quiet_array)

theorem Framed.neutral_pass :
    Neutral [noteMark, arrayMark, defineMark] ("    return " ++ pass) :=
  Opens.neutral (.append (.literal (by decide) (by decide)) h.quiet_pass)

include hs

/-- No line contains another one, so the text is read back by its lines. -/
theorem Framed.newline_not_mem :
    ∀ line ∈ framedLines s slots array pass before gap gap' after, '\n' ∉ line.toList := by
  have hOther (line : String) (hLine : line ∈ before ++ gap ++ gap' ++ after) :
      '\n' ∉ line.toList := (h.neutral line hLine).quiet.newline_not_mem
  have hFill := newline_not_mem_fillLines hs slots
  have hArray := h.neutral_array.quiet.newline_not_mem
  have hPass := h.neutral_pass.quiet.newline_not_mem
  unfold framedLines
  grind

/-- There is one declaration of an array, and it is the expected one. -/
theorem Framed.restsOf_array :
    restsOf "    EVENT_DATA_DESCRIPTOR "
      ((framedLines s slots array pass before gap gap' after).map String.toList) =
        [array.toList] := by
  refine restsOf_eq_singleton arrayMark (by decide) ?_
  have hOther (line : String) (hLine : line ∈ before ++ gap ++ gap' ++ after) :
      ¬ arrayMark <+: line.toList := (h.neutral line hLine).unmarked _ (by decide)
  have hFill : ∀ line ∈ s.fillLines slots, ¬ arrayMark <+: line.toList :=
    unmarked_fillLines hs slots (by decide)
  have hPass := h.neutral_pass.unmarked arrayMark (by decide)
  grind

/-- There is one line that passes the array on. -/
theorem Framed.restsOf_pass :
    restsOf "    return "
      ((framedLines s slots array pass before gap gap' after).map String.toList) =
        [pass.toList] := by
  have hLines : framedLines s slots array pass before gap gap' after =
      (before ++ ("    EVENT_DATA_DESCRIPTOR " ++ array) :: (gap ++ s.fillLines slots ++ gap')) ++
        ("    return " ++ pass) :: after := by
    simp [framedLines]
  rw [hLines]
  refine restsOf_eq_singleton passMark (by decide) ?_
  have hOther (line : String) (hLine : line ∈ before ++ gap ++ gap' ++ after) :
      ¬ passMark <+: line.toList := (h.neutral line hLine).unmarked _ (by decide)
  have hFill : ∀ line ∈ s.fillLines slots, ¬ passMark <+: line.toList :=
    unmarked_fillLines hs slots (by decide)
  have hArray := h.neutral_array.unmarked passMark (by decide)
  grind

omit hs h in
theorem framedLines_eq :
    framedLines s slots array pass before gap gap' after =
      (before ++ ("    EVENT_DATA_DESCRIPTOR " ++ array) :: gap) ++ s.fillLines slots ++
        (gap' ++ ("    return " ++ pass) :: after) := by
  simp [framedLines]

/-- The slots are filled one after the other, from the second one on. The first one is reserved. -/
theorem Framed.slotCalls_eq :
    slotCalls ((framedLines s slots array pass before gap gap' after).map String.toList) =
      slots.zipIdx.map fun x => (slotCall s (x.2 + 1) x.1).toList := by
  have hOther (line : String) (hLine : line ∈ before ++ gap ++ gap' ++ after) : Quiet line :=
    (h.neutral line hLine).quiet
  have hArray := h.neutral_array.quiet
  have hPass := h.neutral_pass.quiet
  rw [framedLines_eq, List.map_append, List.map_append, slotCalls_append, slotCalls_append,
    slotCalls_eq_nil (by grind), slotCalls_fillLines hs, slotCalls_eq_nil (by grind),
    List.nil_append, List.append_nil]

/-- All slots are filled, each once and in their order, if the number of slots is the one that was
counted. -/
theorem Framed.fillsSlots {count : Nat} (hCount : count = totalSlots slots) :
    FillsSlots count
      ((framedLines s slots array pass before gap gap' after).map String.toList) := by
  rw [FillsSlots, h.slotCalls_eq hs, hCount, totalSlots, Nat.add_sub_cancel_left]
  exact forall₂_slotCall slots 0

/-- The lines about slots, with their notes, are those that the slots ask for and no others. -/
theorem Framed.descriptorLines_eq :
    descriptorLines ((framedLines s slots array pass before gap gap' after).map String.toList) =
      (s.fillLines slots).map String.toList := by
  have hOther (line : String) (hLine : line ∈ before ++ gap ++ gap' ++ after) :
      Neutral [noteMark] line := (h.neutral line hLine).mono (by decide)
  have hArray : Neutral [noteMark] ("    EVENT_DATA_DESCRIPTOR " ++ array) :=
    h.neutral_array.mono (by simp)
  have hPass : Neutral [noteMark] ("    return " ++ pass) := h.neutral_pass.mono (by simp)
  have hBefore : ∀ line ∈ before ++ ("    EVENT_DATA_DESCRIPTOR " ++ array) :: gap,
      Neutral [noteMark] line := by grind
  have hAfter : ∀ line ∈ gap' ++ ("    return " ++ pass) :: after, Neutral [noteMark] line := by
    grind
  rw [framedLines_eq, List.map_append, List.map_append, descriptorLines_append,
    descriptorLines_append, descriptorLines_eq_nil hBefore (by decide),
    descriptorLines_fillLines hs, descriptorLines_eq_nil hAfter (by decide), List.nil_append,
    List.append_nil]

end Frame

section Template

/-- The declaration of the array, as it is written. The parts are only bracketed in another way. -/
theorem arrayLine_eq (length closing : String) :
    "    EVENT_DATA_DESCRIPTOR " ++ ("EventData[" ++ length ++ closing) =
      "    EVENT_DATA_DESCRIPTOR EventData[" ++ length ++ closing := by
  rw [← String.append_assoc, ← String.append_assoc]
  exact congrArg (fun start => start ++ length ++ closing) String.ofList_append.symm

theorem paragraph_eq (written : List String) :
    paragraph written = written ++ if written.isEmpty then [] else [""] := by
  cases written <;> rfl

variable (t : TemplatePlan)

def functionsBefore : List String :=
  ["#ifndef " ++ Functions.templateGuard t, "#define " ++ Functions.templateGuard t] ++
    Functions.functionHead t ++ ["\x7b"]

def functionsAfter : List String :=
  ["\x7d", "#endif // " ++ Functions.templateGuard t, "", ""]

/-- The function of a template in its frame, as the renderer writes it. -/
theorem functions_templateLines_eq :
    Functions.templateLines t ++ [""] =
      framedLines .functions t.slots ("EventData[" ++ toString t.slotCount ++ "];")
        ("WriteEvent(Context, Descriptor, ActivityId, RelatedActivityId, " ++
          (toString t.slotCount ++ ", EventData);"))
        (functionsBefore t) [] [] (functionsAfter t) := by
  have hPass (rest : String) : "    return " ++
      ("WriteEvent(Context, Descriptor, ActivityId, RelatedActivityId, " ++ rest) =
        "    return WriteEvent(Context, Descriptor, ActivityId, RelatedActivityId, " ++ rest := by
    rw [← String.append_assoc]
    exact congrArg (fun start => start ++ rest) String.ofList_append.symm
  rw [framedLines_eq, arrayLine_eq, hPass]
  delta Functions.templateLines functionsBefore functionsAfter
  simp only [List.append_assoc, List.cons_append, List.nil_append]
  rfl

def macrosHead : List String :=
  [""] ++ Macros.functionHead t ++ ["\x7b"]

def macrosDefines : List String :=
  ["McTemplateU0" ++ t.key ++ "_def", argCount t ++ " " ++ toString (t.slotCount - 1)]

def macrosGuard : String :=
  "#ifndef " ++ ("McTemplateU0" ++ t.key) ++ "_def"

def macrosBefore : List String :=
  [macrosGuard t] ++ (macrosDefines t).map ("#define " ++ ·) ++ macrosHead t

/-- The blank line behind the calls, if there are any. -/
def macrosGap : List String :=
  if (Surface.macros.fillLines t.slots).isEmpty then [] else [""]

def macrosAfter : List String :=
  ["\x7d", "#endif // " ++ ("McTemplateU0" ++ t.key) ++ "_def", "", ""]

/-- The same in the other dialect, where macros are defined in front and a blank line stands before
the calls. -/
theorem macros_templateLines_eq :
    Macros.templateLines t ++ [""] =
      framedLines .macros t.slots ("EventData[" ++ argCount t ++ " + 1];")
        ("McGenEventWrite(Context, Descriptor, ActivityId, RelatedActivityId, " ++
          (argCount t ++ " + 1, EventData);"))
        (macrosBefore t) [""] (macrosGap t) (macrosAfter t) := by
  have hPass (rest : String) : "    return " ++
      ("McGenEventWrite(Context, Descriptor, ActivityId, RelatedActivityId, " ++ rest) =
        "    return McGenEventWrite(Context, Descriptor, ActivityId, RelatedActivityId, " ++
          rest := by
    rw [← String.append_assoc]
    exact congrArg (fun start => start ++ rest) String.ofList_append.symm
  have hDefines : (macrosDefines t).map ("#define " ++ ·) =
      ["#define " ++ ("McTemplateU0" ++ t.key) ++ "_def",
        "#define " ++ argCount t ++ " " ++ toString (t.slotCount - 1)] := by
    delta macrosDefines
    simp only [List.map_cons, List.map_nil, String.append_assoc]
  rw [framedLines_eq, arrayLine_eq, hPass, macrosBefore, hDefines]
  delta Macros.templateLines macrosAfter macrosHead macrosGap macrosGuard
  simp only [paragraph_eq, List.append_assoc, List.cons_append, List.nil_append]
  rfl

variable {t} (hKey : Quiet t.key)

include hKey

theorem quiet_functionsName : Quiet (Surface.functions.templateFunction t.key) := by
  change Quiet (if t.key.isEmpty then "WriteNoPayload" else "Template_" ++ t.key)
  split
  · exact .literal (by decide)
  · exact .append (.literal (by decide)) hKey

theorem quiet_templateGuard : Quiet (Functions.templateGuard t) :=
  .append (.append (.literal (by decide)) (quiet_functionsName hKey)) (.literal (by decide))

/-- The head of a function has nothing that could be taken for a line of the body. -/
theorem neutral_functionsHead : ∀ line ∈ Functions.functionHead t, Neutral bodyMarks line := by
  have hName : Neutral bodyMarks
      ("inline ULONG " ++ Surface.functions.templateFunction t.key ++ "(") :=
    Opens.neutral (.append (.append (.literal (by decide) (by decide)) (quiet_functionsName hKey))
      (.literal (by decide)))
  have hCommon : ∀ item ∈ Functions.commonParameters, Opens allMarks ("    " ++ item) := by
    simp only [Functions.commonParameters, List.forall_mem_cons, List.not_mem_nil, false_implies,
      implies_true, and_true]
    exact ⟨opens_literal (by decide) (by decide), opens_literal (by decide) (by decide),
      opens_literal (by decide) (by decide), opens_literal (by decide) (by decide)⟩
  have hClosing : Quiet (")" ++ " noexcept") :=
    .append (.literal (by decide)) (.literal (by decide))
  have hItems := neutral_itemLines hClosing (opens_parameters hCommon t.parameters)
  exact List.forall_mem_cons.mpr ⟨hName, fun line hLine => (hItems line hLine).mono (by decide)⟩

theorem neutral_functionsBefore : ∀ line ∈ functionsBefore t, Neutral bodyMarks line := by
  have hGuard := quiet_templateGuard hKey
  delta functionsBefore
  simp only [List.forall_mem_append, List.forall_mem_cons, List.not_mem_nil, false_implies,
    implies_true, and_true]
  refine ⟨⟨⟨?_, ?_⟩, neutral_functionsHead hKey⟩, ?_⟩
  · exact Opens.neutral (.append (.literal (by decide) (by decide)) hGuard)
  · exact Opens.neutral (.append (.literal (by decide) (by decide)) hGuard)
  · exact .literal (by decide) (by decide)

/-- With a quiet key, all lines around the slots keep out of their way. -/
theorem framed_functions :
    Framed ("EventData[" ++ toString t.slotCount ++ "];")
      ("WriteEvent(Context, Descriptor, ActivityId, RelatedActivityId, " ++
        (toString t.slotCount ++ ", EventData);"))
      (functionsBefore t) [] [] (functionsAfter t) where
  quiet_array :=
    .append (.append (.literal (by decide)) (plain_toString _).quiet) (.literal (by decide))
  quiet_pass :=
    .append (.literal (by decide)) (.append (plain_toString _).quiet (.literal (by decide)))
  neutral := by
    have hAfter : ∀ line ∈ functionsAfter t, Neutral bodyMarks line := by
      delta functionsAfter
      simp only [List.forall_mem_cons, List.not_mem_nil, false_implies, implies_true, and_true]
      exact ⟨.literal (by decide) (by decide),
        Opens.neutral (.append (.literal (by decide) (by decide)) (quiet_templateGuard hKey)),
        .literal (by decide) (by decide), .literal (by decide) (by decide)⟩
    rw [List.append_nil, List.append_nil, List.forall_mem_append]
    exact ⟨neutral_functionsBefore hKey, hAfter⟩

theorem quiet_macrosName : Quiet ("McTemplateU0" ++ t.key) :=
  .append (.literal (by decide)) hKey

theorem quiet_argCount : Quiet (argCount t) :=
  .append (quiet_macrosName hKey) (.literal (by decide))

theorem neutral_macrosHead : ∀ line ∈ macrosHead t, Neutral allMarks line := by
  have hName : Neutral allMarks ("McTemplateU0" ++ t.key ++ "(") :=
    Opens.neutral (.append (.append (.literal (by decide) (by decide)) hKey)
      (.literal (by decide)))
  have hCommon : ∀ item ∈ Macros.commonParameters, Opens allMarks ("    " ++ item) := by
    simp only [Macros.commonParameters, List.forall_mem_cons, List.not_mem_nil, false_implies,
      implies_true, and_true]
    exact ⟨opens_literal (by decide) (by decide), opens_literal (by decide) (by decide),
      opens_literal (by decide) (by decide), opens_literal (by decide) (by decide)⟩
  have hClosing : Quiet ")" := .literal (by decide)
  have hItems := neutral_itemLines hClosing (opens_parameters hCommon t.parameters)
  have hHead : ∀ line ∈ Macros.functionHead t, Neutral allMarks line :=
    List.forall_mem_cons.mpr ⟨.literal (by decide) (by decide),
      List.forall_mem_cons.mpr ⟨hName, hItems⟩⟩
  delta macrosHead
  simp only [List.forall_mem_append, List.forall_mem_singleton]
  exact ⟨⟨.literal (by decide) (by decide), hHead⟩, .literal (by decide) (by decide)⟩

theorem neutral_macrosDefines :
    ∀ line ∈ (macrosDefines t).map ("#define " ++ ·), Neutral bodyMarks line := by
  delta macrosDefines
  simp only [List.forall_mem_map, List.forall_mem_cons, List.not_mem_nil, false_implies,
    implies_true, and_true]
  have hCount := quiet_argCount hKey
  exact ⟨Opens.neutral (.append (.literal (by decide) (by decide))
      (.append (quiet_macrosName hKey) (.literal (by decide)))),
    Opens.neutral (.append (.literal (by decide) (by decide))
      (.append (.append hCount (.literal (by decide))) (plain_toString _).quiet))⟩

/-- The lines around the definitions of macros and the body. None of them defines a macro or fills a
slot. -/
theorem neutral_macrosOther :
    ∀ line ∈ [macrosGuard t] ++ macrosHead t ++ [""] ++ macrosGap t ++ macrosAfter t,
      Neutral allMarks line := by
  have hName := quiet_macrosName hKey
  have hBlank : Neutral allMarks "" := .literal (by decide) (by decide)
  have hGuard : Neutral allMarks (macrosGuard t) :=
    Opens.neutral (.append (.append (.literal (by decide) (by decide)) hName)
      (.literal (by decide)))
  have hGap : ∀ line ∈ macrosGap t, Neutral allMarks line := by
    unfold macrosGap
    split <;> simp [hBlank]
  have hAfter : ∀ line ∈ macrosAfter t, Neutral allMarks line := by
    delta macrosAfter
    simp only [List.forall_mem_cons, List.not_mem_nil, false_implies, implies_true, and_true]
    exact ⟨.literal (by decide) (by decide), Opens.neutral (.append (.append
      (.literal (by decide) (by decide)) hName) (.literal (by decide))), hBlank, hBlank⟩
  simp only [List.forall_mem_append, List.forall_mem_singleton]
  exact ⟨⟨⟨⟨hGuard, neutral_macrosHead hKey⟩, hBlank⟩, hGap⟩, hAfter⟩

/-- The same in the other dialect. It asks nothing else of the template. -/
theorem framed_macros :
    Framed ("EventData[" ++ argCount t ++ " + 1];")
      ("McGenEventWrite(Context, Descriptor, ActivityId, RelatedActivityId, " ++
        (argCount t ++ " + 1, EventData);"))
      (macrosBefore t) [""] (macrosGap t) (macrosAfter t) where
  quiet_array :=
    .append (.append (.literal (by decide)) (quiet_argCount hKey)) (.literal (by decide))
  quiet_pass :=
    .append (.literal (by decide)) (.append (quiet_argCount hKey) (.literal (by decide)))
  neutral := by
    have hDefines := neutral_macrosDefines hKey
    have hOther (line : String) (hLine : line ∈ [macrosGuard t] ++ macrosHead t ++ [""] ++
        macrosGap t ++ macrosAfter t) : Neutral bodyMarks line :=
      (neutral_macrosOther hKey line hLine).mono (by decide)
    unfold macrosBefore
    grind

/-- The macros that are defined are those that the template has, in their order. -/
theorem restsOf_macros_define :
    restsOf "#define " ((Macros.templateLines t ++ [""]).map String.toList) =
      (macrosDefines t).map String.toList := by
  have hFrame := framed_macros hKey
  have hOther (line : String) (hLine : line ∈ [macrosGuard t] ++ macrosHead t ++ [""] ++
      macrosGap t ++ macrosAfter t) : ¬ defineMark <+: line.toList :=
    (neutral_macrosOther hKey line hLine).unmarked defineMark (by decide)
  have hFill : ∀ line ∈ Surface.macros.fillLines t.slots, ¬ defineMark <+: line.toList :=
    unmarked_fillLines regular_macros t.slots (by decide)
  have hArray := hFrame.neutral_array.unmarked defineMark (by decide)
  have hPass := hFrame.neutral_pass.unmarked defineMark (by decide)
  rw [macros_templateLines_eq, framedLines, macrosBefore, List.append_assoc]
  refine restsOf_eq_rests defineMark (macrosDefines t) (by decide) ?_
  grind

/-- A text of such lines is read back line by line, with an empty line at its end. Line breaks are
all that is needed for this. -/
theorem lines_functions :
    Text.lines (Text.ofLines (Functions.templateLines t)) =
      (Functions.templateLines t ++ [""]).map String.toList := by
  refine Text.lines_ofLines_of_newline_not_mem fun line hLine => ?_
  have hFramed := List.mem_append_left [""] hLine
  rw [functions_templateLines_eq] at hFramed
  exact (framed_functions hKey).newline_not_mem regular_functions line hFramed

theorem lines_macros :
    Text.lines (Text.ofLines (Macros.templateLines t)) =
      (Macros.templateLines t ++ [""]).map String.toList := by
  refine Text.lines_ofLines_of_newline_not_mem fun line hLine => ?_
  have hFramed := List.mem_append_left [""] hLine
  rw [macros_templateLines_eq] at hFramed
  exact (framed_macros hKey).newline_not_mem regular_macros line hFramed

/-- Both dialects fill the same slots with the same expressions. Their names for the functions they
call are left to the dialects. -/
theorem sameFunction (hCount : t.slotCount = totalSlots t.slots) :
    SameFunction t (Text.lines (Text.ofLines (Functions.templateLines t)))
      (Text.lines (Text.ofLines (Macros.templateLines t))) := by
  have hFunctions := framed_functions hKey
  have hMacros := framed_macros hKey
  have hDefines := restsOf_macros_define hKey
  rw [macros_templateLines_eq] at hDefines
  rw [lines_functions hKey, lines_macros hKey, functions_templateLines_eq, macros_templateLines_eq]
  exact
    { functions_fill := hFunctions.fillsSlots regular_functions hCount
      functions_array := hFunctions.restsOf_array regular_functions
      functions_pass := hFunctions.restsOf_pass regular_functions
      macros_fill := hMacros.fillsSlots regular_macros hCount
      macros_count := hDefines
      macros_array := hMacros.restsOf_array regular_macros
      macros_pass := hMacros.restsOf_pass regular_macros
      descriptors := by
        rw [hFunctions.descriptorLines_eq regular_functions,
          hMacros.descriptorLines_eq regular_macros, substitute_fillLines] }

end Template

/-- What has a key can be planned under it, and both dialects write the function of the plan in the
same way: the same slots in the same order, of an array of the same length. -/
theorem sameFunction_of_keyOf {properties : List Property} {key : String}
    (hKey : Template.keyOf properties = .ok key) :
    ∃ t, TemplatePlan.ofProperties key properties = .ok t ∧ t.key = key ∧ 0 < t.slotCount ∧
      SameFunction t (Text.lines (Text.ofLines (Functions.templateLines t)))
        (Text.lines (Text.ofLines (Macros.templateLines t))) := by
  obtain ⟨transfers, hTransfers⟩ := Template.ofProperties_of_keyOf hKey
  refine ⟨.ofTransfers key transfers,
    TemplatePlan.ofProperties_eq_ok_iff.mpr ⟨transfers, hTransfers, rfl⟩, rfl, ?_,
    sameFunction (quiet_key hKey) rfl⟩
  exact Nat.add_pos_left Nat.one_pos _

/-- Properties that need each kind of expression: a number, a SID, a terminated text, bytes with a
length of their own, and a packed array. -/
def assortedProperties : List Property :=
  [.ofType "N" .uint32, .ofType "Owner" .sid, .ofType "Title" .unicodeString,
    .ofType "Bytes" .countedBinary, (Property.ofType "Tags" .ansiString).withCount (.ref "N")]

/-- Seven slots for five properties: one is reserved, and the bytes take two. The key tells all
five. -/
theorem sameFunction_assortedProperties :
    Template.keyOf assortedProperties = .ok "dkzeSR0" ∧
      ∃ t, TemplatePlan.ofProperties "dkzeSR0" assortedProperties = .ok t ∧ t.slotCount = 7 ∧
        SameFunction t (Text.lines (Text.ofLines (Functions.templateLines t)))
          (Text.lines (Text.ofLines (Macros.templateLines t))) := by
  have hKey : Template.keyOf assortedProperties = .ok "dkzeSR0" := by rfl
  obtain ⟨t, hPlan, _, _, hSame⟩ := sameFunction_of_keyOf hKey
  have hCount : (TemplatePlan.ofProperties "dkzeSR0" assortedProperties).map
      TemplatePlan.slotCount = .ok 7 := by
    rfl
  rw [hPlan] at hCount
  exact ⟨hKey, t, hPlan, Except.ok.inj hCount, hSame⟩

end EventManifest.Header
