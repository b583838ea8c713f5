import EventManifest.Proofs.Header.Expressions
import EventManifest.Proofs.Text.Lines

/-!
The lines that fill the slots of an array, among the other lines of a function. Lines are told apart
by what they begin with and by whether they hold a call. The lines of one dialect turn into those of
the other line by line.
-/

namespace EventManifest.Header

/-- What stands behind a beginning, in the lines that begin so. -/
def restsOf (start : String) (lines : List (List Char)) : List (List Char) :=
  lines.filterMap fun line => line.dropPrefix? start.toList

/-- The calls that fill slots, each from its parenthesis to the end of its line. -/
def slotCalls (lines : List (List Char)) : List (List Char) :=
  lines.flatMap (Text.behind fillCall)

/-- Comments and calls. -/
def isDescriptorLine (line : List Char) : Bool :=
  "    // ".toList.isPrefixOf line || !(Text.behind fillCall line).isEmpty

/-- The lines that fill slots, with their comments. -/
def descriptorLines (lines : List (List Char)) : List (List Char) :=
  lines.filter isDescriptorLine

/-- Exactly the slots behind the first one are filled, once each and in order. -/
def FillsSlots (count : Nat) (lines : List (List Char)) : Prop :=
  List.Forall₂ (fun index call => ("(&EventData[" ++ toString index ++ "], ").toList <+: call)
    (List.range' 1 (count - 1)) (slotCalls lines)

section Lines

-- How the lines with a meaning of their own begin, as far as it tells them from other lines.

def noteMark : List Char := [' ', ' ', ' ', ' ', '/']

def arrayMark : List Char := [' ', ' ', ' ', ' ', 'E', 'V']

def passMark : List Char := [' ', ' ', ' ', ' ', 'r']

def defineMark : List Char := ['#', 'd']

def bodyMarks : List (List Char) := [noteMark, arrayMark, passMark]

def allMarks : List (List Char) := [noteMark, arrayMark, passMark, defineMark]

/-- The piece settles that a line which begins with it does not begin with a mark. -/
def Apart (marks : List (List Char)) (piece : String) : Prop :=
  ∀ mark ∈ marks, ¬ mark <+: piece.toList ∧ ¬ piece.toList <+: mark

/-- A line that fills no slot and begins with none of the marks. -/
structure Neutral (marks : List (List Char)) (line : String) : Prop where
  quiet : Quiet line
  unmarked : ∀ mark ∈ marks, ¬ mark <+: line.toList

/-- The beginning of a neutral line. -/
structure Opens (marks : List (List Char)) (piece : String) : Prop where
  quiet : Quiet piece
  apart : Apart marks piece

variable {marks : List (List Char)}

theorem Apart.literal {letters : List Char}
    (h : ∀ mark ∈ marks, ¬ mark <+: letters ∧ ¬ letters <+: mark) :
    Apart marks (String.ofList letters) := by
  rw [Apart, String.toList_ofList]
  exact h

/-- Once a beginning is apart from the marks, nothing behind it matters. -/
theorem Apart.append {a : String} (h : Apart marks a) (b : String) : Apart marks (a ++ b) := by
  intro mark hMark
  obtain ⟨hIn, hOut⟩ := h mark hMark
  have hPrefix : a.toList <+: (a ++ b).toList := by
    rw [String.toList_append]
    exact List.prefix_append _ _
  refine ⟨fun hMarked => ?_, fun hMarked => hOut (hPrefix.trans hMarked)⟩
  rcases List.prefix_or_prefix_of_prefix hMarked hPrefix with hIn' | hOut'
  · exact hIn hIn'
  · exact hOut hOut'

/-- A fixed beginning is gone through letter by letter. It must neither begin with a mark nor be the
beginning of one. -/
theorem Opens.literal {letters : List Char}
    (hQuiet : ∀ word ∈ quietWords, Text.isInert word letters = true)
    (hApart : ∀ mark ∈ marks, ¬ mark <+: letters ∧ ¬ letters <+: mark) :
    Opens marks (String.ofList letters) :=
  ⟨.literal hQuiet, .literal hApart⟩

/-- A neutral line may go on with anything quiet. -/
theorem Opens.append {a b : String} (ha : Opens marks a) (hb : Quiet b) : Opens marks (a ++ b) :=
  ⟨ha.quiet.append hb, ha.apart.append b⟩

theorem Opens.neutral {line : String} (h : Opens marks line) : Neutral marks line :=
  ⟨h.quiet, fun mark hMark => (h.apart mark hMark).1⟩

theorem Neutral.literal {letters : List Char}
    (hQuiet : ∀ word ∈ quietWords, Text.isInert word letters = true)
    (hMarks : ∀ mark ∈ marks, ¬ mark <+: letters) : Neutral marks (String.ofList letters) := by
  refine ⟨.literal hQuiet, ?_⟩
  rw [String.toList_ofList]
  exact hMarks

theorem Neutral.mono {fewer : List (List Char)} {line : String} (h : Neutral marks line)
    (hFewer : fewer ⊆ marks) : Neutral fewer line :=
  ⟨h.quiet, fun mark hMark => h.unmarked mark (hFewer hMark)⟩

/-- A comment is told by its beginning, and a call by the function that it calls. -/
theorem isDescriptorLine_iff {line : List Char} :
    isDescriptorLine line ↔
      [' ', ' ', ' ', ' ', '/', '/', ' '] <+: line ∨ Text.behind fillCall line ≠ [] := by
  have hLetters : "    // ".toList = [' ', ' ', ' ', ' ', '/', '/', ' '] := String.toList_ofList
  simp [isDescriptorLine, hLetters]

/-- All readers go line by line, so that lines can be read in parts. -/
theorem restsOf_append (start : String) (as bs : List (List Char)) :
    restsOf start (as ++ bs) = restsOf start as ++ restsOf start bs :=
  List.filterMap_append

theorem slotCalls_append (as bs : List (List Char)) :
    slotCalls (as ++ bs) = slotCalls as ++ slotCalls bs :=
  List.flatMap_append

theorem descriptorLines_append (as bs : List (List Char)) :
    descriptorLines (as ++ bs) = descriptorLines as ++ descriptorLines bs :=
  List.filter_append _ _

variable {written : List String}

/-- Nothing is found among lines that do not begin with the mark. -/
theorem restsOf_eq_nil {letters mark : List Char} (hLetters : mark <+: letters)
    (hMark : ∀ line ∈ written, ¬ mark <+: line.toList) :
    restsOf (String.ofList letters) (written.map String.toList) = [] := by
  rw [restsOf, String.toList_ofList, List.filterMap_eq_nil_iff]
  simp only [List.forall_mem_map]
  exact fun line hLine => Text.dropPrefix?_eq_none fun hStart =>
    hMark line hLine (hLetters.trans hStart)

/-- Quiet lines fill no slots. -/
theorem slotCalls_eq_nil (hQuiet : ∀ line ∈ written, Quiet line) :
    slotCalls (written.map String.toList) = [] := by
  rw [slotCalls, List.flatMap_eq_nil_iff]
  simp only [List.forall_mem_map]
  exact fun line hLine => (hQuiet line hLine).behind_eq_nil

/-- Lines that are neutral to comments are neither comments nor calls. -/
theorem descriptorLines_eq_nil (hWritten : ∀ line ∈ written, Neutral marks line)
    (hNotes : noteMark ∈ marks) :
    descriptorLines (written.map String.toList) = [] := by
  rw [descriptorLines, List.filter_eq_nil_iff]
  simp only [List.forall_mem_map]
  intro line hLine hKept
  rcases isDescriptorLine_iff.mp hKept with hNote | hCall
  · exact (hWritten line hLine).unmarked _ hNotes (List.IsPrefix.trans (by decide) hNote)
  · exact hCall (hWritten line hLine).quiet.behind_eq_nil

end Lines

section Fill

/-- A call from its parenthesis on. -/
def slotCall (s : Surface) (index : Nat) (slot : Slot) : String :=
  "(&EventData[" ++ toString index ++ "], " ++ (s.pointer .positional slot.pointer ++ ", ") ++
    (s.size .positional slot.size ++ ");")

/-- A line with a call up to the parenthesis. -/
def callHead (s : Surface) : String :=
  "    " ++ (s.systemScope ++ "EventDataDescCreate")

/-- What is used of a dialect's spelling. -/
structure Regular (s : Surface) : Prop where
  null : Quiet s.null
  scope : Quiet s.systemScope
  head : Apart [arrayMark, passMark, defineMark] (callHead s)

/-- The only place, with the next lemma, where the spelling of a dialect is looked at. -/
theorem regular_functions : Regular .functions where
  null := .literal (by decide)
  scope := .literal (by decide)
  head := (Apart.literal (by decide) : Apart _ "    ::EventDataDescCreate")

theorem regular_macros : Regular .macros where
  null := .literal (by decide)
  scope := .literal (by decide)
  head := (Apart.literal (by decide) : Apart _ "    EventDataDescCreate")

/-- A slot takes one line for its call, and one before it for a note if it has one. -/
theorem slotLines_eq (s : Surface) (index : Nat) (slot : Slot) :
    s.slotLines index slot =
      (slot.note.map fun note => "    // " ++ note.text .positional).toList ++
        [callHead s ++ slotCall s index slot] := by
  have hCall : "EventDataDescCreate(&EventData[" = "EventDataDescCreate" ++ "(&EventData[" := by
    decide
  unfold Surface.slotLines
  congr 2
  change "    " ++ s.systemScope ++
      ("EventDataDescCreate(&EventData[" ++ toString index ++ "], ") ++ _ ++ ", " ++ _ ++ ");" =
    "    " ++ (s.systemScope ++ "EventDataDescCreate") ++
      ("(&EventData[" ++ toString index ++ "], " ++ (_ ++ ", ") ++ (_ ++ ");"))
  simp only [hCall, String.append_assoc]

variable {s : Surface} (hs : Regular s)

include hs

/-- The arguments of a call contain no further call. -/
theorem quiet_slotCall (index : Nat) (slot : Slot) : Quiet (slotCall s index slot) := by
  have hIndex : Quiet ("(&EventData[" ++ toString index ++ "], ") :=
    .append (.append (.literal (by decide)) (plain_toString index).quiet) (.literal (by decide))
  have hPointer : Quiet (s.pointer .positional slot.pointer ++ ", ") :=
    .append (quiet_pointer hs.null slot.pointer) (.literal (by decide))
  have hSize : Quiet (s.size .positional slot.size ++ ");") :=
    .append (quiet_size hs.null slot.size) (.literal (by decide))
  exact .append (.append hIndex hPointer) hSize

/-- A call stands in its line once. Hence calls can be counted by lines. -/
theorem behind_callLine (index : Nat) (slot : Slot) :
    Text.behind fillCall (callHead s ++ slotCall s index slot).toList =
      [(slotCall s index slot).toList] := by
  have hHead : Quiet ("    " ++ s.systemScope) := .append (.literal (by decide)) hs.scope
  have hText : (callHead s ++ slotCall s index slot).toList =
      ("    " ++ s.systemScope).toList ++ (fillCall ++ (slotCall s index slot).toList) := by
    change ("    " ++ (s.systemScope ++ "EventDataDescCreate") ++ slotCall s index slot).toList = _
    rw [← String.append_assoc, String.append_assoc, String.toList_append]
    exact congrArg _ String.toList_append
  have hOnce : Text.isInert fillLetters fillLetters.tail := by decide
  have hRest := (quiet_slotCall hs index slot).behind_eq_nil
  rw [hText, hHead.behind_append, fillCall_eq]
  rw [fillCall_eq] at hRest
  exact (Text.behind_word_append hOnce _).trans (congrArg _ hRest)

theorem newline_not_mem_callLine (index : Nat) (slot : Slot) :
    '\n' ∉ (callHead s ++ slotCall s index slot).toList := by
  rw [String.toList_append]
  refine List.not_mem_append ?_ (quiet_slotCall hs index slot).newline_not_mem
  change '\n' ∉ ("    " ++ (s.systemScope ++ "EventDataDescCreate")).toList
  rw [String.toList_append, String.toList_append]
  refine List.not_mem_append (by decide) (List.not_mem_append hs.scope.newline_not_mem (by decide))

omit hs in
theorem neutral_note (note : PackingNote) :
    Neutral [arrayMark, passMark, defineMark] ("    // " ++ note.text .positional) :=
  Opens.neutral (.append (.literal (by decide) (by decide)) (quiet_note note))

omit hs in
/-- A property of the comments and calls of one slot. There are no other lines. -/
theorem forall_mem_slotLines {P : String → Prop} {index : Nat} {slot : Slot}
    (hNote : ∀ note : PackingNote, P ("    // " ++ note.text .positional))
    (hCall : P (callHead s ++ slotCall s index slot)) :
    ∀ line ∈ s.slotLines index slot, P line := by
  rw [slotLines_eq]
  intro line hLine
  rcases List.mem_append.mp hLine with hLine | hLine
  · obtain ⟨note, _, rfl⟩ := Option.map_eq_some_iff.mp (Option.mem_toList.mp hLine)
    exact hNote note
  · rw [List.mem_singleton.mp hLine]
    exact hCall

/-- A slot has one call, whether it has a note or not. -/
theorem slotCalls_slotLines (index : Nat) (slot : Slot) :
    slotCalls ((s.slotLines index slot).map String.toList) =
      [(slotCall s index slot).toList] := by
  have hNotes : slotCalls ((slot.note.map fun note =>
      "    // " ++ note.text .positional).toList.map String.toList) = [] := by
    refine slotCalls_eq_nil fun line hLine => ?_
    obtain ⟨note, _, rfl⟩ := Option.map_eq_some_iff.mp (Option.mem_toList.mp hLine)
    exact (neutral_note note).quiet
  rw [slotLines_eq, List.map_append, slotCalls_append, hNotes, List.nil_append]
  exact (List.flatMap_singleton _ _).trans (behind_callLine hs index slot)

omit hs in
/-- The slots are numbered from one on, in their order. -/
theorem fillLines_eq (slots : List Slot) :
    s.fillLines slots = slots.zipIdx.flatMap fun x => s.slotLines (x.2 + 1) x.1 :=
  rfl

omit hs in
/-- The same for all slots of a template. -/
theorem forall_mem_fillLines {P : String → Prop} {slots : List Slot}
    (hNote : ∀ note : PackingNote, P ("    // " ++ note.text .positional))
    (hCall : ∀ index slot, P (callHead s ++ slotCall s index slot)) :
    ∀ line ∈ s.fillLines slots, P line := by
  rw [fillLines_eq]
  intro line hLine
  obtain ⟨x, _, hLine⟩ := List.mem_flatMap.mp hLine
  exact forall_mem_slotLines hNote (hCall _ _) line hLine

theorem newline_not_mem_fillLines (slots : List Slot) :
    ∀ line ∈ s.fillLines slots, '\n' ∉ line.toList :=
  forall_mem_fillLines (fun note => (neutral_note note).quiet.newline_not_mem)
    (newline_not_mem_callLine hs)

/-- The lines of slots are not taken for the declaration of the array, its use, or a macro. -/
theorem unmarked_fillLines (slots : List Slot) {mark : List Char}
    (hMark : mark ∈ [arrayMark, passMark, defineMark]) :
    ∀ line ∈ s.fillLines slots, ¬ mark <+: line.toList :=
  forall_mem_fillLines (fun note => (neutral_note note).unmarked mark hMark)
    fun index slot => ((hs.head.append (slotCall s index slot)) mark hMark).1

/-- The calls of all slots, in the order of the slots. -/
theorem slotCalls_fillLines (slots : List Slot) :
    slotCalls ((s.fillLines slots).map String.toList) =
      slots.zipIdx.map fun x => (slotCall s (x.2 + 1) x.1).toList := by
  have hSlot (x : Slot × Nat) :
      ((s.slotLines (x.2 + 1) x.1).map String.toList).flatMap (Text.behind fillCall) =
        [(slotCall s (x.2 + 1) x.1).toList] :=
    slotCalls_slotLines hs (x.2 + 1) x.1
  rw [fillLines_eq, slotCalls, List.map_flatMap, List.flatMap_assoc, List.map_eq_flatMap]
  simp only [hSlot]

omit hs in
/-- A call names the slot that it fills first. -/
theorem isPrefix_slotCall (index : Nat) (slot : Slot) :
    ("(&EventData[" ++ toString index ++ "], ").toList <+: (slotCall s index slot).toList := by
  have hText : (slotCall s index slot).toList =
      ("(&EventData[" ++ toString index ++ "], ").toList ++
        ((s.pointer .positional slot.pointer ++ ", ").toList ++
          (s.size .positional slot.size ++ ");").toList) := by
    rw [← String.toList_append, ← String.toList_append, ← String.append_assoc]
    rfl
  rw [hText]
  exact List.prefix_append _ _

omit hs in
/-- The calls of a template, one for each slot behind the first. The index grows with the place, so
no slot is filled twice. -/
theorem forall₂_slotCall (slots : List Slot) (first : Nat) :
    List.Forall₂ (fun index call => ("(&EventData[" ++ toString index ++ "], ").toList <+: call)
      (List.range' (first + 1) slots.length)
      ((slots.zipIdx first).map fun x => (slotCall s (x.2 + 1) x.1).toList) := by
  induction slots generalizing first with
  | nil => exact .nil
  | cons slot slots ih =>
    exact .cons (isPrefix_slotCall (first + 1) slot) (ih (first + 1))

/-- All of these lines are comments or calls. -/
theorem descriptorLines_fillLines (slots : List Slot) :
    descriptorLines ((s.fillLines slots).map String.toList) =
      (s.fillLines slots).map String.toList := by
  rw [descriptorLines, List.filter_eq_self]
  simp only [List.forall_mem_map]
  refine forall_mem_fillLines (fun note => ?_) fun index slot => ?_
  · refine isDescriptorLine_iff.mpr (.inl ?_)
    rw [String.toList_append, ← String.toList_ofList (l := [' ', ' ', ' ', ' ', '/', '/', ' '])]
    exact List.prefix_append _ _
  · refine isDescriptorLine_iff.mpr (.inr ?_)
    rw [behind_callLine hs]
    exact List.cons_ne_nil _ _

end Fill

section Substitution

/-- The call of one dialect turns into that of the other by replacing words. -/
theorem becomes_callLine (index : Nat) (slot : Slot) :
    Becomes (callHead .functions ++ slotCall .functions index slot)
      (callHead .macros ++ slotCall .macros index slot) := by
  have hBlank : Plain "    " := .literal (by decide)
  have hFunctions : Surface.functions.systemScope ++ "EventDataDescCreate" =
      "::EventDataDescCreate" := String.ofList_append.symm
  have hMacros : Surface.macros.systemScope ++ "EventDataDescCreate" = "EventDataDescCreate" :=
    String.empty_append
  have hCall : Becomes (Surface.functions.systemScope ++ "EventDataDescCreate")
      (Surface.macros.systemScope ++ "EventDataDescCreate") := by
    rw [hFunctions, hMacros]
    exact .literal (by decide)
  have hIndex : Plain ("(&EventData[" ++ toString index ++ "], ") :=
    .append (.append (.literal (by decide)) (plain_toString index)) (.literal (by decide))
  exact .append (.append hBlank.becomes hCall)
    (.append (.append hIndex.becomes (becomes_pointer slot.pointer)) (becomes_size slot.size))

/-- Notes are the same in both dialects, and contain no word to be replaced. -/
theorem substitute_note (note : PackingNote) :
    Text.substitute dialectRules ("    // " ++ note.text .positional).toList =
      ("    // " ++ note.text .positional).toList := by
  refine substitute_of_plain ?_
  rw [String.append_assoc]
  exact .append (.literal (by decide)) (plain_note note)

theorem substitute_slotLines (index : Nat) (slot : Slot) :
    (Surface.functions.slotLines index slot).map (Text.substitute dialectRules ∘ String.toList) =
      (Surface.macros.slotLines index slot).map String.toList := by
  have hCall : Text.substitute dialectRules
        (callHead .functions ++ slotCall .functions index slot).toList =
      (callHead .macros ++ slotCall .macros index slot).toList :=
    (becomes_callLine index slot).substitute_eq
  rw [slotLines_eq, slotLines_eq]
  cases slot.note with
  | none => simp only [Option.map_none, Option.toList_none, List.nil_append, List.map_cons,
      List.map_nil, Function.comp_apply, hCall]
  | some note => simp only [Option.map_some, Option.toList_some, List.singleton_append,
      List.map_cons, List.map_nil, Function.comp_apply, hCall, substitute_note]

/-- Hence all lines about slots turn into those of the other dialect. Lines around them are not
claimed to do so. -/
theorem substitute_fillLines (slots : List Slot) :
    ((Surface.functions.fillLines slots).map String.toList).map (Text.substitute dialectRules) =
      (Surface.macros.fillLines slots).map String.toList := by
  rw [List.map_map, fillLines_eq, fillLines_eq, List.map_flatMap, List.map_flatMap]
  exact List.flatMap_congr fun x _ => substitute_slotLines (x.2 + 1) x.1

end Substitution

end EventManifest.Header
