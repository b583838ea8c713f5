import EventManifest.Header.Surface
import EventManifest.Proofs.Symbol.Identifier
import EventManifest.Proofs.Text.Occurrence
import EventManifest.Proofs.Text.Slice

/-!
Readers for single lines of a header. They know the marks of the language (commas, parentheses, what
a line begins and ends with) and nothing of the functions that write lines. Each is shown to give
back what was written, for the items that can be told apart by those marks. No reader is claimed to
accept every line that a compiler would.
-/

namespace EventManifest.Header

theorem ne_of_isWordChar {c d : Char} (hc : isWordChar c = true) (hd : isWordChar d = false) :
    c ≠ d := by
  rintro rfl
  cases hc.symm.trans hd

/-- The text of a line between its beginning and its end, if they are as given. -/
def between? (start stop line : String) : Option String :=
  (line.toList.dropPrefix? start.toList).bind fun rest =>
    (rest.dropSuffix? stop.toList).map String.ofList

/-- What stands between a beginning and an end is read back, whatever it is. It may contain both of
them again. -/
theorem between?_append (start text stop : String) :
    between? start stop (start ++ text ++ stop) = some text := by
  have hLine : (start ++ text ++ stop).toList = start.toList ++ (text.toList ++ stop.toList) := by
    simp
  have hStart : (start.toList ++ (text.toList ++ stop.toList)).dropPrefix? start.toList =
      some (text.toList ++ stop.toList) :=
    List.dropPrefix?_eq_some_iff.mpr ⟨start.toList, rfl, beq_self_eq_true _⟩
  have hStop : (text.toList ++ stop.toList).dropSuffix? stop.toList = some text.toList :=
    List.dropSuffix?_eq_some_iff.mpr ⟨stop.toList, rfl, beq_self_eq_true _⟩
  rw [between?, hLine, hStart, Option.bind_some, hStop, Option.map_some, String.ofList_toList]

theorem between?_eq_none {start line : String} (h : ¬ start.toList <+: line.toList)
    (stop : String) : between? start stop line = none := by
  rw [between?, Text.dropPrefix?_eq_none h]
  rfl

/-- The word behind the beginning of a line, if the line begins as given. -/
def wordBehind? (start line : String) : Option String :=
  (line.toList.dropPrefix? start.toList).map fun rest => String.ofList (rest.takeWhile isWordChar)

/-- A word is read back, if something else follows it. The end of the line will do. -/
theorem wordBehind?_append (start : String) {word rest : String} (hWord : isWord word = true)
    (hRest : ∀ c ∈ rest.toList.head?, isWordChar c = false) :
    wordBehind? start (start ++ word ++ rest) = some word := by
  have hLine : (start ++ word ++ rest).toList = start.toList ++ (word.toList ++ rest.toList) := by
    simp
  have hStart : (start.toList ++ (word.toList ++ rest.toList)).dropPrefix? start.toList =
      some (word.toList ++ rest.toList) :=
    List.dropPrefix?_eq_some_iff.mpr ⟨start.toList, rfl, beq_self_eq_true _⟩
  obtain ⟨hTake, _⟩ := Text.takeWhile_and_dropWhile_append (isWord_iff.mp hWord) hRest
  rw [wordBehind?, hLine, hStart, Option.map_some, hTake, String.ofList_toList]

section Commas

/-- The items of a list with commas between them. Blanks do not count. -/
def commaItems (text : List Char) : List String :=
  ((text.filter (· ≠ ' ')).splitOn ',').map String.ofList

theorem toList_commaList_cons (item next : String) (items : List String) :
    (commaList (item :: next :: items)).toList =
      item.toList ++ ',' :: ' ' :: (commaList (next :: items)).toList := by
  rw [commaList, String.intercalate_cons_cons, String.toList_append, String.toList_append,
    List.append_assoc]
  rfl

/-- A list of items holds their characters, commas and blanks. So what none of the items has is not
in the list either. -/
theorem exists_of_mem_commaList {items : List String} {c : Char}
    (hc : c ∈ (commaList items).toList) :
    (∃ item ∈ items, c ∈ item.toList) ∨ c = ',' ∨ c = ' ' := by
  induction items with
  | nil => simp [commaList] at hc
  | cons item items ih =>
      cases items with
      | nil => exact .inl ⟨item, List.mem_singleton_self _, by simpa [commaList] using hc⟩
      | cons next items =>
          rw [toList_commaList_cons, List.mem_append, List.mem_cons, List.mem_cons] at hc
          rcases hc with hc | hc | hc | hc
          · exact .inl ⟨item, List.mem_cons_self, hc⟩
          · exact .inr (.inl hc)
          · exact .inr (.inr hc)
          · rcases ih hc with ⟨other, hOther, hc⟩ | hc
            · exact .inl ⟨other, List.mem_cons_of_mem _ hOther, hc⟩
            · exact .inr hc

/-- Without blanks a list is its items with commas between them. Items must have no blanks of their
own. -/
theorem filter_commaList {items : List String} (hItems : ∀ item ∈ items, ' ' ∉ item.toList) :
    (commaList items).toList.filter (· ≠ ' ') = [','].intercalate (items.map String.toList) := by
  have hSolid {item : String} (hItem : ' ' ∉ item.toList) :
      item.toList.filter (· ≠ ' ') = item.toList := by
    refine List.filter_eq_self.mpr fun c hc => decide_eq_true ?_
    rintro rfl
    exact hItem hc
  induction items with
  | nil => simp [commaList]
  | cons item items ih =>
      rw [List.forall_mem_cons] at hItems
      cases items with
      | nil => simpa [commaList] using hSolid hItems.1
      | cons next items =>
          rw [toList_commaList_cons, List.filter_append, hSolid hItems.1, List.map_cons,
            List.map_cons, List.intercalate_cons_cons, ← List.map_cons, ← ih hItems.2]
          simp

/-- Items are read back, if they hold no blanks and no commas. There has to be one: no item and one
empty item are written alike. -/
theorem commaItems_commaList {items : List String}
    (hItems : ∀ item ∈ items, ' ' ∉ item.toList ∧ ',' ∉ item.toList) (hSome : items ≠ []) :
    commaItems (commaList items).toList = items := by
  have hCommas : ∀ field ∈ items.map String.toList, ',' ∉ field := by
    intro field hField
    obtain ⟨item, hItem, rfl⟩ := List.mem_map.mp hField
    exact (hItems item hItem).2
  rw [commaItems, filter_commaList fun item hItem => (hItems item hItem).1,
    List.splitOn_intercalate _ hCommas (by simpa using hSome), List.map_map]
  simp [Function.comp_def]

end Commas

/-- A call of a function. -/
structure Call where
  function : String
  arguments : List String
deriving DecidableEq, Repr

/-- A text that can stand as an argument: nothing in it ends an argument or begins a call. -/
def IsArgument (item : String) : Prop :=
  ' ' ∉ item.toList ∧ ',' ∉ item.toList ∧ '(' ∉ item.toList

instance : DecidablePred IsArgument :=
  fun item =>
    inferInstanceAs (Decidable (' ' ∉ item.toList ∧ ',' ∉ item.toList ∧ '(' ∉ item.toList))

/-- Words can be arguments. Expressions may have other characters, but no blank, comma or opening
parenthesis. -/
theorem isArgument_of_isWord {item : String} (h : isWord item = true) : IsArgument item := by
  have hWord {d : Char} (hd : isWordChar d = false) : d ∉ item.toList := fun hMem =>
    ne_of_isWordChar (isWord_iff.mp h d hMem) hd rfl
  exact ⟨hWord (by decide), hWord (by decide), hWord (by decide)⟩

theorem IsArgument.append {a b : String} (ha : IsArgument a) (hb : IsArgument b) :
    IsArgument (a ++ b) := by
  simp only [IsArgument, String.toList_append, List.mem_append, not_or]
  exact ⟨⟨ha.1, hb.1⟩, ⟨ha.2.1, hb.2.1⟩, ha.2.2, hb.2.2⟩

/-- The call in a text that ends in front of the closing parenthesis. The arguments begin behind the
last parenthesis that is opened, so that a function may have any name. -/
def Call.ofText (text : String) : Call :=
  let back := text.toList.reverse
  ⟨String.ofList (back.dropWhile (· ≠ '(')).tail.reverse,
    commaItems (back.takeWhile (· ≠ '(')).reverse⟩

/-- A call is read back, if there is an argument. Nothing is asked of the function's name, which may
have a scope in front. -/
theorem Call.ofText_append (function : String) {items : List String} (hSome : items ≠ [])
    (hItems : ∀ item ∈ items, IsArgument item) :
    Call.ofText (function ++ "(" ++ commaList items) = ⟨function, items⟩ := by
  have hOpen : '(' ∉ (commaList items).toList.reverse := by
    intro hMem
    rcases exists_of_mem_commaList (List.mem_reverse.mp hMem) with ⟨item, hItem, hc⟩ | hc | hc
    · exact (hItems item hItem).2.2 hc
    · exact absurd hc (by decide)
    · exact absurd hc (by decide)
  have hBack : (function ++ "(" ++ commaList items).toList.reverse =
      (commaList items).toList.reverse ++ '(' :: function.toList.reverse := by
    simp
  obtain ⟨hTake, hDrop⟩ := Text.takeWhile_and_tail_dropWhile hOpen function.toList.reverse
  have hRead := commaItems_commaList
    (fun item hItem => ⟨(hItems item hItem).1, (hItems item hItem).2.1⟩) hSome
  simp only [Call.ofText, hBack, hTake, hDrop, List.reverse_reverse, String.ofList_toList, hRead]

end EventManifest.Header
