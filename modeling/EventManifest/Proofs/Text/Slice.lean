/-!
Parts of a text, cut out at byte offsets. There is no part where an offset lies behind the end of
the text or inside a character, so that a cut which is shown to give a text is shown to be safe.
Characters can also be cut where a run of one kind ends.
-/

namespace EventManifest.Text

/-- What stands before a byte offset. -/
def before? (text : String) (offset : Nat) : Option String :=
  if h : String.Pos.Raw.IsValid text ⟨offset⟩ then some (text.sliceTo ⟨⟨offset⟩, h⟩).copy
  else none

/-- What stands behind a byte offset. -/
def behind? (text : String) (offset : Nat) : Option String :=
  if h : String.Pos.Raw.IsValid text ⟨offset⟩ then some (text.sliceFrom ⟨⟨offset⟩, h⟩).copy
  else none

/-- What stands between two byte offsets, the first of which is not behind the second. -/
def slice? (text : String) (start stop : Nat) : Option String :=
  (before? text stop).bind (behind? · start)

/-- A text can be cut where one part of it ends. Between the bytes of a character it cannot. -/
theorem isValid_append (a b : String) : String.Pos.Raw.IsValid (a ++ b) ⟨a.utf8ByteSize⟩ :=
  String.Pos.Raw.isValid_iff_exists_append.mpr ⟨a, b, rfl, rfl⟩

/-- The two parts of such a cut are the parts of the text. No part can be found in another way. -/
theorem splits_append (a b : String) :
    (⟨⟨a.utf8ByteSize⟩, isValid_append a b⟩ : (a ++ b).Pos).Splits a b :=
  ⟨rfl, rfl⟩

@[simp] theorem before?_append (a b : String) : before? (a ++ b) a.utf8ByteSize = some a := by
  rw [before?, dif_pos (isValid_append a b)]
  exact congrArg some ((String.Pos.splits _).eq_left (splits_append a b))

@[simp] theorem behind?_append (a b : String) : behind? (a ++ b) a.utf8ByteSize = some b := by
  rw [behind?, dif_pos (isValid_append a b)]
  exact congrArg some ((String.Pos.splits _).eq_right (splits_append a b))

-- The first character takes two bytes.
example : before? "Öl" 1 = none := by decide

/-- A beginning is cut off by its size in bytes. -/
theorem before?_of_isPrefix {a text : String} (h : a.toList <+: text.toList) :
    before? text a.utf8ByteSize = some a := by
  obtain ⟨rest, hRest⟩ := h
  obtain rfl : text = a ++ String.ofList rest := by
    rw [← String.toList_inj, String.toList_append, String.toList_ofList, hRest]
  exact before?_append a _

/-- What stands between two other parts is cut out by two sizes. -/
theorem slice?_append (a b c : String) :
    slice? (a ++ b ++ c) a.utf8ByteSize (a ++ b).utf8ByteSize = some b := by
  rw [slice?, before?_append, Option.bind_some, behind?_append]

theorem utf8ByteSize_ofList_cons (c : Char) (cs : List Char) :
    (String.ofList (c :: cs)).utf8ByteSize = c.utf8Size + (String.ofList cs).utf8ByteSize := by
  rw [← List.singleton_append, String.ofList_append, String.utf8ByteSize_append,
    ← String.singleton_eq_ofList, String.utf8ByteSize_singleton]

/-- Characters of one byte each are as many as their bytes. So places and offsets agree for them. -/
theorem utf8ByteSize_ofList_of_forall {cs : List Char} (h : ∀ c ∈ cs, c.utf8Size = 1) :
    (String.ofList cs).utf8ByteSize = cs.length := by
  induction cs with
  | nil => rfl
  | cons c cs ih =>
      rw [utf8ByteSize_ofList_cons, h c List.mem_cons_self,
        ih fun d hd => h d (List.mem_cons_of_mem c hd), List.length_cons, Nat.add_comm]

/-- Such characters are cut by their places, and every cut is possible. -/
theorem slice?_of_forall {cs : List Char} (h : ∀ c ∈ cs, c.utf8Size = 1) {i j : Nat} (hi : i ≤ j)
    (hj : j ≤ cs.length) :
    slice? (String.ofList cs) i j = some (String.ofList ((cs.take j).drop i)) := by
  have hBefore : (cs.take j).take i ++ (cs.take j).drop i = cs.take j := List.take_append_drop _ _
  have hText : String.ofList ((cs.take j).take i) ++ String.ofList ((cs.take j).drop i) ++
      String.ofList (cs.drop j) = String.ofList cs := by
    rw [← String.ofList_append, ← String.ofList_append, hBefore, List.take_append_drop]
  have hStart : (String.ofList ((cs.take j).take i)).utf8ByteSize = i := by
    rw [utf8ByteSize_ofList_of_forall fun c hc =>
      h c (List.mem_of_mem_take (List.mem_of_mem_take hc))]
    simp
    omega
  have hStop : (String.ofList ((cs.take j).take i) ++
      String.ofList ((cs.take j).drop i)).utf8ByteSize = j := by
    rw [← String.ofList_append, hBefore,
      utf8ByteSize_ofList_of_forall fun c hc => h c (List.mem_of_mem_take hc)]
    simp
    omega
  have hSlice := slice?_append (String.ofList ((cs.take j).take i))
    (String.ofList ((cs.take j).drop i)) (String.ofList (cs.drop j))
  rwa [hText, hStart, hStop] at hSlice

/-- A run of characters of one kind is cut off in front of a character of another kind. The end of
the text will do as well. -/
theorem takeWhile_and_dropWhile_append {kind : Char → Bool} {run rest : List Char}
    (hRun : ∀ c ∈ run, kind c = true) (hRest : ∀ c ∈ rest.head?, kind c = false) :
    (run ++ rest).takeWhile kind = run ∧ (run ++ rest).dropWhile kind = rest := by
  rw [List.takeWhile_append_of_pos hRun, List.dropWhile_append_of_pos hRun]
  cases rest with
  | nil => simp
  | cons c rest =>
      have hStop := hRest c rfl
      simp [hStop]

/-- A text is divided at the first mark. Further marks stay in the second part. -/
theorem takeWhile_and_tail_dropWhile {mark : Char} {start : List Char} (h : mark ∉ start)
    (rest : List Char) :
    (start ++ mark :: rest).takeWhile (· ≠ mark) = start ∧
      ((start ++ mark :: rest).dropWhile (· ≠ mark)).tail = rest := by
  have hStart : ∀ c ∈ start, decide (c ≠ mark) = true := by
    intro c hc
    rw [decide_eq_true_eq]
    rintro rfl
    exact h hc
  have hMark : ∀ c ∈ (mark :: rest).head?, decide (c ≠ mark) = false := by simp
  obtain ⟨hTake, hDrop⟩ := takeWhile_and_dropWhile_append hStart hMark
  exact ⟨hTake, by rw [hDrop, List.tail_cons]⟩

end EventManifest.Text
