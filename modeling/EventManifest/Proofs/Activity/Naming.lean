import EventManifest.Activity
import EventManifest.Proofs.Text.Slice
import Mathlib.Data.List.Infix
import Mathlib.Data.List.TakeWhile

/-!
The names of activities. The common part of two symbols is the longest beginning that they share,
and the name is the common part or ends at its last underscore. A scan by byte offsets arrives at
the same name, and none of its cuts falls inside a character. Whether a name is given to two
activities is not asked here.
-/

namespace EventManifest.Activity

/-! ### The common part -/

/-- The beginnings that two texts share are those of their common part. This is all that has to be
known of it: that it is common, and that it is the longest. -/
theorem isPrefix_commonChars_iff {cs as bs : List Char} :
    cs <+: commonChars as bs ↔ cs <+: as ∧ cs <+: bs := by
  fun_induction commonChars as bs generalizing cs with
  | case1 as a bs ih =>
      cases cs with
      | nil => simp
      | cons c cs =>
          simp only [List.cons_prefix_cons, ih]
          tauto
  | case2 a as b bs hDiffer =>
      cases cs with
      | nil => simp
      | cons c cs =>
          simp only [List.cons_prefix_cons, List.prefix_nil, reduceCtorEq, false_iff]
          rintro ⟨⟨rfl, _⟩, rfl, _⟩
          exact hDiffer rfl
  | case3 as bs hEmpty =>
      cases as with
      | nil => simp +contextual
      | cons a as =>
          cases bs with
          | nil => simp +contextual
          | cons b bs => exact absurd rfl (hEmpty a as b bs rfl)

theorem commonChars_isPrefix (as bs : List Char) : commonChars as bs <+: as :=
  (isPrefix_commonChars_iff.mp List.prefix_rfl).1

theorem commonChars_isPrefix_right (as bs : List Char) : commonChars as bs <+: bs :=
  (isPrefix_commonChars_iff.mp List.prefix_rfl).2

theorem commonChars_comm (as bs : List Char) : commonChars as bs = commonChars bs as := by
  have hForth : commonChars as bs <+: commonChars bs as :=
    isPrefix_commonChars_iff.mpr ⟨commonChars_isPrefix_right as bs, commonChars_isPrefix as bs⟩
  have hBack : commonChars bs as <+: commonChars as bs :=
    isPrefix_commonChars_iff.mpr ⟨commonChars_isPrefix_right bs as, commonChars_isPrefix bs as⟩
  exact hForth.eq_of_length (Nat.le_antisymm hForth.length_le hBack.length_le)

/-- Texts have nothing in common exactly if they do not begin with the same character. -/
theorem commonChars_eq_nil_iff {as bs : List Char} :
    commonChars as bs = [] ↔ ¬ ∃ c, as.head? = some c ∧ bs.head? = some c := by
  cases as with
  | nil => simp [commonChars]
  | cons a as =>
      cases bs with
      | nil => simp [commonChars]
      | cons b bs =>
          by_cases hSame : a = b
          · simp [commonChars, hSame]
          · simp [commonChars, hSame, eq_comm]

/-! ### Cutting back -/

/-- A text with an underscore can be split at the last one. -/
theorem exists_last_underscore {cs : List Char} (h : '_' ∈ cs) :
    ∃ before after, cs = before ++ '_' :: after ∧ '_' ∉ after := by
  obtain ⟨first, rest, hSplit, hFirst⟩ := List.eq_append_cons_of_mem (List.mem_reverse.mpr h)
  refine ⟨rest.reverse, first.reverse, ?_, by simpa using hFirst⟩
  rw [← cs.reverse_reverse, hSplit]
  simp

/-- Cutting back keeps the last underscore and drops what follows. -/
theorem cutBack_append {before after : List Char} (h : '_' ∉ after) :
    cutBack (before ++ '_' :: after) = before ++ ['_'] := by
  have hOther : ∀ c ∈ after.reverse, (c != '_') = true := by
    intro c hc
    rw [bne_iff_ne]
    rintro rfl
    exact h (List.mem_reverse.mp hc)
  rw [cutBack, if_pos (by simp), List.reverse_append, List.reverse_cons, List.append_assoc,
    List.dropWhile_append_of_pos hOther]
  simp

/-- Without an underscore nothing is cut. -/
theorem cutBack_of_not_mem {cs : List Char} (h : '_' ∉ cs) : cutBack cs = cs := by
  rw [cutBack, if_neg (by simpa using h)]

theorem cutBack_isPrefix (cs : List Char) : cutBack cs <+: cs := by
  by_cases h : '_' ∈ cs
  · obtain ⟨before, after, rfl, hLast⟩ := exists_last_underscore h
    exact ⟨after, by simp [cutBack_append hLast]⟩
  · rw [cutBack_of_not_mem h]

/-- Cutting back leaves something of every text, so a common part always gives a name. -/
theorem cutBack_eq_nil_iff {cs : List Char} : cutBack cs = [] ↔ cs = [] := by
  by_cases h : '_' ∈ cs
  · obtain ⟨before, after, rfl, hLast⟩ := exists_last_underscore h
    simp [cutBack_append hLast]
  · rw [cutBack_of_not_mem h]

/-- A name is a beginning of the common part, and hence of both symbols. -/
theorem nameChars_isPrefix_commonChars (start stop : List Char) :
    nameChars start stop <+: commonChars start stop := by
  rw [nameChars]
  split
  · exact List.prefix_rfl
  · exact cutBack_isPrefix _

theorem nameChars_isPrefix (start stop : List Char) : nameChars start stop <+: start :=
  (nameChars_isPrefix_commonChars start stop).trans (commonChars_isPrefix start stop)

/-- There is no name only where there is nothing in common. -/
theorem nameChars_eq_nil_iff {start stop : List Char} :
    nameChars start stop = [] ↔ commonChars start stop = [] := by
  rw [nameChars]
  split
  · rfl
  · exact cutBack_eq_nil_iff

/-- It does not matter for the name which of the events starts. -/
theorem nameChars_comm (start stop : List Char) : nameChars start stop = nameChars stop start := by
  rw [nameChars, nameChars, commonChars_comm start stop]
  simp only [or_comm]

/-! ### The same scan by byte offsets -/

/-- The characters of a text with the byte offsets at which they begin. -/
def offsets (start : Nat) : List Char → List (Nat × Char)
  | [] => []
  | c :: cs => (start, c) :: offsets (start + c.utf8Size) cs

/-- The characters of a text with their offsets are its characters. -/
theorem map_snd_offsets (start : Nat) (cs : List Char) : (offsets start cs).map Prod.snd = cs := by
  induction cs generalizing start with
  | nil => rfl
  | cons c cs ih => rw [offsets, List.map_cons, ih]

/-- Offsets count bytes, so the second part begins behind the bytes of the first. Characters may
have several. -/
theorem offsets_append (start : Nat) (as bs : List Char) :
    offsets start (as ++ bs) =
      offsets start as ++ offsets (start + (String.ofList as).utf8ByteSize) bs := by
  induction as generalizing start with
  | nil => rfl
  | cons a as ih =>
      rw [List.cons_append, offsets, offsets, ih, Text.utf8ByteSize_ofList_cons, Nat.add_assoc]
      rfl

/-- Where the characters of two texts cease to agree: behind the last one up to which all do. -/
def commonEnd (a b : String) : Nat :=
  (((offsets 0 a.toList).zip b.toList).takeWhile fun x => x.1.2 == x.2).getLast?.elim 0
    fun x => x.1.1 + x.1.2.utf8Size

/-- Where the last underscore of a text begins. -/
def lastUnderscore? (text : String) : Option Nat :=
  ((offsets 0 text.toList).filter fun x => x.2 == '_').getLast?.map Prod.fst

/-- The name of an activity, cut out of the symbols at byte offsets. There is none if a cut falls
inside a character. -/
def slicedName? (start stop : String) : Option String := do
  let common ← Text.before? start (commonEnd start stop)
  if common = start ∨ common = stop then
    return common
  else
    match lastUnderscore? common with
    | some offset => Text.before? common (offset + 1)
    | none => return common

/-- Every character that agrees moves the end by its bytes. The offset of the first character is
general, since it grows on the way. -/
theorem elim_getLast?_agreeing (start : Nat) (as bs : List Char) :
    ((((offsets start as).zip bs).takeWhile fun x => x.1.2 == x.2).getLast?.elim start
        fun x => x.1.1 + x.1.2.utf8Size) =
      start + (String.ofList (commonChars as bs)).utf8ByteSize := by
  fun_induction commonChars as bs generalizing start with
  | case1 as a bs ih =>
      have hStep := ih (start + a.utf8Size)
      rw [Text.utf8ByteSize_ofList_cons, ← Nat.add_assoc, ← hStep, offsets, List.zip_cons_cons,
        List.takeWhile_cons_of_pos (by simp), List.getLast?_cons]
      cases List.getLast? _ <;> rfl
  | case2 a as b bs hDiffer => simp [offsets, hDiffer]
  | case3 as bs hEmpty =>
      cases as with
      | nil => simp [offsets]
      | cons a as =>
          cases bs with
          | nil => simp
          | cons b bs => exact absurd rfl (hEmpty a as b bs rfl)

/-- The end of the agreeing characters is the size of the common part. -/
theorem commonEnd_eq (a b : String) : commonEnd a b = (commonPart a b).utf8ByteSize := by
  rw [commonEnd, elim_getLast?_agreeing, Nat.zero_add, commonPart]

/-- The cut at the end of the common part falls between two characters, and leaves just that
part. -/
theorem before?_commonEnd (a b : String) :
    Text.before? a (commonEnd a b) = some (commonPart a b) := by
  rw [commonEnd_eq]
  refine Text.before?_of_isPrefix ?_
  rw [commonPart, String.toList_ofList]
  exact commonChars_isPrefix _ _

/-- Where there is no underscore, none is found, at whatever offset the text begins. -/
theorem filter_offsets_eq_nil {cs : List Char} (h : '_' ∉ cs) (start : Nat) :
    ((offsets start cs).filter fun x => x.2 == '_') = [] := by
  rw [List.filter_eq_nil_iff]
  intro x hx hMark
  have hMem : x.2 ∈ (offsets start cs).map Prod.snd := List.mem_map_of_mem hx
  rw [map_snd_offsets, beq_iff_eq.mp hMark] at hMem
  exact h hMem

theorem lastUnderscore?_of_not_mem {text : String} (h : '_' ∉ text.toList) :
    lastUnderscore? text = none := by
  rw [lastUnderscore?, filter_offsets_eq_nil h]
  rfl

/-- The last underscore begins behind the bytes that stand before it. -/
theorem lastUnderscore?_append {text : String} {before after : List Char}
    (hSplit : text.toList = before ++ '_' :: after) (hLast : '_' ∉ after) :
    lastUnderscore? text = some (String.ofList before).utf8ByteSize := by
  rw [lastUnderscore?, hSplit, offsets_append, offsets, List.filter_append,
    List.filter_cons_of_pos (by simp), filter_offsets_eq_nil hLast]
  simp

/-! ### What a name is -/

/-- A text is the longest beginning that two others share. -/
structure IsLongestCommon (a b common : String) : Prop where
  left : common.toList <+: a.toList
  right : common.toList <+: b.toList
  longest : ∀ text : String, text.toList <+: a.toList → text.toList <+: b.toList →
    text.toList <+: common.toList

/-- The name that two symbols with a common part have. -/
inductive IsName (a b common : String) : String → Prop where
  | whole (h : common = a ∨ common = b ∨ '_' ∉ common.toList) : IsName a b common common
  | cut {before after : List Char} (hLeft : common ≠ a) (hRight : common ≠ b)
      (hSplit : common.toList = before ++ '_' :: after) (hLast : '_' ∉ after) :
      IsName a b common (String.ofList (before ++ ['_']))

theorem toList_commonPart (a b : String) :
    (commonPart a b).toList = commonChars a.toList b.toList :=
  String.toList_ofList

/-- Texts agree as their lists of characters do. -/
theorem commonPart_eq_iff {a b text : String} :
    commonPart a b = text ↔ commonChars a.toList b.toList = text.toList := by
  rw [← String.toList_inj, toList_commonPart]

/-- The common part is what it is said to be. -/
theorem isLongestCommon_commonPart (a b : String) : IsLongestCommon a b (commonPart a b) where
  left := by
    rw [toList_commonPart]
    exact commonChars_isPrefix _ _
  right := by
    rw [toList_commonPart]
    exact commonChars_isPrefix_right _ _
  longest text hLeft hRight := by
    rw [toList_commonPart]
    exact isPrefix_commonChars_iff.mpr ⟨hLeft, hRight⟩

/-- The name is the whole common part if that is one of the symbols or has no underscore, and is cut
back otherwise. Each symbol may be any text. -/
theorem isName_nameOf (a b : String) : IsName a b (commonPart a b) (nameOf a b) := by
  rw [nameOf, nameChars]
  simp only [← commonPart_eq_iff]
  split
  · rename_i hOne
    exact .whole (hOne.imp_right Or.inl)
  · rename_i hNeither
    obtain ⟨hLeft, hRight⟩ := not_or.mp hNeither
    by_cases hMark : '_' ∈ commonChars a.toList b.toList
    · obtain ⟨before, after, hSplit, hLast⟩ := exists_last_underscore hMark
      rw [hSplit, cutBack_append hLast]
      exact .cut hLeft hRight (toList_commonPart a b ▸ hSplit) hLast
    · rw [cutBack_of_not_mem hMark]
      exact .whole (Or.inr (Or.inr (toList_commonPart a b ▸ hMark)))

/-- The cuts that a name asks for can be made. An underscore is one byte. So cutting by bytes and by
characters comes to the same, also beyond the ASCII range. -/
theorem slicedName?_eq (a b : String) : slicedName? a b = some (nameOf a b) := by
  have hName := isName_nameOf a b
  rw [slicedName?, before?_commonEnd, Option.bind_eq_bind, Option.bind_some]
  generalize nameOf a b = name at hName ⊢
  cases hName with
  | whole h =>
      split
      · rfl
      · rename_i hNeither
        obtain ⟨hLeft, hRight⟩ := not_or.mp hNeither
        rw [lastUnderscore?_of_not_mem ((h.resolve_left hLeft).resolve_left hRight)]
        rfl
  | @cut before after hLeft hRight hSplit hLast =>
      have hBytes : (String.ofList (before ++ ['_'])).utf8ByteSize =
          (String.ofList before).utf8ByteSize + 1 := by
        rw [String.ofList_append, String.utf8ByteSize_append]
        rfl
      rw [if_neg (not_or.mpr ⟨hLeft, hRight⟩), lastUnderscore?_append hSplit hLast]
      simp only [← hBytes]
      refine Text.before?_of_isPrefix ?_
      rw [hSplit, String.toList_ofList]
      exact ⟨after, by simp⟩

/-- How an activity is named after two symbols. Their common part is the longest beginning they
share, and the name is the common part or its beginning up to the last underscore. The order of the
symbols does not matter, and there is no name exactly if they begin differently. The cuts by byte
offsets give the same texts, so none of them falls inside a character. -/
theorem nameOf_settled (a b : String) :
    IsLongestCommon a b (commonPart a b) ∧ commonPart a b = commonPart b a ∧
      nameOf a b = nameOf b a ∧ (nameOf a b).toList <+: (commonPart a b).toList ∧
      (nameOf a b = "" ↔ ¬ ∃ c, a.toList.head? = some c ∧ b.toList.head? = some c) ∧
      IsName a b (commonPart a b) (nameOf a b) ∧
      Text.before? a (commonEnd a b) = some (commonPart a b) ∧
      slicedName? a b = some (nameOf a b) := by
  refine ⟨isLongestCommon_commonPart a b, ?_, ?_, ?_, ?_, isName_nameOf a b, before?_commonEnd a b,
    slicedName?_eq a b⟩
  · rw [commonPart, commonPart, commonChars_comm]
  · rw [nameOf, nameOf, nameChars_comm]
  · rw [nameOf, String.toList_ofList, toList_commonPart]
    exact nameChars_isPrefix_commonChars _ _
  · rw [nameOf, String.ofList_eq_empty_iff, nameChars_eq_nil_iff, commonChars_eq_nil_iff]

example : nameOf "Öl_Start" "Öl_Stop" = "Öl_" := by decide

end EventManifest.Activity
