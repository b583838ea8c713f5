import EventManifest.Proofs.Symbol.Identifier
import EventManifest.Proofs.Text.Slice
import Mathlib.Data.Char
import Mathlib.Data.Set.Operations
import Mathlib.Order.Interval.Set.Defs

/-!
Sanitizing as a retraction of the texts onto the identifiers. The identifiers are a language given
by ranges of characters; sanitizing lands in it and moves no text of it. A text that begins with no
digit keeps its length and its word characters. The digits at the beginning of any other text, and
the empty text, have rules of their own.
-/

namespace EventManifest.Identifier

/-- The characters `[A-Za-z_]`, which an identifier may begin with. -/
def letters : Set Char :=
  Set.Icc 'A' 'Z' ∪ Set.Icc 'a' 'z' ∪ {'_'}

/-- The characters `[0-9]`. -/
def digits : Set Char :=
  Set.Icc '0' '9'

/-- The texts `[A-Za-z_][A-Za-z0-9_]*`. -/
def language : Set String :=
  {s | ∃ first rest, s.toList = first :: rest ∧ first ∈ letters ∧ ∀ c ∈ rest, c ∈ letters ∪ digits}

theorem mem_digits_iff {c : Char} : c ∈ digits ↔ c.isDigit = true :=
  (Bool.and_eq_true_iff.trans (and_congr decide_eq_true_iff decide_eq_true_iff)).symm

/-- The ranges of the language are those of the test, letter by letter. Letters beyond the ASCII
range are in neither. -/
theorem mem_letters_iff {c : Char} : c ∈ letters ↔ (c.isAlpha || c == '_') = true := by
  have hUpper : c ∈ Set.Icc 'A' 'Z' ↔ c.isUpper = true := decide_eq_true_iff.symm
  have hLower : c ∈ Set.Icc 'a' 'z' ↔ c.isLower = true :=
    (Bool.and_eq_true_iff.trans (and_congr decide_eq_true_iff decide_eq_true_iff)).symm
  have hAlpha : c.isAlpha = true ↔ c.isUpper = true ∨ c.isLower = true := Bool.or_eq_true_iff
  rw [letters, Set.mem_union, Set.mem_union, hUpper, hLower, ← hAlpha, Bool.or_eq_true, beq_iff_eq,
    Set.mem_singleton_iff]

theorem mem_letters_union_digits_iff {c : Char} : c ∈ letters ∪ digits ↔ isWordChar c = true := by
  have hAlphanum : c.isAlphanum = true ↔ c.isAlpha = true ∨ c.isDigit = true :=
    Bool.or_eq_true_iff
  rw [Set.mem_union, mem_letters_iff, mem_digits_iff, isWordChar, Bool.or_eq_true, Bool.or_eq_true,
    hAlphanum]
  exact or_right_comm

/-- The test for identifiers accepts their language. Reserved words are not excluded, in either. -/
theorem isIdentifier_iff_mem_language {s : String} : isIdentifier s = true ↔ s ∈ language := by
  rw [isIdentifier, language, Set.mem_ofPred_eq]
  cases s.toList with
  | nil => simp [isIdentifierChars]
  | cons first rest =>
      simp only [isIdentifierChars, Bool.and_eq_true, List.all_eq_true, ← mem_letters_iff,
        ← mem_letters_union_digits_iff]
      constructor
      · rintro ⟨hFirst, hRest⟩
        exact ⟨first, rest, rfl, hFirst, hRest⟩
      · rintro ⟨_, _, hSame, hFirst, hRest⟩
        cases hSame
        exact ⟨hFirst, hRest⟩

def BeginsWithDigit (s : String) : Prop :=
  ∃ c, s.toList.head? = some c ∧ c ∈ digits

theorem not_beginsWithDigit_iff {s : String} :
    ¬ BeginsWithDigit s ↔ ∀ c, s.toList.head? = some c → c.isDigit = false := by
  simp [BeginsWithDigit, mem_digits_iff]

/-- One text is another with an underscore in the place of every character that is no word
character. -/
structure Underscored (s t : String) : Prop where
  length : t.length = s.length
  kept : ∀ (i : Nat) (c : Char), s.toList[i]? = some c → c ∈ letters ∪ digits →
    t.toList[i]? = some c
  replaced : ∀ (i : Nat) (c : Char), s.toList[i]? = some c → c ∉ letters ∪ digits →
    t.toList[i]? = some '_'

/-- Characters are replaced one by one, so places stay as they are. -/
theorem underscored_of_toList_eq_map {s t : String} (h : t.toList = s.toList.map toWordChar) :
    Underscored s t where
  length := by rw [← String.length_toList, h, List.length_map, String.length_toList]
  kept i c hPlace hWord := by
    rw [h, List.getElem?_map, hPlace, Option.map_some, toWordChar,
      if_pos (mem_letters_union_digits_iff.mp hWord)]
  replaced i c hPlace hOther := by
    rw [h, List.getElem?_map, hPlace, Option.map_some, toWordChar,
      if_neg (mt mem_letters_union_digits_iff.mpr hOther)]

/-- Without a digit in front each character is replaced by itself. -/
theorem sanitizeChars_eq_map {cs : List Char} (hSome : cs ≠ [])
    (hFirst : ∀ c, cs.head? = some c → c.isDigit = false) :
    sanitizeChars cs = cs.map toWordChar := by
  cases cs with
  | nil => exact absurd rfl hSome
  | cons c rest => simp [sanitizeChars, hFirst c rfl]

/-- However many digits a text begins with, two underscores stand for all of them. Later digits
stay. -/
theorem sanitizeChars_append {number rest : List Char} (hSome : number ≠ [])
    (hNumber : ∀ c ∈ number, c.isDigit = true)
    (hRest : ∀ c, rest.head? = some c → c.isDigit = false) :
    sanitizeChars (number ++ rest) = '_' :: '_' :: rest.map toWordChar := by
  cases number with
  | nil => exact absurd rfl hSome
  | cons first others =>
      obtain ⟨hFirst, hOthers⟩ := List.forall_mem_cons.mp hNumber
      obtain ⟨_, hDrop⟩ := Text.takeWhile_and_dropWhile_append hOthers hRest
      rw [List.cons_append, sanitizeChars, if_pos hFirst, hDrop]

/-- Word characters are not touched. -/
theorem map_toWordChar_of_forall {cs : List Char} (h : ∀ c ∈ cs, isWordChar c = true) :
    cs.map toWordChar = cs :=
  calc cs.map toWordChar
    _ = cs.map id := List.map_congr_left fun c hc => if_pos (h c hc)
    _ = cs := List.map_id cs

/-- The texts that sanitizing leaves alone are the identifiers. -/
theorem sanitize_eq_self_iff {s : String} : sanitize s = s ↔ isIdentifier s = true := by
  constructor
  · intro h
    rw [← h]
    exact isIdentifier_sanitize s
  · intro h
    obtain ⟨hSome, hWord, hFirst⟩ := isIdentifierChars_iff.mp h
    rw [← String.toList_inj, toList_sanitize, sanitizeChars_eq_map hSome hFirst,
      map_toWordChar_of_forall hWord]

/-- Every identifier is the result of sanitizing some text, namely itself. -/
theorem range_sanitize : Set.range sanitize = {s | isIdentifier s = true} := by
  ext s
  constructor
  · rintro ⟨name, rfl⟩
    exact isIdentifier_sanitize name
  · intro h
    exact ⟨s, sanitize_eq_self_iff.mpr h⟩

/-- The usual case: no digit in front, and each character in its place. -/
theorem underscored_sanitize {s : String} (hSome : s ≠ "") (hFirst : ¬ BeginsWithDigit s) :
    Underscored s (sanitize s) := by
  have hChars : s.toList ≠ [] := mt String.toList_eq_nil_iff.mp hSome
  refine underscored_of_toList_eq_map ?_
  rw [toList_sanitize, sanitizeChars_eq_map hChars (not_beginsWithDigit_iff.mp hFirst)]

/-- The other case. The number in front is lost, so texts that differ there alone become one. -/
theorem sanitize_append {number rest : String} (hSome : number ≠ "")
    (hNumber : ∀ c ∈ number.toList, c ∈ digits) (hRest : ¬ BeginsWithDigit rest) :
    ∃ tail, Underscored rest tail ∧ sanitize (number ++ rest) = "__" ++ tail := by
  have hChars : number.toList ≠ [] := mt String.toList_eq_nil_iff.mp hSome
  refine ⟨String.ofList (rest.toList.map toWordChar),
    underscored_of_toList_eq_map String.toList_ofList, ?_⟩
  rw [← String.toList_inj, toList_sanitize, String.toList_append, String.toList_append,
    String.toList_ofList, String.toList_ofList, sanitizeChars_append hChars
      (fun c hc => mem_digits_iff.mp (hNumber c hc)) (not_beginsWithDigit_iff.mp hRest)]
  rfl

/-- What sanitizing does to every text. Its results are exactly the identifiers, and these it leaves
alone, so that sanitizing once is enough. Where a text has a first character and this is no digit,
every word character stays in its place, and every other character becomes an underscore. The
remaining texts are covered by a rule for the empty one and a rule for the digits at the
beginning. -/
theorem sanitize_retracts :
    (∀ s, isIdentifier s = true ↔ s ∈ language) ∧
      (∀ s, isIdentifier (sanitize s) = true) ∧
      (∀ s, sanitize s = s ↔ isIdentifier s = true) ∧
      (∀ s, sanitize (sanitize s) = sanitize s) ∧
      Set.range sanitize = {s | isIdentifier s = true} ∧
      (∀ s, s ≠ "" → ¬ BeginsWithDigit s → Underscored s (sanitize s)) ∧
      sanitize "" = "_" ∧
      ∀ number rest : String, number ≠ "" → (∀ c ∈ number.toList, c ∈ digits) →
        ¬ BeginsWithDigit rest →
          ∃ tail, Underscored rest tail ∧ sanitize (number ++ rest) = "__" ++ tail := by
  refine ⟨fun _ => isIdentifier_iff_mem_language, isIdentifier_sanitize,
    fun _ => sanitize_eq_self_iff, ?_, range_sanitize, fun _ => underscored_sanitize, by decide,
    fun _ _ => sanitize_append⟩
  intro s
  exact sanitize_eq_self_iff.mpr (isIdentifier_sanitize s)

/-- A letter with an accent gives way to one underscore, and two digits at the beginning to two. -/
theorem sanitize_retracts_unspellable :
    ¬ BeginsWithDigit "é-1_" ∧ Underscored "é-1_" "__1_" ∧ "__1_" ∈ language ∧
      ∃ tail, Underscored "d-." tail ∧ sanitize ("03" ++ "d-.") = "__" ++ tail := by
  obtain ⟨hLanguage, hLands, _, _, _, hPlain, _, hNumbered⟩ := sanitize_retracts
  have hAccent : ¬ BeginsWithDigit "é-1_" := not_beginsWithDigit_iff.mpr (by simp)
  have hResult : sanitize "é-1_" = "__1_" := by decide
  have hNumber : ∀ c ∈ "03".toList, c ∈ digits := by
    simp [mem_digits_iff]
  have hRest : ¬ BeginsWithDigit "d-." := not_beginsWithDigit_iff.mpr (by simp)
  refine ⟨hAccent, ?_, ?_, hNumbered "03" "d-." (by decide) hNumber hRest⟩
  · rw [← hResult]
    exact hPlain _ (by decide) hAccent
  · rw [← hLanguage, ← hResult]
    exact hLands _

example : sanitize "3rd-party.Event!" = "__rd_party_Event_" := by decide

end EventManifest.Identifier
