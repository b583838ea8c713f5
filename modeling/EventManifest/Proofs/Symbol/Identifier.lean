import EventManifest.Proofs.Text.Hex
import EventManifest.Symbol.Entity
import Mathlib.Data.List.Basic

/-!
Which texts are identifiers. Sanitizing makes one of every text, word characters may be put behind
one, and a beginning of one is one again unless it is empty. Hence every symbol of an entity is an
identifier, though not every symbol is sanitized as a whole.
-/

namespace EventManifest

theorem isDigit_eq_false_of_isAlpha {c : Char} (h : c.isAlpha = true) : c.isDigit = false := by
  have hLow : 65 ≤ c.val.toNat := by
    rcases Bool.or_eq_true_iff.mp h with hUpper | hLower
    · have hBounds : 65 ≤ c.val.toNat ∧ c.val.toNat ≤ 90 := of_decide_eq_true hUpper
      exact hBounds.1
    · have hBound : 97 ≤ c.val.toNat := of_decide_eq_true (Bool.and_eq_true_iff.mp hLower).1
      omega
  have hHigh : ¬ c.val.toNat ≤ 57 := by omega
  exact Bool.and_eq_false_iff.mpr (.inr (decide_eq_false hHigh))

/-- Identifiers in other words: they are not empty, have word characters only, and do not begin with
a digit. -/
theorem isIdentifierChars_iff {cs : List Char} :
    isIdentifierChars cs = true ↔
      cs ≠ [] ∧ (∀ c ∈ cs, isWordChar c = true) ∧ ∀ c, cs.head? = some c → c.isDigit = false := by
  cases cs with
  | nil => simp [isIdentifierChars]
  | cons c rest =>
      by_cases hDigit : c.isDigit = true
      · have hAlpha : ¬c.isAlpha = true := fun h => by
          simp [isDigit_eq_false_of_isAlpha h] at hDigit
        have hOther : c ≠ '_' := by
          rintro rfl
          cases hDigit
        simp [isIdentifierChars, hDigit, hAlpha, hOther]
      · simp [isIdentifierChars, isWordChar, Char.isAlphanum, hDigit]

theorem isWordChar_toWordChar (c : Char) : isWordChar (toWordChar c) = true := by
  rw [toWordChar]
  split
  · assumption
  · rfl

/-- A character that is no digit is not turned into one, so that no identifier begins with a digit
by accident. -/
theorem isDigit_toWordChar {c : Char} (h : c.isDigit = false) : (toWordChar c).isDigit = false := by
  rw [toWordChar]
  split
  · exact h
  · rfl

/-- Every text is sanitized to an identifier, the empty one too. Different texts may become the same
identifier. -/
theorem isIdentifier_sanitize (name : String) : isIdentifier (sanitize name) = true := by
  rw [isIdentifier, toList_sanitize, isIdentifierChars_iff]
  cases name.toList with
  | nil => simp [sanitizeChars, isWordChar]
  | cons c rest =>
      have hWord (cs : List Char) : ∀ d ∈ cs.map toWordChar, isWordChar d = true := by
        simp [isWordChar_toWordChar]
      rw [sanitizeChars]
      split
      · refine ⟨List.cons_ne_nil _ _, ?_, by simp⟩
        rw [List.forall_mem_cons, List.forall_mem_cons]
        exact ⟨rfl, rfl, hWord _⟩
      · rename_i hDigit
        refine ⟨List.cons_ne_nil _ _, hWord (c :: rest), ?_⟩
        rintro d hd
        obtain rfl : toWordChar c = d := by simpa using hd
        exact isDigit_toWordChar (by simpa using hDigit)

/-- Whether a text may stand behind an identifier. -/
def isWord (s : String) : Bool :=
  s.toList.all isWordChar

theorem isWord_iff {s : String} : isWord s = true ↔ ∀ c ∈ s.toList, isWordChar c = true :=
  List.all_eq_true

/-- Words may be put together freely. Other than identifiers, they may be empty or begin with a
digit. -/
@[simp] theorem isWord_append (s t : String) : isWord (s ++ t) = (isWord s && isWord t) := by
  simp [isWord]

theorem isWordChar_digitChar {n : Nat} (h : n < 16) : isWordChar (Nat.digitChar n) = true := by
  decide +revert

/-- Numbers are words in every base up to sixteen, beyond which there are no letters for digits. -/
theorem isWordChar_of_mem_toDigits {base n : Nat} (hBase : 1 < base) (hSmall : base ≤ 16)
    {c : Char} (hc : c ∈ Nat.toDigits base n) : isWordChar c = true := by
  obtain ⟨k, hk, rfl⟩ := Text.exists_digitChar_of_mem_toDigits hBase hc
  exact isWordChar_digitChar (Nat.lt_of_lt_of_le hk hSmall)

@[simp] theorem isWord_toString (n : Nat) : isWord (toString n) = true := by
  refine isWord_iff.mpr fun c hc => ?_
  rw [Nat.toString_eq_ofList_toDigits, String.toList_ofList] at hc
  exact isWordChar_of_mem_toDigits (by decide) (by decide) hc

@[simp] theorem isWord_hex (n : Nat) : isWord (Text.hex n) = true := by
  refine isWord_iff.mpr fun c hc => ?_
  rw [Text.hex, String.toList_ofList] at hc
  exact isWordChar_of_mem_toDigits (by decide) (by decide) hc

/-- All symbols are made in this way: an identifier in front, and then any word. In particular
numbers may follow. -/
theorem isIdentifier_append {s t : String} (hs : isIdentifier s = true)
    (ht : isWord t = true) : isIdentifier (s ++ t) = true := by
  obtain ⟨hNonempty, hWord, hFirst⟩ := isIdentifierChars_iff.mp hs
  refine isIdentifierChars_iff.mpr ⟨?_, isWord_iff.mp ?_, ?_⟩
  · simp [hNonempty]
  · simp [isWord_iff.mpr hWord, ht]
  · rwa [String.toList_append, List.head?_append_of_ne_nil _ hNonempty]

/-- What an identifier begins with is an identifier. -/
theorem isIdentifier_of_isPrefix {s t : String} (ht : isIdentifier t = true)
    (h : s.toList <+: t.toList) (hNonempty : s ≠ "") : isIdentifier s = true := by
  obtain ⟨rest, hRest⟩ := h
  obtain ⟨_, hWord, hFirst⟩ := isIdentifierChars_iff.mp ht
  rw [← hRest] at hWord hFirst
  have hChars : s.toList ≠ [] := fun hNil => hNonempty (String.toList_eq_nil_iff.mp hNil)
  rw [List.head?_append_of_ne_nil _ hChars] at hFirst
  exact isIdentifierChars_iff.mpr
    ⟨hChars, fun c hc => hWord c (List.mem_append_left _ hc), hFirst⟩

/-- An authored symbol is sanitized, and only a missing or blank one gives way to what stands in for
it. So every symbol is an identifier if the substitute is. -/
theorem isIdentifier_getD_authored (symbol : Option String) {fallback : String}
    (h : isIdentifier fallback = true) : isIdentifier ((authored symbol).getD fallback) = true := by
  cases symbol with
  | none => exact h
  | some written =>
      simp only [authored, Option.bind_some]
      split
      · exact h
      · split
        · assumption
        · exact isIdentifier_sanitize _

namespace Symbol

/-- The symbol of a provider is an identifier. Its name need not be one. -/
theorem isIdentifier_ofProvider (p : Provider) : isIdentifier (ofProvider p) = true :=
  isIdentifier_getD_authored _ (isIdentifier_sanitize _)

/-- The same for what a provider declares under any kind. The symbol of the provider may be any text
here, since it is sanitized together with the name. -/
theorem isIdentifier_ofValue (provider : String) (kind : EntityKind) (symbol : Option String)
    (name : String) (value : Nat) :
    isIdentifier (ofValue provider kind symbol name value) = true :=
  isIdentifier_getD_authored _ (isIdentifier_sanitize _)

theorem isIdentifier_ofMap (provider : String) (m : ValueMap) :
    isIdentifier (ofMap provider m) = true :=
  isIdentifier_getD_authored _ (isIdentifier_sanitize _)

theorem isIdentifier_ofString (provider id : String) (symbol : Option String) :
    isIdentifier (ofString provider id symbol) = true :=
  isIdentifier_getD_authored _ (isIdentifier_sanitize _)

/-- The position of an item stands behind the symbol of its map as it is. So the latter has to be an
identifier already. -/
theorem isIdentifier_ofMapItem {map : String} (h : isIdentifier map = true) (index : Nat)
    (item : MapItem) : isIdentifier (ofMapItem map index item) = true :=
  isIdentifier_getD_authored _ (isIdentifier_append h (isWord_toString index))

/-- So do the numbers of an event behind the symbol of its provider. No part of the event's own
texts goes into such a symbol. -/
theorem isIdentifier_anonymousEvent {provider : String} (h : isIdentifier provider = true)
    (d : EventDescriptor) : isIdentifier (anonymousEvent provider d) = true := by
  have hMark : isWord "_" = true := by decide
  refine isIdentifier_append (isIdentifier_append h (by decide)) ?_
  simp [String.intercalate_cons_cons, hMark]

/-- An event has an identifier, with an authored symbol or without one. It is not claimed to be the
only event that has it. -/
theorem isIdentifier_ofEvent {provider : String} (h : isIdentifier provider = true)
    (symbol : Option String) (d : EventDescriptor) :
    isIdentifier (ofEvent provider symbol d) = true :=
  isIdentifier_getD_authored _ (isIdentifier_anonymousEvent h d)

end Symbol

end EventManifest
