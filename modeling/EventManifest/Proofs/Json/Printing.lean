import EventManifest.Json.Printer
import EventManifest.Proofs.Json.Fields
import EventManifest.Proofs.Json.Grammar
import EventManifest.Proofs.Text.Hex

/-!
The compact form of a value is a document, and it is read as that value. This holds of values whose
numbers are natural numbers of 64 bits; numbers of other kinds are not written by anything here.
-/

namespace EventManifest.Json

/-- A value whose arrays and objects nest no deeper than the room, and whose numbers are of a
certain kind. -/
inductive Fits (kind : Number → Prop) : (room : Nat) → Json → Prop where
  | null {room : Nat} : Fits kind room .null
  | bool {room : Nat} (value : Bool) : Fits kind room (.bool value)
  | number {room : Nat} {value : Number} (hKind : kind value) : Fits kind room (.number value)
  | string {room : Nat} (value : String) : Fits kind room (.string value)
  | array {room : Nat} {items : List Json} (hItems : ∀ item ∈ items, Fits kind room item) :
      Fits kind (room + 1) (.array items)
  | object {room : Nat} {members : List (String × Json)}
      (hMembers : ∀ member ∈ members, Fits kind room member.2) :
      Fits kind (room + 1) (.object members)

/-- A value that fits some room fits any larger one. -/
theorem Fits.mono {kind : Number → Prop} {room room' : Nat} {value : Json}
    (h : value.Fits kind room) (hRoom : room ≤ room') : value.Fits kind room' := by
  induction h generalizing room' with
  | null => exact .null
  | bool value => exact .bool value
  | number hKind => exact .number hKind
  | string value => exact .string value
  | array _ ih =>
      obtain ⟨more, rfl⟩ := Nat.exists_eq_add_one.mpr (Nat.lt_of_lt_of_le (Nat.succ_pos _) hRoom)
      exact .array fun item hItem => ih item hItem (Nat.le_of_succ_le_succ hRoom)
  | object _ ih =>
      obtain ⟨more, rfl⟩ := Nat.exists_eq_add_one.mpr (Nat.lt_of_lt_of_le (Nat.succ_pos _) hRoom)
      exact .object fun member hMember => ih member hMember (Nat.le_of_succ_le_succ hRoom)

/-- A natural number of 64 bits. -/
def Number.IsWord : Number → Prop
  | .natural n => n < UInt64.size
  | _ => False

/-! ### Spelling -/

/-- A control character without a letter is written by its code. Four digits are always enough, and
they are read back. -/
theorem ofHex?_of_lt {n : Nat} (h : n < 0x20) :
    ∃ a b c d, Text.fixedHex 4 n = [a, b, c, d] ∧
      CodeUnit.ofHex? a b c d = some (.char (Char.ofNat n)) := by
  refine ⟨_, _, _, _, rfl, ?_⟩
  have hSmall : n < 16 ^ 4 := Nat.lt_trans h (by decide)
  have hRead : Text.readHex? (Text.fixedHex 4 n) = some n := Text.readHex?_fixedHex hSmall
  have hLead : ¬ (0xd800 ≤ n ∧ n < 0xdc00) := by omega
  have hTrail : ¬ (0xdc00 ≤ n ∧ n < 0xe000) := by omega
  refine (congrArg (Option.map CodeUnit.ofCode) hRead).trans ?_
  rw [Option.map_some, CodeUnit.ofCode, if_neg hLead, if_neg hTrail]

/-- Every character is written in a way that the grammar has for it. Characters that need no escape
are written as they are. -/
theorem unitSpelling_charText (c : Char) : UnitSpelling (.char c) (CodeUnit.charText c) := by
  rw [CodeUnit.charText.eq_def]
  split
  case h_8 hQuote hBackslash _ _ _ _ _ =>
    split
    · rename_i hControl
      obtain ⟨a, b, d, e, hText, hUnit⟩ := ofHex?_of_lt hControl
      rw [Char.ofNat_toNat] at hUnit
      rw [hText]
      exact .hex hUnit
    · rename_i hVisible
      exact .plain hQuote hBackslash (Nat.not_lt.mp hVisible)
  all_goals exact .letter rfl

/-- A text between its quotation marks is a token, whatever it contains. -/
theorem tokenSpelling_ofString (value : String) :
    TokenSpelling (.quoted (Quoted.ofString value)) (Quoted.ofString value).text := by
  have hUnits (cs : List Char) :
      UnitsSpelling (cs.map .char) ((cs.map .char).flatMap CodeUnit.text) := by
    induction cs with
    | nil => exact .nil
    | cons c cs ih => exact .cons (unitSpelling_charText c) ih
  exact .quoted (hUnits value.toList)

theorem isDigits_toDigits (n : Nat) : IsDigits (Nat.toDigits 10 n) where
  ne_nil := Nat.toDigits_ne_nil
  isDigit _ hc := Nat.isDigit_of_mem_toDigits (by decide) (by decide) hc

/-- Only zero begins with the digit zero. The grammar has no other numbers with leading zeros. -/
theorem head?_toDigits (n : Nat) :
    Nat.toDigits 10 n = ['0'] ∨ (Nat.toDigits 10 n).head? ≠ some '0' := by
  have hPositive (hn : 0 < n) : (Nat.toDigits 10 n).head? ≠ some '0' := by
    induction n using Nat.base_induction 10 (by decide) with
    | single m hm =>
        rw [Nat.toDigits_of_lt_base hm]
        decide +revert
    | digit m k hk hm ih =>
        rw [← Nat.toDigits_append_toDigits (by decide) hm hk,
          List.head?_append_of_ne_nil _ Nat.toDigits_ne_nil]
        exact ih hm
  rcases Nat.eq_zero_or_pos n with rfl | hn
  · exact Or.inl (Nat.toDigits_zero 10)
  · exact Or.inr (hPositive hn)

/-- Natural numbers are written as the grammar wants them. Their size is not limited here. -/
theorem tokenSpelling_natural (n : Nat) :
    TokenSpelling (.numeral (Number.natural n).numeral) (Number.natural n).numeral.text := by
  have hSpelling : NumeralSpelling ⟨false, Nat.toDigits 10 n, none, none⟩ _ :=
    .intro (isDigits_toDigits n) (head?_toDigits n) .absent .absent
  simpa [Number.numeral, Numeral.text] using TokenSpelling.numeral hSpelling

theorem mem_itemTokens {items : List Json} {token : Token} (h : token ∈ itemTokens items) :
    token = .comma ∨ ∃ item ∈ items, token ∈ toTokens item := by
  induction items with
  | nil => cases h
  | cons item items ih =>
      cases items with
      | nil => exact Or.inr ⟨item, List.mem_cons_self, h⟩
      | cons next items =>
          simp only [itemTokens, List.mem_append, List.mem_cons] at h
          rcases h with h | h | h
          · exact Or.inr ⟨item, List.mem_cons_self, h⟩
          · exact Or.inl h
          · refine (ih h).imp_right ?_
            rintro ⟨other, hOther, hToken⟩
            exact ⟨other, List.mem_cons_of_mem _ hOther, hToken⟩

theorem mem_memberTokens {members : List (String × Json)} {token : Token}
    (h : token ∈ memberTokens members) :
    token = .comma ∨ token = .colon ∨
      ∃ member ∈ members, token = .quoted (Quoted.ofString member.1) ∨
        token ∈ toTokens member.2 := by
  induction members with
  | nil => cases h
  | cons member members ih =>
      obtain ⟨key, value⟩ := member
      cases members with
      | nil =>
          simp only [memberTokens, List.mem_cons] at h
          rcases h with h | h | h
          · exact Or.inr (Or.inr ⟨_, List.mem_cons_self, Or.inl h⟩)
          · exact Or.inr (Or.inl h)
          · exact Or.inr (Or.inr ⟨_, List.mem_cons_self, Or.inr h⟩)
      | cons next members =>
          simp only [memberTokens, List.mem_append, List.mem_cons] at h
          rcases h with h | h | h | h | h
          · exact Or.inr (Or.inr ⟨_, List.mem_cons_self, Or.inl h⟩)
          · exact Or.inr (Or.inl h)
          · exact Or.inr (Or.inr ⟨_, List.mem_cons_self, Or.inr h⟩)
          · exact Or.inl h
          · refine (ih h).imp_right (Or.imp_right ?_)
            rintro ⟨other, hOther, hToken⟩
            exact ⟨other, List.mem_cons_of_mem _ hOther, hToken⟩

/-- The tokens of a value are spelled by their texts. Numbers are natural ones of 64 bits here; all
others are left out. -/
theorem Fits.tokenSpelling {room : Nat} {value : Json} (h : Fits Number.IsWord room value) :
    ∀ token ∈ toTokens value, TokenSpelling token token.text := by
  intro token hToken
  induction h with
  | null =>
      cases List.mem_singleton.mp hToken
      exact .null
  | bool value =>
      cases List.mem_singleton.mp hToken
      cases value
      · exact .false
      · exact .true
  | @number _ value hKind =>
      cases List.mem_singleton.mp hToken
      cases value with
      | natural n => exact tokenSpelling_natural n
      | negative n => cases hKind
      | real below x => cases hKind
  | string value =>
      cases List.mem_singleton.mp hToken
      exact tokenSpelling_ofString value
  | array _ ih =>
      simp only [toTokens, List.mem_cons, List.mem_append, List.not_mem_nil, or_false] at hToken
      rcases hToken with rfl | hToken | rfl
      · exact .openArray
      · rcases mem_itemTokens hToken with rfl | ⟨item, hItem, hToken⟩
        · exact .comma
        · exact ih item hItem hToken
      · exact .closeArray
  | object _ ih =>
      simp only [toTokens, List.mem_cons, List.mem_append, List.not_mem_nil, or_false] at hToken
      rcases hToken with rfl | hToken | rfl
      · exact .openObject
      · rcases mem_memberTokens hToken with rfl | rfl | ⟨member, hMember, rfl | hToken⟩
        · exact .comma
        · exact .colon
        · exact tokenSpelling_ofString member.1
        · exact ih member hMember hToken
      · exact .closeObject

/-- Tokens may be put side by side with any blanks between them, also with none. -/
theorem tokensSpelling_flatMap {tokens : List Token} {blanks : List Char} (hBlanks : IsBlank blanks)
    (h : ∀ token ∈ tokens, TokenSpelling token token.text) :
    TokensSpelling tokens (tokens.flatMap fun token => blanks ++ token.text) := by
  induction tokens with
  | nil => exact .nil fun _ hc => by cases hc
  | cons token tokens ih =>
      rw [List.forall_mem_cons] at h
      rw [List.flatMap_cons, List.append_assoc]
      exact .cons hBlanks h.1 (ih h.2)

/-! ### Grammar -/

mutual

/-- The tokens of a value are written from its tree. By recursion on the value, with its lists of
items and members. -/
theorem written_ofJson : (value : Json) → Written (.value (Tree.ofJson value)) (toTokens value)
  | .null => .null
  | .bool value => .bool value
  | .number value => .numeral value.numeral
  | .string _ => .quoted _
  | .array [] => .emptyArray
  | .array (item :: items) => .array (written_ofItems (item :: items) (List.cons_ne_nil _ _))
  | .object [] => .emptyObject
  | .object (member :: members) =>
      .object (written_ofMembers (member :: members) (List.cons_ne_nil _ _))

theorem written_ofItems : (items : List Json) → items ≠ [] →
    Written (.items (Tree.ofItems items)) (itemTokens items)
  | [], hItems => absurd rfl hItems
  | [item], _ => .lastItem (written_ofJson item)
  | item :: next :: items, _ =>
      .item (written_ofJson item) (written_ofItems (next :: items) (List.cons_ne_nil _ _))

theorem written_ofMembers : (members : List (String × Json)) → members ≠ [] →
    Written (.members (Tree.ofMembers members)) (memberTokens members)
  | [], hMembers => absurd rfl hMembers
  | [(_, value)], _ => .lastMember (written_ofJson value)
  | (_, value) :: next :: members, _ =>
      .member (written_ofJson value) (written_ofMembers (next :: members) (List.cons_ne_nil _ _))

end

/-- The written form with blanks before every token. -/
def spacedChars (blanks : List Char) (value : Json) : List Char :=
  (toTokens value).flatMap fun token => blanks ++ token.text

/-- A value is denoted by its written form, with blanks or without. The blanks are the same before
every token, though the grammar would allow any. -/
theorem Fits.document_spaced {room : Nat} {value : Json} (h : Fits Number.IsWord room value)
    {blanks : List Char} (hBlanks : IsBlank blanks) :
    Document (spacedChars blanks value) (Tree.ofJson value) :=
  ⟨toTokens value, written_ofJson value, tokensSpelling_flatMap hBlanks h.tokenSpelling⟩

/-- The case without blanks, in which values are printed. -/
theorem Fits.document {room : Nat} {value : Json} (h : Fits Number.IsWord room value) :
    Document value.compactChars (Tree.ofJson value) := by
  have hBlanks : IsBlank [] := fun _ hc => by cases hc
  exact h.document_spaced hBlanks

/-! ### Reading in full -/

/-- Plain characters are read one by one, without any escape among them. -/
theorem readUnits_chars (before cs : List Char) :
    Quoted.readUnits .closed before (cs.map .char) = .ok (before.reverse ++ cs) := by
  induction cs generalizing before with
  | nil => simp [Quoted.readUnits, Ending.check, Except.map]
  | cons c cs ih => simp [Quoted.readUnits, ih]

/-- A text that was made into units is read back. No surrogates occur in it, so nothing can be
damaged. -/
@[simp] theorem read_ofString (value : String) : (Quoted.ofString value).read = .ok value := by
  simp [Quoted.read, Quoted.ofString, readUnits_chars, Except.map]

theorem Tree.found_ofJson_string (value : String) :
    (Tree.ofJson (.string value)).found = .ok (.string value) := by
  rw [Tree.ofJson, Tree.found, read_ofString]
  rfl

/-- Digits that denote a number of 64 bits are all taken in. None is left over that would have to be
rounded. -/
theorem absorb_eq {digits : List Char} {value : Nat}
    (h : Nat.ofDigitChars 10 digits value < UInt64.size) :
    Numeral.absorb value digits = (Nat.ofDigitChars 10 digits value, []) := by
  have hGrows (digits : List Char) (value : Nat) : value ≤ Nat.ofDigitChars 10 digits value := by
    induction digits generalizing value with
    | nil => simp
    | cons c digits ih =>
        rw [Nat.ofDigitChars_cons]
        exact Nat.le_trans (by omega) (ih _)
  induction digits generalizing value with
  | nil => simp [Numeral.absorb]
  | cons c digits ih =>
      rw [Nat.ofDigitChars_cons] at h ⊢
      have hFits : 10 * value + Numeral.digitValue c < UInt64.size :=
        Nat.lt_of_le_of_lt (hGrows _ _) h
      rw [Numeral.absorb, if_pos hFits]
      exact ih h

/-- A number of 64 bits is read back exactly, and not as a fraction. -/
theorem Number.IsWord.read_numeral {value : Number} (h : value.IsWord) :
    value.numeral.read = .ok value := by
  cases value with
  | natural n =>
      have hAbsorb : Numeral.absorb 0 (Nat.toDigits 10 n) = (n, []) := by
        have hValue : Nat.ofDigitChars 10 (Nat.toDigits 10 n) 0 = n := Nat.ofDigitChars_ten_toDigits
        rw [absorb_eq (hValue.symm ▸ h), hValue]
      simp [Numeral.read, Numeral.value?, Number.numeral, hAbsorb, Numeral.integer?]
  | negative n => cases h
  | real below x => cases h

theorem ofItems_eq_map (items : List Json) : Tree.ofItems items = items.map Tree.ofJson := by
  induction items with
  | nil => rfl
  | cons item items ih => rw [Tree.ofItems, ih, List.map_cons]

theorem ofMembers_eq_map (members : List (String × Json)) :
    Tree.ofMembers members =
      members.map fun member => (Quoted.ofString member.1, Tree.ofJson member.2) := by
  induction members with
  | nil => rfl
  | cons member members ih => rw [Tree.ofMembers, ih, List.map_cons]

/-- Written members are read with their keys, in their order and also where keys repeat. -/
theorem keysRead_ofMembers (members : List (String × Json)) :
    KeysRead (Tree.ofMembers members)
      (members.map fun member => (member.1, Tree.ofJson member.2)) := by
  rw [KeysRead, ofMembers_eq_map, List.forall₂_map_left_iff, List.forall₂_map_right_iff,
    List.forall₂_same]
  exact fun member _ => ⟨read_ofString member.1, rfl⟩

/-- What is read in full fits the room, with whatever numbers. So no text can make a value of
unlimited depth. -/
theorem fits_of_toJson {room : Nat} {tree : Tree} {value : Json}
    (h : tree.toJson room = .ok value) : value.Fits (fun _ => True) room := by
  induction room using Nat.strongRecOn generalizing tree value with
  | ind room ih =>
      cases tree with
      | absent damage => cases room <;> cases h
      | broken read skip => cases room <;> cases h
      | null => cases room <;> cases h <;> exact .null
      | bool value => cases room <;> cases h <;> exact .bool value
      | numeral value =>
          rw [Tree.toJson_numeral, Outcome.map_eq_ok_iff] at h
          obtain ⟨number, _, rfl⟩ := h
          exact .number trivial
      | quoted value =>
          rw [Tree.toJson_quoted, Outcome.map_eq_ok_iff] at h
          obtain ⟨text, _, rfl⟩ := h
          exact .string text
      | array items ending =>
          obtain ⟨left, values, rfl, _, rfl, hValues⟩ := Tree.toJson_array_eq_ok_iff.mp h
          apply Fits.array
          intro item hItem
          obtain ⟨_, _, hRead⟩ := Outcome.exists_of_mem_right hValues hItem
          exact ih left (Nat.lt_succ_self left) hRead
      | object members atKey ending =>
          obtain ⟨left, entries, rfl, _, rfl, hEntries⟩ := Tree.toJson_object_eq_ok_iff.mp h
          apply Fits.object
          intro member hMember
          obtain ⟨_, _, _, hRead⟩ := Outcome.exists_of_mem_right hEntries hMember
          exact ih left (Nat.lt_succ_self left) hRead

/-- A value that fits is read back. Without the limits on its depth and numbers it need not be. -/
theorem Fits.toJson_ofJson {room : Nat} {value : Json} (h : Fits Number.IsWord room value) :
    (Tree.ofJson value).toJson room = .ok value := by
  induction h with
  | @null room => cases room <;> rfl
  | @bool room value => cases room <;> rfl
  | number hKind =>
      rw [Tree.ofJson, Tree.toJson_numeral, hKind.read_numeral]
      rfl
  | string value =>
      rw [Tree.ofJson, Tree.toJson_quoted, read_ofString]
      rfl
  | @array room items _ ih =>
      rw [Tree.ofJson, Tree.toJson_array_eq_ok_iff, ofItems_eq_map]
      refine ⟨room, items, rfl, rfl, rfl, ?_⟩
      rw [List.forall₂_map_left_iff, List.forall₂_same]
      exact ih
  | @object room members _ ih =>
      rw [Tree.ofJson, Tree.toJson_object_eq_ok_iff, ofMembers_eq_map]
      refine ⟨room, members, rfl, rfl, rfl, ?_⟩
      rw [List.forall₂_map_left_iff, List.forall₂_same]
      exact fun member hMember => ⟨read_ofString member.1, ih member hMember⟩

end EventManifest.Json
