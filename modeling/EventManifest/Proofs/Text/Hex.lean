import EventManifest.Guid
import Mathlib.Algebra.Order.Group.Nat
import Mathlib.Data.Nat.Digits.Defs

/-!
Hexadecimal digits are read back as the number they were written for, whatever their width, and so
is the text of a GUID.
-/

namespace EventManifest

namespace Text

theorem hexValue?_digitChar {n : Nat} (h : n < 16) : hexValue? (Nat.digitChar n) = some n := by
  decide +revert

/-- The last digit counts for itself, and the others for sixteen times as much. -/
theorem readHex?_concat (digits : List Char) (c : Char) :
    readHex? (digits ++ [c]) =
      (readHex? digits).bind fun value => (hexValue? c).map (16 * value + ·) := by
  simp [readHex?]

theorem readHex?_append_digit (digits : List Char) {n : Nat} (h : n < 16) :
    readHex? (digits ++ [Nat.digitChar n]) = (readHex? digits).map fun value => 16 * value + n := by
  rw [readHex?_concat, hexValue?_digitChar h]
  cases readHex? digits <;> rfl

/-- A numeral of fixed width is read back, if the width is enough. Otherwise the leading digits are
lost. -/
theorem readHex?_fixedHex {width n : Nat} (h : n < 16 ^ width) :
    readHex? (fixedHex width n) = some n := by
  induction width generalizing n with
  | zero =>
      obtain rfl : n = 0 := by simpa using h
      rfl
  | succ width ih =>
      have hQuotient : n / 16 < 16 ^ width := by
        rw [pow_succ] at h
        exact Nat.div_lt_of_lt_mul (by omega)
      rw [fixedHex, readHex?_append_digit _ (Nat.mod_lt n (by decide)), ih hQuotient,
        Option.map_some, Nat.div_add_mod]

/-- A numeral of no fixed width is read back as well, for numbers of any size. -/
theorem readHex?_toDigits (n : Nat) : readHex? (Nat.toDigits 16 n) = some n := by
  induction n using Nat.base_induction 16 (by decide) with
  | single m hm =>
      have hDigit := readHex?_append_digit [] hm
      simpa [Nat.toDigits_of_lt_base hm, readHex?] using hDigit
  | digit m k hk hm ih =>
      rw [← Nat.toDigits_append_toDigits (by decide) hm hk, Nat.toDigits_of_lt_base hk,
        readHex?_append_digit _ hk, ih, Option.map_some]

/-- So no two numbers have the same numeral. -/
theorem toDigits_injective : Function.Injective (Nat.toDigits 16) := by
  intro m n h
  have hRead := congrArg readHex? h
  simpa [readHex?_toDigits] using hRead

/-- A numeral has nothing but digits of its base. There is no sign and no mark of the base. -/
theorem exists_digitChar_of_mem_toDigits {base n : Nat} (hBase : 1 < base) {c : Char}
    (hc : c ∈ Nat.toDigits base n) : ∃ k < base, c = Nat.digitChar k := by
  induction n using Nat.base_induction base hBase with
  | single m hm =>
      rw [Nat.toDigits_of_lt_base hm, List.mem_singleton] at hc
      exact ⟨m, hm, hc⟩
  | digit m k hk hm ih =>
      rw [← Nat.toDigits_append_toDigits hBase hm hk, Nat.toDigits_of_lt_base hk,
        List.mem_append, List.mem_singleton] at hc
      rcases hc with hc | hc
      · exact ih hc
      · exact ⟨k, hk, hc⟩

/-- A digit is no punctuation. This keeps the groups of a GUID apart from its hyphens. -/
theorem hexValue?_of_mem_fixedHex {width n : Nat} {c : Char} (hc : c ∈ fixedHex width n) :
    (hexValue? c).isSome = true := by
  induction width generalizing n with
  | zero => cases hc
  | succ width ih =>
      rcases List.mem_append.mp hc with hc | hc
      · exact ih hc
      · rw [List.mem_singleton.mp hc, hexValue?_digitChar (Nat.mod_lt n (by decide))]
        rfl

end Text

namespace Guid

/-- A group is read back with its width, whatever stands behind it, even another digit. -/
theorem takeGroup?_fixedHex {width n : Nat} (h : n < 16 ^ width) (rest : List Char) :
    takeGroup? width (Text.fixedHex width n ++ rest) = some (n, rest) := by
  have hLength := Text.length_fixedHex width n
  rw [takeGroup?, List.take_left' hLength, List.drop_left' hLength, if_pos hLength,
    Text.readHex?_fixedHex h]
  rfl

/-- The written form has no braces to take away. Texts with braces are only read. -/
theorem unbraceChars_toChars (g : Guid) : unbraceChars g.toChars = g.toChars := by
  rw [toChars]
  cases hFirst : Text.fixedHex 8 g.data1.toNat with
  | nil =>
      have hLength := Text.length_fixedHex 8 g.data1.toNat
      rw [hFirst] at hLength
      cases hLength
  | cons c digits =>
      have hMem : c ∈ Text.fixedHex 8 g.data1.toNat := hFirst ▸ List.mem_cons_self
      have hBrace : c ≠ '\x7b' := by
        rintro rfl
        cases Text.hexValue?_of_mem_fixedHex hMem
      simp [unbraceChars, hBrace]

/-- A GUID is read back from its text. The converse fails for texts in upper case or in braces,
which are written in another way. -/
theorem ofString?_toText (g : Guid) : ofString? g.toText = some g := by
  have h1 : g.data1.toNat < 16 ^ 8 := g.data1.toNat_lt
  have h2 : g.data2.toNat < 16 ^ 4 := g.data2.toNat_lt
  have h3 : g.data3.toNat < 16 ^ 4 := g.data3.toNat_lt
  have h4 : g.data4.toNat / 0x1000000000000 < 16 ^ 4 := by
    have hWord := g.data4.toNat_lt
    omega
  have h5 : g.data4.toNat % 0x1000000000000 < 16 ^ 12 := Nat.mod_lt _ (by decide)
  have hLast := takeGroup?_fixedHex h5 []
  rw [List.append_nil] at hLast
  rw [ofString?, toText, String.toList_ofList, unbraceChars_toChars]
  simp only [ofGroups?, toChars, List.append_assoc, List.cons_append, takeGroup?_fixedHex h1,
    takeGroup?_fixedHex h2, takeGroup?_fixedHex h3, takeGroup?_fixedHex h4, hLast, takeHyphen?,
    Option.bind_eq_bind, Option.bind_some, List.isEmpty_nil, if_true, Nat.div_add_mod',
    UInt32.ofNat_toNat, UInt16.ofNat_toNat, UInt64.ofNat_toNat]

end Guid

end EventManifest
