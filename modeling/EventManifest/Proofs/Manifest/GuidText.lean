import EventManifest.Manifest.Format
import EventManifest.Proofs.Json.Reading
import EventManifest.Proofs.Text.Hex
import EventManifest.Proofs.Text.Slice
import Mathlib.Data.List.Induction
import Mathlib.Tactic.Ring

/-!
The texts of GUIDs. A text is read as a GUID exactly if it has five groups of hexadecimal digits
between hyphens, bare or in one pair of braces, and the GUID is written as that text without braces
and in lower case. Every part of the text that is turned into a number has one that fits its field.
-/

namespace EventManifest

namespace Text

/-- A hexadecimal digit of either case. -/
def IsHexDigit (c : Char) : Prop :=
  ('0' ≤ c ∧ c ≤ '9') ∨ ('a' ≤ c ∧ c ≤ 'f') ∨ ('A' ≤ c ∧ c ≤ 'F')

instance (c : Char) : Decidable (IsHexDigit c) :=
  inferInstanceAs (Decidable (_ ∨ _))

/-- Digits have values in both cases of their letters, and nothing else has one. -/
theorem isSome_hexValue?_iff {c : Char} : (hexValue? c).isSome = true ↔ IsHexDigit c := by
  rw [hexValue?, IsHexDigit]
  split_ifs <;> simp_all

/-- What is known of the digits among the characters of one byte. They are few enough to be gone
through. -/
theorem hexValue?_ofNat : ∀ n < 128, ∀ value ∈ hexValue? (Char.ofNat n),
    value < 16 ∧ Nat.digitChar value = (Char.ofNat n).toLower ∧ (Char.ofNat n).utf8Size = 1 := by
  decide

theorem lt_of_isHexDigit {c : Char} (h : IsHexDigit c) : c.toNat < 128 := by
  rcases h with ⟨_, hLast⟩ | ⟨_, hLast⟩ | ⟨_, hLast⟩ <;>
    exact Nat.lt_of_le_of_lt (show c.toNat ≤ _ from hLast) (by decide)

/-- A digit is written in lower case for its value. So writing does not give back the case in which
a digit was read. -/
theorem digit_of_hexValue? {c : Char} {value : Nat} (h : hexValue? c = some value) :
    value < 16 ∧ Nat.digitChar value = c.toLower ∧ c.utf8Size = 1 := by
  have hDigit : IsHexDigit c := isSome_hexValue?_iff.mp (by rw [h]; rfl)
  have hTable := hexValue?_ofNat c.toNat (lt_of_isHexDigit hDigit)
  rw [Char.ofNat_toNat] at hTable
  exact hTable value h

theorem utf8Size_of_isHexDigit {c : Char} (h : IsHexDigit c) : c.utf8Size = 1 := by
  obtain ⟨value, hValue⟩ := Option.isSome_iff_exists.mp (isSome_hexValue?_iff.mpr h)
  exact (digit_of_hexValue? hValue).2.2

/-- A run is read exactly if all its characters are digits. The empty run is read as zero. -/
theorem isSome_readHex?_iff {cs : List Char} :
    (readHex? cs).isSome = true ↔ ∀ c ∈ cs, IsHexDigit c := by
  induction cs using List.reverseRecOn with
  | nil => simp [readHex?]
  | append_singleton cs c ih =>
      have hEach : (∀ d ∈ cs ++ [c], IsHexDigit d) ↔ (∀ d ∈ cs, IsHexDigit d) ∧ IsHexDigit c := by
        simp [or_imp, forall_and]
      rw [hEach, ← ih, ← isSome_hexValue?_iff, readHex?_concat]
      cases readHex? cs <;> simp

/-- A run of digits denotes a number of its width, which is written as the run in lower case.
Leading zeros are kept. -/
theorem fixedHex_of_readHex? {cs : List Char} {n : Nat} (h : readHex? cs = some n) :
    n < 16 ^ cs.length ∧ fixedHex cs.length n = cs.map Char.toLower := by
  induction cs using List.reverseRecOn generalizing n with
  | nil =>
      cases h
      exact ⟨by decide, rfl⟩
  | append_singleton cs c ih =>
      rw [readHex?_concat] at h
      obtain ⟨m, hm, hDigit⟩ := Option.bind_eq_some_iff.mp h
      obtain ⟨value, hValue, rfl⟩ := Option.map_eq_some_iff.mp hDigit
      obtain ⟨hBound, hText⟩ := ih hm
      obtain ⟨hSmall, hChar, _⟩ := digit_of_hexValue? hValue
      have hQuotient : (16 * m + value) / 16 = m := by omega
      have hRemainder : (16 * m + value) % 16 = value := by omega
      rw [List.length_append, List.length_singleton]
      constructor
      · rw [pow_succ]
        omega
      · rw [fixedHex, hQuotient, hRemainder, hText, hChar, List.map_append, List.map_singleton]

/-- Runs are read one after the other, the first one shifted by the width of the second. -/
theorem readHex?_append (as bs : List Char) :
    readHex? (as ++ bs) =
      (readHex? as).bind fun m => (readHex? bs).map (m * 16 ^ bs.length + ·) := by
  induction bs using List.reverseRecOn with
  | nil =>
      rw [List.append_nil]
      cases readHex? as <;> simp [readHex?]
  | append_singleton bs c ih =>
      rw [← List.append_assoc, readHex?_concat, ih, readHex?_concat, List.length_append,
        List.length_singleton, pow_succ]
      cases readHex? as with
      | none => rfl
      | some m =>
          cases readHex? bs with
          | none => rfl
          | some k =>
              cases hexValue? c with
              | none => rfl
              | some value =>
                  simp only [Option.bind_some, Option.map_some, Option.some.injEq]
                  ring

theorem readHex?_append_eq_some_iff {as bs : List Char} {n : Nat} :
    readHex? (as ++ bs) = some n ↔
      ∃ m k, readHex? as = some m ∧ readHex? bs = some k ∧ m * 16 ^ bs.length + k = n := by
  simp [readHex?_append, Option.bind_eq_some_iff, Option.map_eq_some_iff]

/-- A run of hexadecimal digits of a fixed width. -/
structure HexDigits (width : Nat) where
  chars : List Char
  length_chars : chars.length = width
  isHexDigit : ∀ c ∈ chars, IsHexDigit c

namespace HexDigits

variable {width : Nat} (digits : HexDigits width)

/-- The number that the digits denote. There always is one. -/
def value : Nat :=
  (readHex? digits.chars).get (isSome_readHex?_iff.mpr digits.isHexDigit)

theorem readHex?_chars : readHex? digits.chars = some digits.value :=
  (Option.some_get _).symm

/-- A run denotes a number of its width, so that it fits its field without being cut. -/
theorem value_lt : digits.value < 16 ^ width := by
  have hBound := (fixedHex_of_readHex? digits.readHex?_chars).1
  rwa [digits.length_chars] at hBound

/-- The number is written with the width of the run. -/
theorem fixedHex_value : fixedHex width digits.value = digits.chars.map Char.toLower := by
  have hText := (fixedHex_of_readHex? digits.readHex?_chars).2
  rwa [digits.length_chars] at hText

end HexDigits

end Text

namespace Bytes

/-- The bytes of a number, the lowest first. -/
theorem getElem?_littleEndian {width n i : Nat} (hi : i < width) :
    (littleEndian width n)[i]? = some (UInt8.ofNat (n / 256 ^ i)) := by
  induction width generalizing n i with
  | zero => cases hi
  | succ width ih =>
      cases i with
      | zero => simp [littleEndian]
      | succ i =>
          rw [littleEndian, List.getElem?_cons_succ, ih (Nat.lt_of_succ_lt_succ hi),
            Nat.div_div_eq_div_mul, pow_succ']

/-- The bytes of a number, the highest first. -/
theorem getElem?_bigEndian {width n i : Nat} (hi : i < width) :
    (bigEndian width n)[i]? = some (UInt8.ofNat (n / 256 ^ (width - 1 - i))) := by
  rw [bigEndian, List.getElem?_reverse (by simpa using hi), length_littleEndian,
    getElem?_littleEndian (by omega)]

/-- The bytes of a number are the pairs of its digits. What stands before a pair is divided away
and what stands behind it is cut off. -/
theorem getElem?_bigEndian_of_readHex? {before pair after : List Char} {n i width : Nat}
    (h : Text.readHex? (before ++ pair ++ after) = some n) (hPair : pair.length = 2)
    (hAfter : after.length = 2 * (width - 1 - i)) (hi : i < width) :
    ∃ byte, (bigEndian width n)[i]? = some byte ∧ Text.readHex? pair = some byte.toNat := by
  obtain ⟨_, a, hFront, ha, rfl⟩ := Text.readHex?_append_eq_some_iff.mp h
  obtain ⟨b, p, _, hp, rfl⟩ := Text.readHex?_append_eq_some_iff.mp hFront
  have hSmall : a < 16 ^ after.length := (Text.fixedHex_of_readHex? ha).1
  have hByte : p < 16 ^ pair.length := (Text.fixedHex_of_readHex? hp).1
  have hWidth : 16 ^ after.length = 256 ^ (width - 1 - i) := by
    rw [hAfter, pow_mul]
    rfl
  rw [hWidth] at hSmall ⊢
  rw [hPair] at hByte ⊢
  refine ⟨_, getElem?_bigEndian hi, ?_⟩
  rw [hp, Nat.mul_comm _ (256 ^ _), Nat.mul_add_div (Nat.pos_of_ne_zero (by positivity)),
    Nat.div_eq_of_lt hSmall, UInt8.toNat_ofNat']
  congr 1
  omega

end Bytes

namespace Guid

open Json

/-- The five groups of digits in the text of a GUID. -/
structure Groups where
  first : Text.HexDigits 8
  second : Text.HexDigits 4
  third : Text.HexDigits 4
  fourth : Text.HexDigits 4
  fifth : Text.HexDigits 12

namespace Groups

/-- The groups joined by hyphens. -/
def chars (gs : Groups) : List Char :=
  gs.first.chars ++ '-' :: (gs.second.chars ++ '-' :: (gs.third.chars ++
    '-' :: (gs.fourth.chars ++ '-' :: gs.fifth.chars)))

/-- The last two groups, whose digits are the bytes of one field. -/
def tail (gs : Groups) : List Char :=
  gs.fourth.chars ++ gs.fifth.chars

/-- A text has these groups, as they are or in one pair of braces. -/
def Spell (gs : Groups) (text : String) : Prop :=
  text.toList = gs.chars ∨ text.toList = '\x7b' :: (gs.chars ++ ['\x7d'])

/-- The last two groups fit 64 bits together. -/
theorem value_tail_lt (gs : Groups) :
    gs.fourth.value * 0x1000000000000 + gs.fifth.value < UInt64.size := by
  have hFourth : gs.fourth.value < 0x10000 := gs.fourth.value_lt
  have hFifth : gs.fifth.value < 0x1000000000000 := gs.fifth.value_lt
  simp only [UInt64.size]
  omega

/-- The GUID that the groups denote. Each number fits its field. -/
def guid (gs : Groups) : Guid where
  data1 := .ofNatLT gs.first.value gs.first.value_lt
  data2 := .ofNatLT gs.second.value gs.second.value_lt
  data3 := .ofNatLT gs.third.value gs.third.value_lt
  data4 := .ofNatLT (gs.fourth.value * 0x1000000000000 + gs.fifth.value) gs.value_tail_lt

/-- They are read as one number, whose bytes stand in the order of the text. -/
theorem readHex?_tail (gs : Groups) : Text.readHex? gs.tail = some gs.guid.data4.toNat := by
  rw [tail, Text.readHex?_append, gs.fourth.readHex?_chars, gs.fifth.readHex?_chars,
    gs.fifth.length_chars]
  rfl

theorem isHexDigit_of_mem_tail {gs : Groups} {c : Char} (h : c ∈ gs.tail) : Text.IsHexDigit c := by
  rcases List.mem_append.mp h with h | h
  · exact gs.fourth.isHexDigit c h
  · exact gs.fifth.isHexDigit c h

theorem length_tail (gs : Groups) : gs.tail.length = 16 := by
  rw [tail, List.length_append, gs.fourth.length_chars, gs.fifth.length_chars]

/-- The GUID is written as its groups in lower case, without braces. -/
theorem toChars_guid (gs : Groups) : gs.guid.toChars = gs.chars.map Char.toLower := by
  have hFifth : gs.fifth.value < 0x1000000000000 := gs.fifth.value_lt
  have hHigh : gs.guid.data4.toNat / 0x1000000000000 = gs.fourth.value := by
    change (gs.fourth.value * 0x1000000000000 + gs.fifth.value) / 0x1000000000000 = _
    omega
  have hLow : gs.guid.data4.toNat % 0x1000000000000 = gs.fifth.value := by
    change (gs.fourth.value * 0x1000000000000 + gs.fifth.value) % 0x1000000000000 = _
    omega
  have hHyphen : Char.toLower '-' = '-' := by decide
  rw [toChars, hHigh, hLow]
  simp only [chars, List.map_append, List.map_cons, ← Text.HexDigits.fixedHex_value, hHyphen,
    List.append_assoc, List.cons_append]
  rfl

end Groups

/-- A group is taken exactly if the text begins with as many digits as it needs. More digits may
follow, and are left. -/
theorem takeGroup?_eq_some_iff {width n : Nat} {cs rest : List Char} :
    takeGroup? width cs = some (n, rest) ↔
      ∃ digits : Text.HexDigits width, cs = digits.chars ++ rest ∧ digits.value = n := by
  rw [takeGroup?]
  constructor
  · intro h
    split at h
    · rename_i hLength
      obtain ⟨value, hValue, hPair⟩ := Option.map_eq_some_iff.mp h
      cases hPair
      have hDigits := Text.isSome_readHex?_iff.mp (Option.isSome_of_eq_some hValue)
      refine ⟨⟨cs.take width, hLength, hDigits⟩, (List.take_append_drop width cs).symm, ?_⟩
      exact Option.some.inj ((Text.HexDigits.readHex?_chars _).symm.trans hValue)
    · cases h
  · rintro ⟨digits, rfl, rfl⟩
    rw [List.take_left' digits.length_chars, List.drop_left' digits.length_chars,
      if_pos digits.length_chars, digits.readHex?_chars]
    rfl

theorem takeHyphen?_eq_some_iff {cs rest : List Char} :
    takeHyphen? cs = some rest ↔ cs = '-' :: rest := by
  constructor
  · intro h
    rw [takeHyphen?.eq_def] at h
    split at h
    · rw [Option.some.inj h]
    · cases h
  · rintro rfl
    rfl

/-- Groups are read up to the end of the text. Neither blanks nor anything else may stand around
them. -/
theorem ofGroups?_eq_some_iff {cs : List Char} {g : Guid} :
    ofGroups? cs = some g ↔ ∃ gs : Groups, cs = gs.chars ∧ gs.guid = g := by
  simp only [ofGroups?, Option.bind_eq_bind, Option.bind_eq_some_iff, Prod.exists,
    takeGroup?_eq_some_iff, takeHyphen?_eq_some_iff]
  constructor
  · rintro ⟨_, _, ⟨first, rfl, rfl⟩, _, rfl, _, _, ⟨second, rfl, rfl⟩, _, rfl, _, _,
      ⟨third, rfl, rfl⟩, _, rfl, _, _, ⟨fourth, rfl, rfl⟩, _, rfl, _, rest, ⟨fifth, rfl, rfl⟩, h⟩
    split at h
    · rename_i hEmpty
      obtain rfl := List.isEmpty_iff.mp hEmpty
      refine ⟨⟨first, second, third, fourth, fifth⟩, ?_, ?_⟩
      · rw [Groups.chars, List.append_nil]
      · rw [← Option.some.inj h, Groups.guid]
        simp only [UInt32.ofNatLT_eq_ofNat, UInt16.ofNatLT_eq_ofNat, UInt64.ofNatLT_eq_ofNat]
    · cases h
  · rintro ⟨gs, rfl, rfl⟩
    refine ⟨_, _, ⟨gs.first, rfl, rfl⟩, _, rfl, _, _, ⟨gs.second, rfl, rfl⟩, _, rfl, _, _,
      ⟨gs.third, rfl, rfl⟩, _, rfl, _, _, ⟨gs.fourth, rfl, rfl⟩, _, rfl, _, [],
      ⟨gs.fifth, by rw [List.append_nil], rfl⟩, ?_⟩
    rw [List.isEmpty_nil, if_pos rfl, Groups.guid]
    simp only [UInt32.ofNatLT_eq_ofNat, UInt16.ofNatLT_eq_ofNat, UInt64.ofNatLT_eq_ofNat]

theorem Groups.head_chars (gs : Groups) :
    ∃ c cs, gs.chars = c :: cs ∧ Text.IsHexDigit c := by
  obtain ⟨⟨chars, hLength, hDigits⟩, _, _, _, _⟩ := gs
  cases chars with
  | nil => cases hLength
  | cons c cs => exact ⟨c, _, rfl, hDigits c List.mem_cons_self⟩

/-- Braces are taken away in pairs, and groups have none. So a single brace or a second pair is not
accepted. -/
theorem unbraceChars_eq_chars_iff {cs : List Char} {gs : Groups} :
    unbraceChars cs = gs.chars ↔ cs = gs.chars ∨ cs = '\x7b' :: (gs.chars ++ ['\x7d']) := by
  constructor
  · intro h
    cases cs with
    | nil => exact Or.inl h
    | cons c rest =>
        rw [unbraceChars] at h
        split at h
        · rename_i hBraces
          obtain ⟨rfl, hLast⟩ := hBraces
          right
          rw [← h, List.dropLast_append_getLast? _ hLast]
        · exact Or.inl h
  · rintro (rfl | rfl)
    · obtain ⟨c, cs, hHead, hDigit⟩ := gs.head_chars
      have hBrace : c ≠ '\x7b' := by
        rintro rfl
        exact absurd hDigit (by decide)
      rw [hHead, unbraceChars, if_neg fun hBraces => hBrace hBraces.1]
    · rw [unbraceChars, if_pos ⟨rfl, List.getLast?_concat⟩, List.dropLast_concat]

/-- The texts of GUIDs, with what they denote. Two texts may denote the same GUID, by braces and by
case. -/
theorem ofString?_eq_some_iff {text : String} {g : Guid} :
    ofString? text = some g ↔ ∃ gs : Groups, gs.Spell text ∧ gs.guid = g := by
  simp only [ofString?, ofGroups?_eq_some_iff, unbraceChars_eq_chars_iff, Groups.Spell]

/-- The numbers that the groups and the pairs of the last two are turned into are the fields and
bytes of a GUID. A pair is cut out of the text by byte offsets. -/
structure Groups.Denote (gs : Groups) (g : Guid) : Prop where
  data1 : Text.readHex? gs.first.chars = some g.data1.toNat
  data2 : Text.readHex? gs.second.chars = some g.data2.toNat
  data3 : Text.readHex? gs.third.chars = some g.data3.toNat
  data4 : ∀ i < 8, ∃ pair byte,
    Text.slice? (String.ofList gs.tail) (2 * i) (2 * i + 2) = some pair ∧
      Text.readHex? pair.toList = some byte.toNat ∧ g.tailBytes[i]? = some byte

/-- The number of each group is that of its field, by the order of bytes that the field has. -/
theorem Groups.denote_guid (gs : Groups) : gs.Denote gs.guid where
  data1 := gs.first.readHex?_chars
  data2 := gs.second.readHex?_chars
  data3 := gs.third.readHex?_chars
  data4 := by
    intro i hi
    have hLength := gs.length_tail
    have hSlice := Text.slice?_of_forall (i := 2 * i) (j := 2 * i + 2)
      (fun c hc => Text.utf8Size_of_isHexDigit (gs.isHexDigit_of_mem_tail hc)) (by omega) (by omega)
    have hTail : (gs.tail.take (2 * i + 2)).take (2 * i) ++
        (gs.tail.take (2 * i + 2)).drop (2 * i) ++ gs.tail.drop (2 * i + 2) = gs.tail := by
      rw [List.take_append_drop, List.take_append_drop]
    obtain ⟨byte, hByte, hRead⟩ := Bytes.getElem?_bigEndian_of_readHex? (hTail ▸ gs.readHex?_tail)
      (by simp; omega) (by simp; omega) hi
    exact ⟨_, byte, hSlice, by rw [String.toList_ofList]; exact hRead, hByte⟩

/-- What is read as a GUID. A text is read exactly if it has the groups of one, bare or in braces,
and the GUID is written as these groups in lower case; every GUID is read from what is written for
it. No number of a text with such groups is missing or too large. Any other text is refused, and the
refusal quotes it. -/
theorem texts_settled :
    (∀ text : String, (∃ g, ofString? text = some g) ↔ ∃ gs : Groups, gs.Spell text) ∧
      (∀ g : Guid, ofString? g.toText = some g) ∧
      (∀ (text : String) (g : Guid), ofString? text = some g →
        ∃ gs : Groups, gs.Spell text ∧ g.toText = String.ofList (gs.chars.map Char.toLower)) ∧
      (∀ (gs : Groups) (text : String), gs.Spell text →
        ∃ g, ofString? text = some g ∧ gs.Denote g) ∧
      ∀ (room : Nat) (tree : Tree) (text : String), Codec.text.read room tree = .ok text →
        (¬ ∃ gs : Groups, gs.Spell text) →
          ∃ fault, codec.read room tree = .error fault ∧
            fault.message = "malformed GUID '" ++ text ++ "'" := by
  have hReads (text : String) : (∃ g, ofString? text = some g) ↔ ∃ gs : Groups, gs.Spell text := by
    simp [ofString?_eq_some_iff]
  refine ⟨hReads, ofString?_toText, ?_, ?_, ?_⟩
  · intro text g h
    obtain ⟨gs, hSpell, rfl⟩ := ofString?_eq_some_iff.mp h
    exact ⟨gs, hSpell, by rw [toText, gs.toChars_guid]⟩
  · intro gs text hSpell
    exact ⟨gs.guid, ofString?_eq_some_iff.mpr ⟨gs, hSpell, rfl⟩, gs.denote_guid⟩
  · intro room tree text hText hOther
    have hNone : ofString? text = none := by
      rw [← hReads text] at hOther
      simpa [Option.eq_none_iff_forall_ne_some] using hOther
    refine ⟨.rejected (.refused (malformedMessage text)), ?_, rfl⟩
    exact Outcome.bind_eq_error_iff.mpr (Or.inr ⟨text, hText, by rw [hNone]; rfl⟩)

/-- Groups in both cases. -/
def mixedCase : Groups where
  first := ⟨['0', '1', '2', '3', '4', '5', '6', '7'], rfl, Text.isSome_readHex?_iff.mp (by decide)⟩
  second := ⟨['8', '9', 'A', 'B'], rfl, Text.isSome_readHex?_iff.mp (by decide)⟩
  third := ⟨['c', 'd', 'e', 'f'], rfl, Text.isSome_readHex?_iff.mp (by decide)⟩
  fourth := ⟨['0', '0', 'a', 'F'], rfl, Text.isSome_readHex?_iff.mp (by decide)⟩
  fifth := ⟨['0', '1', '2', '3', '4', '5', '6', '7', '8', '9', 'A', 'b'], rfl,
    Text.isSome_readHex?_iff.mp (by decide)⟩

/-- The groups in braces are read, and a text of another kind is refused. Its first character has
two bytes, which do not count as two digits. -/
theorem texts_settled_mixedCase :
    mixedCase.Spell "\x7b01234567-89AB-cdef-00aF-0123456789Ab\x7d" ∧
      (∃ g, ofString? "\x7b01234567-89AB-cdef-00aF-0123456789Ab\x7d" = some g ∧
        mixedCase.Denote g ∧
        ∃ gs : Groups, gs.Spell "\x7b01234567-89AB-cdef-00aF-0123456789Ab\x7d" ∧
          g.toText = String.ofList (gs.chars.map Char.toLower)) ∧
      ∃ fault, codec.read 1 (.quoted (.ofString "é-")) = .error fault ∧
        fault.message = "malformed GUID '" ++ "é-" ++ "'" := by
  obtain ⟨hReads, _, hWritten, hDenoted, hRefused⟩ := texts_settled
  have hSpell : mixedCase.Spell "\x7b01234567-89AB-cdef-00aF-0123456789Ab\x7d" :=
    Or.inr (by decide)
  obtain ⟨g, hg, hDenote⟩ := hDenoted _ _ hSpell
  have hOther : ¬ ∃ gs : Groups, gs.Spell "é-" := by
    rw [← hReads, show ofString? "é-" = none by decide]
    simp
  exact ⟨hSpell, ⟨g, hg, hDenote, hWritten _ g hg⟩, hRefused 1 _ "é-" rfl hOther⟩

end Guid

end EventManifest
