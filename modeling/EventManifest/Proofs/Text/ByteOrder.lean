import Mathlib.Data.String.Basic

/-!
The order of strings. They are compared by code points, and that is the order of their UTF-8 bytes
too: a code point with more bytes has a greater first byte, and among those with equally many bytes
the more significant bits come first.
-/

namespace EventManifest.Text

theorem loop_toList_eq_drop (bytes : ByteArray) (i : Nat) (seen : List UInt8) :
    ByteArray.toList.loop bytes i seen = seen.reverse ++ bytes.data.toList.drop i := by
  fun_induction ByteArray.toList.loop bytes i seen with
  | case1 i seen hi ih =>
      have hHere : i < bytes.data.toList.length := by simpa using hi
      have hByte : bytes.get! i = bytes.data.toList.get ⟨i, hHere⟩ := by
        simpa [ByteArray.get!] using getElem!_pos bytes.data i hi
      rw [ih, List.drop_eq_getElem_cons hHere, List.reverse_cons, hByte]
      simp
  | case2 i seen hi =>
      rw [List.drop_of_length_le (by simpa using hi), List.append_nil]

/-- The bytes of a text are those of its characters in a row. -/
theorem toUTF8_toList (s : String) :
    s.toUTF8.toList = s.toList.flatMap String.utf8EncodeChar := by
  have hData : s.toUTF8.data.toList = s.toList.flatMap String.utf8EncodeChar := by
    rw [String.toUTF8, ← String.utf8Encode_toList, List.utf8Encode, List.toList_data_toByteArray]
  rw [ByteArray.toList, loop_toList_eq_drop, hData]
  rfl

/-- The bytes of a code point with so many bytes behind the first. The first has a mark and the
leading bits, and each of the others has six bits. -/
def codeBytes (mark : Nat) : (count : Nat) → Nat → List UInt8
  | 0, v => [UInt8.ofNat (v + mark)]
  | count + 1, v => codeBytes mark count (v / 64) ++ [UInt8.ofNat (v % 64 + 128)]

/-- Bytes are compared from the left, and the first difference counts. -/
theorem lt_of_first_lt {a b : Nat} (h : a < b) (hb : b < 256) (xs ys : List UInt8) :
    UInt8.ofNat a :: xs < UInt8.ofNat b :: ys := by
  refine List.cons_lt_cons_iff.mpr (Or.inl ?_)
  rw [UInt8.lt_iff_toNat_lt, UInt8.toNat_ofNat', UInt8.toNat_ofNat']
  omega

/-- Equally many bytes are in the order of their code points, whatever stands behind them. By
induction on the number of bytes behind the first. -/
theorem codeBytes_lt (mark count : Nat) {v w : Nat} (h : v < w)
    (hFirst : w / Nat.pow 64 count + mark < 256) (xs ys : List UInt8) :
    codeBytes mark count v ++ xs < codeBytes mark count w ++ ys := by
  induction count generalizing v w xs ys with
  | zero =>
      have hw : w + mark < 256 := by simpa [Nat.pow] using hFirst
      exact lt_of_first_lt (by omega) hw xs ys
  | succ count ih =>
      simp only [codeBytes, List.append_assoc, List.cons_append, List.nil_append]
      -- Either the leading bits decide already, or they agree and the last six bits do.
      rcases Nat.lt_or_ge (v / 64) (w / 64) with hLead | hLead
      · refine ih hLead ?_ _ _
        rwa [Nat.div_div_eq_div_mul, Nat.mul_comm]
      · have hSame : v / 64 = w / 64 := by omega
        rw [hSame]
        exact List.append_left_lt (lt_of_first_lt (by omega) (by omega) _ _)

/-- The four lengths of a code point, with the range of each. The ranges follow each other, so
longer codes stand for larger code points. -/
theorem utf8EncodeChar_cases (c : Char) :
    (c.val.toNat < 0x80 ∧ String.utf8EncodeChar c = codeBytes 0 0 c.val.toNat) ∨
    (0x80 ≤ c.val.toNat ∧ c.val.toNat < 0x800 ∧
      String.utf8EncodeChar c = codeBytes 0xc0 1 c.val.toNat) ∨
    (0x800 ≤ c.val.toNat ∧ c.val.toNat < 0x10000 ∧
      String.utf8EncodeChar c = codeBytes 0xe0 2 c.val.toNat) ∨
    (0x10000 ≤ c.val.toNat ∧ c.val.toNat < 0x110000 ∧
      String.utf8EncodeChar c = codeBytes 0xf0 3 c.val.toNat) := by
  have hValid : c.val.toNat < 0x110000 := by
    rcases c.valid with hLow | ⟨_, hHigh⟩
    · exact Nat.lt_trans hLow (by decide)
    · exact hHigh
  generalize hv : c.val.toNat = v at hValid ⊢
  simp only [String.utf8EncodeChar, hv]
  split
  · exact Or.inl ⟨by omega, rfl⟩
  · split
    · refine Or.inr (Or.inl ⟨by omega, by omega, ?_⟩)
      simp [codeBytes, Nat.mod_eq_of_lt (show v / 64 < 32 by omega)]
    · split
      · refine Or.inr (Or.inr (Or.inl ⟨by omega, by omega, ?_⟩))
        simp [codeBytes, Nat.div_div_eq_div_mul, Nat.mod_eq_of_lt (show v / 4096 < 16 by omega)]
      · refine Or.inr (Or.inr (Or.inr ⟨by omega, by omega, ?_⟩))
        simp [codeBytes, Nat.div_div_eq_div_mul, Nat.mod_eq_of_lt (show v / 262144 < 8 by omega)]

/-- Code points are in the order of their bytes, of whatever lengths these are. The marks of longer
codes are larger. -/
theorem utf8EncodeChar_lt {c d : Char} (h : c < d) (xs ys : List UInt8) :
    String.utf8EncodeChar c ++ xs < String.utf8EncodeChar d ++ ys := by
  have hLess : c.val.toNat < d.val.toNat := h
  rcases utf8EncodeChar_cases c with ⟨_, hc⟩ | ⟨_, _, hc⟩ | ⟨_, _, hc⟩ | ⟨_, _, hc⟩ <;>
    rcases utf8EncodeChar_cases d with ⟨_, hd⟩ | ⟨_, _, hd⟩ | ⟨_, _, hd⟩ | ⟨_, _, hd⟩ <;>
    rw [hc, hd]
  -- Equally many bytes
  case inl.inl | inr.inl.inr.inl | inr.inr.inl.inr.inr.inl | inr.inr.inr.inr.inr.inr =>
    refine codeBytes_lt _ _ hLess ?_ xs ys
    simp only [Nat.pow, Nat.mul_eq]
    omega
  -- Fewer bytes, which show in the first one
  all_goals
    simp only [codeBytes, List.cons_append, List.nil_append]
    exact lt_of_first_lt (by omega) (by omega) _ _

theorem flatMap_utf8EncodeChar_lt {cs ds : List Char} (h : cs < ds) :
    cs.flatMap String.utf8EncodeChar < ds.flatMap String.utf8EncodeChar := by
  induction cs generalizing ds with
  | nil =>
      cases ds with
      | nil => exact absurd h (List.lt_irrefl [])
      | cons d ds =>
          obtain ⟨byte, rest, hBytes⟩ :=
            List.exists_cons_of_ne_nil (String.utf8EncodeChar_ne_nil : String.utf8EncodeChar d ≠ [])
          rw [List.flatMap_cons, hBytes]
          exact List.nil_lt_cons byte _
  | cons c cs ih =>
      cases ds with
      | nil => exact absurd h (List.not_lt_nil (c :: cs))
      | cons d ds =>
          rw [List.flatMap_cons, List.flatMap_cons]
          rcases List.cons_lt_cons_iff.mp h with hHead | ⟨rfl, hTail⟩
          · exact utf8EncodeChar_lt hHead _ _
          · exact List.append_left_lt (ih hTail)

/-- Strings are in the order of their UTF-8 bytes. So sorting by one order is sorting by the
other. -/
theorem toUTF8_lt_of_lt {s t : String} (h : s < t) : s.toUTF8.toList < t.toUTF8.toList := by
  rw [toUTF8_toList, toUTF8_toList]
  exact flatMap_utf8EncodeChar_lt (String.lt_iff_toList_lt.mp h)

end EventManifest.Text
