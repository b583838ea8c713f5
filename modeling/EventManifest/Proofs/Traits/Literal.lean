import EventManifest.Traits
import Mathlib.Data.List.Chain

/-!
Traits as the body of a string literal. A reader of such a literal goes through it character by
character and takes as many octal digits into an escape as it can, up to three. It gets back the
bytes that were written, whatever they are, because every octal escape has all its digits.
-/

namespace EventManifest.Traits

/-- How far a reader is in the body of a string literal. -/
inductive LiteralState where
  | plain
  /-- Behind a backslash. -/
  | escape
  /-- In an octal escape, with the value of its digits. -/
  | oneDigit (value : Nat)
  | twoDigits (value : Nat)
deriving DecidableEq, Repr

namespace LiteralState

def octalValue? (c : Char) : Option Nat :=
  if '0' ≤ c ∧ c ≤ '7' then some (c.toNat - '0'.toNat) else none

/-- The value of an octal escape must fit a byte. -/
def byte? (value : Nat) : Option UInt8 :=
  if value < 256 then some (UInt8.ofNat value) else none

/-- Outside of escapes a printable character stands for itself, and a quote ends the literal. -/
def stepPlain (c : Char) : Option (List UInt8 × LiteralState) :=
  if c = '\\' then some ([], escape)
  else if c = '"' then none
  else if 0x20 ≤ c.toNat ∧ c.toNat ≤ 0x7e then some ([UInt8.ofNat c.toNat], plain)
  else none

/-- Read one character, and return the bytes that are complete with it. -/
def step : LiteralState → Char → Option (List UInt8 × LiteralState)
  | plain, c => stepPlain c
  | escape, c =>
      if c = '"' ∨ c = '\\' ∨ c = '?' then some ([UInt8.ofNat c.toNat], plain)
      else (octalValue? c).map fun digit => ([], oneDigit digit)
  | oneDigit value, c =>
      match octalValue? c with
      | some digit => some ([], twoDigits (8 * value + digit))
      | none => do
          let byte ← byte? value
          let (bytes, next) ← stepPlain c
          return (byte :: bytes, next)
  | twoDigits value, c =>
      match octalValue? c with
      | some digit => (byte? (8 * value + digit)).map fun byte => ([byte], plain)
      | none => do
          let byte ← byte? value
          let (bytes, next) ← stepPlain c
          return (byte :: bytes, next)

/-- What is left to return at the end of the literal, which may cut an octal escape short. -/
def finish : LiteralState → Option (List UInt8)
  | plain => some []
  | escape => none
  | oneDigit value | twoDigits value => (byte? value).map ([·])

/-- Read the rest of a literal. -/
def read? (state : LiteralState) : List Char → Option (List UInt8)
  | [] => state.finish
  | c :: rest => do
      let (bytes, next) ← state.step c
      let more ← next.read? rest
      return bytes ++ more

/-- An escape with a digit less takes in a digit that stands behind it. -/
example : plain.read? ['\\', '0', '1', '2'] = some [10] ∧
    plain.read? ['\\', '1', '2'] = some [10] := by
  decide

/-- One step of the reader. The bytes that it completes come before those of the rest. -/
theorem read?_cons {state next : LiteralState} {c : Char} {bytes : List UInt8}
    (h : state.step c = some (bytes, next)) (rest : List Char) :
    state.read? (c :: rest) = (next.read? rest).map (bytes ++ ·) := by
  simp only [read?, h, Option.bind_eq_bind, Option.bind_some]
  cases next.read? rest <;> rfl

/-- A character that completes no byte only changes the state. This is so within escapes. -/
theorem read?_skip {state next : LiteralState} {c : Char} (h : state.step c = some ([], next))
    (rest : List Char) : state.read? (c :: rest) = next.read? rest := by
  simp [read?_cons h]

theorem octalValue?_digitChar {n : Nat} (h : n < 8) :
    octalValue? (Nat.digitChar n) = some n := by
  decide +revert

end LiteralState

/-- The characters of a literal that no backslash stands before, apart from the backslashes that
begin an escape. -/
def unescaped : List Char → List Char
  | '\\' :: _ :: rest => unescaped rest
  | c :: rest => c :: unescaped rest
  | [] => []

theorem unescaped_cons {c : Char} (h : c ≠ '\\') (rest : List Char) :
    unescaped (c :: rest) = c :: unescaped rest := by
  conv_lhs => unfold unescaped
  split <;> simp_all

/-- The forms of a byte in a literal. -/
inductive EscapedForm : UInt8 → List Char → Prop where
  | marked {c : Char} (hMark : c = '"' ∨ c = '\\' ∨ c = '?') :
      EscapedForm (UInt8.ofNat c.toNat) ['\\', c]
  | printable {c : Char} (hRange : 0x20 ≤ c.toNat ∧ c.toNat ≤ 0x7e)
      (hMark : ¬ (c = '"' ∨ c = '\\' ∨ c = '?')) :
      EscapedForm (UInt8.ofNat c.toNat) [c]
  | octal {high mid low : Nat} (hHigh : high < 4) (hMid : mid < 8) (hLow : low < 8) :
      EscapedForm (UInt8.ofNat (8 * (8 * high + mid) + low))
        ['\\', Nat.digitChar high, Nat.digitChar mid, Nat.digitChar low]

theorem toNat_ofNat_of_lt {n : Nat} (h : n < 0xd800) : (Char.ofNat n).toNat = n := by
  have hValid : n.isValidChar := Or.inl h
  rw [Char.ofNat, dif_pos hValid]
  rfl

/-- Every byte has one of the forms. After this the proofs go by forms, and no longer by ranges of
bytes. -/
theorem escapedForm_escapeByte (byte : UInt8) : EscapedForm byte (escapeByte byte) := by
  have hSize := byte.toNat_lt
  have hCode := toNat_ofNat_of_lt (Nat.lt_trans hSize (by decide))
  have hChar : UInt8.ofNat (Char.ofNat byte.toNat).toNat = byte := by
    rw [hCode, UInt8.ofNat_toNat]
  by_cases hQuote : byte = 0x22
  · rw [hQuote]
    exact .marked (.inl rfl)
  by_cases hBackslash : byte = 0x5c
  · rw [hBackslash]
    exact .marked (.inr (.inl rfl))
  by_cases hQuestion : byte = 0x3f
  · rw [hQuestion]
    exact .marked (.inr (.inr rfl))
  rw [escapeByte, if_neg hQuote, if_neg hBackslash, if_neg hQuestion]
  split
  · rename_i hRange
    have hCodes : 0x20 ≤ (Char.ofNat byte.toNat).toNat ∧ (Char.ofNat byte.toNat).toNat ≤ 0x7e := by
      rw [hCode]
      exact ⟨UInt8.le_iff_toNat_le.mp hRange.1, UInt8.le_iff_toNat_le.mp hRange.2⟩
    have hMark : ¬ (Char.ofNat byte.toNat = '"' ∨ Char.ofNat byte.toNat = '\\' ∨
        Char.ofNat byte.toNat = '?') := by
      rintro (h | h | h) <;> rw [h] at hChar
      · exact hQuote hChar.symm
      · exact hBackslash hChar.symm
      · exact hQuestion hChar.symm
    have hForm := EscapedForm.printable hCodes hMark
    rwa [hChar] at hForm
  · have hHigh : byte.toNat / 8 / 8 % 8 < 4 := by omega
    have hMid : byte.toNat / 8 % 8 < 8 := Nat.mod_lt _ (by decide)
    have hLow : byte.toNat % 8 < 8 := Nat.mod_lt _ (by decide)
    have hDigits : 8 * (8 * (byte.toNat / 8 / 8 % 8) + byte.toNat / 8 % 8) + byte.toNat % 8 =
        byte.toNat := by
      omega
    have hForm := EscapedForm.octal hHigh hMid hLow
    rwa [hDigits, UInt8.ofNat_toNat] at hForm

theorem isPrintable_digitChar {n : Nat} (h : n < 8) :
    0x20 ≤ (Nat.digitChar n).toNat ∧ (Nat.digitChar n).toNat ≤ 0x7e := by
  decide +revert

namespace EscapedForm

variable {byte : UInt8} {cs : List Char}

/-- A reader gets the byte back and is then where it was, whatever follows. An octal escape has
three digits, so that a digit behind it is not drawn in. -/
theorem read?_append (h : EscapedForm byte cs) (rest : List Char) :
    LiteralState.plain.read? (cs ++ rest) =
      (LiteralState.plain.read? rest).map (byte :: ·) := by
  cases h with
  | @marked c hMark =>
      have hEscape : LiteralState.plain.step '\\' = some ([], .escape) := rfl
      have hLast : LiteralState.escape.step c = some ([UInt8.ofNat c.toNat], .plain) :=
        if_pos hMark
      exact (LiteralState.read?_skip hEscape _).trans (LiteralState.read?_cons hLast rest)
  | @printable c hRange hMark =>
      have hStep : LiteralState.plain.step c = some ([UInt8.ofNat c.toNat], .plain) := by
        simp_all [LiteralState.step, LiteralState.stepPlain]
      exact LiteralState.read?_cons hStep rest
  | @octal high mid low hHigh hMid hLow =>
      have hEscape : LiteralState.plain.step '\\' = some ([], .escape) := rfl
      have hFirst : LiteralState.escape.step (Nat.digitChar high) =
          some ([], .oneDigit high) := by
        decide +revert
      have hSecond : (LiteralState.oneDigit high).step (Nat.digitChar mid) =
          some ([], .twoDigits (8 * high + mid)) := by
        simp only [LiteralState.step, LiteralState.octalValue?_digitChar hMid]
      have hByte : LiteralState.byte? (8 * (8 * high + mid) + low) =
          some (UInt8.ofNat (8 * (8 * high + mid) + low)) :=
        if_pos (by omega)
      have hThird : (LiteralState.twoDigits (8 * high + mid)).step (Nat.digitChar low) =
          some ([UInt8.ofNat (8 * (8 * high + mid) + low)], .plain) := by
        simp only [LiteralState.step, LiteralState.octalValue?_digitChar hLow, hByte,
          Option.map_some]
      rw [List.cons_append, LiteralState.read?_skip hEscape, List.cons_append,
        LiteralState.read?_skip hFirst, List.cons_append, LiteralState.read?_skip hSecond]
      exact LiteralState.read?_cons hThird rest

/-- The forms are made of printable characters, also for bytes that are not printable. -/
theorem isPrintable (h : EscapedForm byte cs) : ∀ c ∈ cs, 0x20 ≤ c.toNat ∧ c.toNat ≤ 0x7e := by
  cases h with
  | @marked c hMark =>
      rw [List.forall_mem_cons, List.forall_mem_singleton]
      refine ⟨by decide, ?_⟩
      rcases hMark with rfl | rfl | rfl <;> decide
  | printable hRange hMark => exact List.forall_mem_singleton.mpr hRange
  | octal hHigh hMid hLow =>
      rw [List.forall_mem_cons, List.forall_mem_cons, List.forall_mem_cons,
        List.forall_mem_singleton]
      exact ⟨by decide, isPrintable_digitChar (Nat.lt_trans hHigh (by decide)),
        isPrintable_digitChar hMid, isPrintable_digitChar hLow⟩

/-- No quote is left without a backslash. So the literal does not end early. -/
theorem quote_not_mem_unescaped (h : EscapedForm byte cs) {rest : List Char}
    (hRest : '"' ∉ unescaped rest) : '"' ∉ unescaped (cs ++ rest) := by
  cases h with
  | marked hMark => exact hRest
  | printable hRange hMark =>
      rw [not_or, not_or] at hMark
      rw [List.singleton_append, unescaped_cons hMark.2.1, List.mem_cons, not_or]
      exact ⟨Ne.symm hMark.1, hRest⟩
  | @octal high mid low hHigh hMid hLow =>
      have hDigit {n : Nat} (hn : n < 8) :
          Nat.digitChar n ≠ '\\' ∧ '"' ≠ Nat.digitChar n := by
        decide +revert
      change '"' ∉ unescaped (Nat.digitChar mid :: Nat.digitChar low :: rest)
      rw [unescaped_cons (hDigit hMid).1, unescaped_cons (hDigit hLow).1, List.mem_cons,
        List.mem_cons, not_or, not_or]
      exact ⟨(hDigit hMid).2, (hDigit hLow).2, hRest⟩

/-- A question mark stands behind its backslash only. Hence no two of them meet, not even across
bytes. -/
theorem isChain (h : EscapedForm byte cs) :
    cs.head? ≠ some '?' ∧ cs.IsChain (fun c d => c = '?' → d ≠ '?') := by
  cases h with
  | marked hMark => simp
  | printable hRange hMark => simp_all
  | octal hHigh hMid hLow => simp

end EscapedForm

theorem toList_literal (bytes : List UInt8) :
    (literal bytes).toList = bytes.flatMap escapeByte :=
  String.toList_ofList

/-- What is written is read back, for all bytes and in any order of them. By induction over the
bytes. -/
theorem read?_literal (bytes : List UInt8) :
    LiteralState.plain.read? (literal bytes).toList = some bytes := by
  rw [toList_literal]
  induction bytes with
  | nil => rfl
  | cons byte bytes ih =>
      rw [List.flatMap_cons, (escapedForm_escapeByte byte).read?_append, ih, Option.map_some]

/-- Different bytes are written in different ways. -/
theorem literal_injective : Function.Injective literal := by
  intro bytes others hSame
  have hRead := read?_literal bytes
  rw [hSame, read?_literal others] at hRead
  exact (Option.some.inj hRead).symm

theorem isPrintable_of_mem_literal {bytes : List UInt8} {c : Char}
    (hc : c ∈ (literal bytes).toList) : 0x20 ≤ c.toNat ∧ c.toNat ≤ 0x7e := by
  rw [toList_literal] at hc
  obtain ⟨byte, _, hc⟩ := List.mem_flatMap.mp hc
  exact (escapedForm_escapeByte byte).isPrintable c hc

theorem quote_not_mem_unescaped_literal (bytes : List UInt8) :
    '"' ∉ unescaped (literal bytes).toList := by
  rw [toList_literal]
  induction bytes with
  | nil => simp [unescaped]
  | cons byte bytes ih =>
      rw [List.flatMap_cons]
      exact (escapedForm_escapeByte byte).quote_not_mem_unescaped ih

/-- A literal has no trigraphs, since no two question marks meet. Compilers that replace trigraphs
find nothing in it. -/
theorem not_isInfix_literal (bytes : List UInt8) : ¬ ['?', '?'] <:+: (literal bytes).toList := by
  have hChain : (bytes.flatMap escapeByte).head? ≠ some '?' ∧
      (bytes.flatMap escapeByte).IsChain (fun c d => c = '?' → d ≠ '?') := by
    induction bytes with
    | nil => simp
    | cons byte bytes ih =>
        obtain ⟨hHead, hOwn⟩ := (escapedForm_escapeByte byte).isChain
        rw [List.flatMap_cons, List.isChain_append, List.head?_append]
        refine ⟨?_, hOwn, ih.2, fun _ _ d hd _ hMark => ih.1 (hMark ▸ hd)⟩
        revert hHead
        cases (escapeByte byte).head? with
        | none => exact fun _ => ih.1
        | some c => exact id
  rintro ⟨before, after, hSplit⟩
  rw [← toList_literal, ← hSplit] at hChain
  have hPair := hChain.2.left_of_append.right_of_append
  simp at hPair

end EventManifest.Traits
