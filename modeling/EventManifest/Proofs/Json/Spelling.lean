import EventManifest.Json.Token
import EventManifest.Proofs.Text.Slice
import Mathlib.Data.List.Chain

/-!
How tokens are written. Blanks may stand around a token, a character of quoted text has up to three
forms, and the exponent of a numeral has several. All spellings of a list of tokens are read back as
these tokens, as long as no two numerals stand next to each other.
-/

namespace EventManifest.Json

/-- At least one digit, and nothing else. -/
structure IsDigits (cs : List Char) : Prop where
  ne_nil : cs ≠ []
  isDigit : ∀ c ∈ cs, c.isDigit = true

inductive FractionSpelling : Option (List Char) → List Char → Prop where
  | absent : FractionSpelling none []
  | present {digits : List Char} (hDigits : IsDigits digits) :
      FractionSpelling (some digits) ('.' :: digits)

/-- Only a negative exponent needs its sign. -/
inductive ExponentSpelling : Option (Bool × List Char) → List Char → Prop where
  | absent : ExponentSpelling none []
  | negative {letter : Char} {digits : List Char} (hLetter : letter = 'e' ∨ letter = 'E')
      (hDigits : IsDigits digits) :
      ExponentSpelling (some (true, digits)) (letter :: '-' :: digits)
  | positive {letter : Char} {digits : List Char} (hLetter : letter = 'e' ∨ letter = 'E')
      (hDigits : IsDigits digits) :
      ExponentSpelling (some (false, digits)) (letter :: '+' :: digits)
  | unsigned {letter : Char} {digits : List Char} (hLetter : letter = 'e' ∨ letter = 'E')
      (hDigits : IsDigits digits) :
      ExponentSpelling (some (false, digits)) (letter :: digits)

/-- A numeral. Zero is the only one that begins with the digit zero. -/
inductive NumeralSpelling : Numeral → List Char → Prop where
  | intro {below : Bool} {whole : List Char} {fraction : Option (List Char)}
      {exponent : Option (Bool × List Char)} {fractionText exponentText : List Char}
      (hWhole : IsDigits whole) (hZero : whole = ['0'] ∨ whole.head? ≠ some '0')
      (hFraction : FractionSpelling fraction fractionText)
      (hExponent : ExponentSpelling exponent exponentText) :
      NumeralSpelling ⟨below, whole, fraction, exponent⟩
        ((if below then ['-'] else []) ++ (whole ++ (fractionText ++ exponentText)))

/-- The forms of a unit of quoted text: the character itself, a backslash with a letter, or the code
of the unit in hexadecimal digits. -/
inductive UnitSpelling : CodeUnit → List Char → Prop where
  | plain {c : Char} (hQuote : c ≠ '"') (hBackslash : c ≠ '\\') (hVisible : 0x20 ≤ c.toNat) :
      UnitSpelling (.char c) [c]
  | letter {letter c : Char} (hLetter : CodeUnit.ofLetter? letter = some c) :
      UnitSpelling (.char c) ['\\', letter]
  | hex {a b c d : Char} {unit : CodeUnit} (hUnit : CodeUnit.ofHex? a b c d = some unit) :
      UnitSpelling unit ['\\', 'u', a, b, c, d]

inductive UnitsSpelling : List CodeUnit → List Char → Prop where
  | nil : UnitsSpelling [] []
  | cons {unit : CodeUnit} {units : List CodeUnit} {text rest : List Char}
      (hUnit : UnitSpelling unit text) (hRest : UnitsSpelling units rest) :
      UnitsSpelling (unit :: units) (text ++ rest)

inductive TokenSpelling : Token → List Char → Prop where
  | openArray : TokenSpelling .openArray ['[']
  | closeArray : TokenSpelling .closeArray [']']
  | openObject : TokenSpelling .openObject ['\x7b']
  | closeObject : TokenSpelling .closeObject ['\x7d']
  | colon : TokenSpelling .colon [':']
  | comma : TokenSpelling .comma [',']
  | null : TokenSpelling .null ['n', 'u', 'l', 'l']
  | true : TokenSpelling (.bool true) ['t', 'r', 'u', 'e']
  | false : TokenSpelling (.bool false) ['f', 'a', 'l', 's', 'e']
  | numeral {n : Numeral} {text : List Char} (hNumeral : NumeralSpelling n text) :
      TokenSpelling (.numeral n) text
  | quoted {units : List CodeUnit} {text : List Char} (hUnits : UnitsSpelling units text) :
      TokenSpelling (.quoted ⟨units, .closed⟩) ('"' :: (text ++ ['"']))

/-- Nothing but blanks. -/
def IsBlank (cs : List Char) : Prop :=
  ∀ c ∈ cs, isSpace c = true

/-- Tokens one after the other, with any blanks before, between and after them. -/
inductive TokensSpelling : List Token → List Char → Prop where
  | nil {blanks : List Char} (hBlanks : IsBlank blanks) : TokensSpelling [] blanks
  | cons {token : Token} {tokens : List Token} {blanks text rest : List Char}
      (hBlanks : IsBlank blanks) (hToken : TokenSpelling token text)
      (hRest : TokensSpelling tokens rest) :
      TokensSpelling (token :: tokens) (blanks ++ (text ++ rest))

/-- What cannot go on a numeral. -/
def EndsNumeral (cs : List Char) : Prop :=
  ∀ c ∈ cs.head?, c.isDigit = false ∧ c ≠ '.' ∧ c ≠ 'e' ∧ c ≠ 'E'

/-! ### Reading numerals -/

/-- An exponent is read up to its end, with the sign that was written. What follows must not go on
with digits. -/
theorem lexExponent_spelling {numeral : Numeral} {exponent : Option (Bool × List Char)}
    {text rest : List Char} (h : ExponentSpelling exponent text) (hRest : EndsNumeral rest)
    (hNone : numeral.exponent = none) :
    lexExponent numeral (text ++ rest) = (.numeral { numeral with exponent := exponent }, rest) := by
  have hStop : ∀ c ∈ rest.head?, c.isDigit = false := fun c hc => (hRest c hc).1
  cases h with
  | absent =>
      have hNumeral : { numeral with exponent := none } = numeral := by rw [← hNone]
      cases rest with
      | nil => simp [lexExponent, hNumeral]
      | cons c rest =>
          obtain ⟨_, _, hSmall, hLarge⟩ := hRest c rfl
          simp [lexExponent, hNumeral, hSmall, hLarge]
  | @negative letter digits hLetter hDigits =>
      obtain ⟨hTake, hDrop⟩ := Text.takeWhile_and_dropWhile_append hDigits.isDigit hStop
      simp [lexExponent, hLetter, hTake, hDrop, hDigits.ne_nil]
  | @positive letter digits hLetter hDigits =>
      obtain ⟨hTake, hDrop⟩ := Text.takeWhile_and_dropWhile_append hDigits.isDigit hStop
      simp [lexExponent, hLetter, hTake, hDrop, hDigits.ne_nil]
  | @unsigned letter digits hLetter hDigits =>
      obtain ⟨hTake, hDrop⟩ := Text.takeWhile_and_dropWhile_append hDigits.isDigit hStop
      cases digits with
      | nil => exact absurd rfl hDigits.ne_nil
      | cons d digits =>
          have hDigit := hDigits.isDigit d List.mem_cons_self
          have hPlus : d ≠ '+' := by
            rintro rfl
            cases hDigit
          have hMinus : d ≠ '-' := by
            rintro rfl
            cases hDigit
          rw [List.cons_append] at hTake hDrop
          simp [lexExponent, hLetter, hPlus, hMinus, hTake, hDrop]

/-- What comes after the digits before the point cannot go on them. Neither can what comes after
those behind it. -/
theorem head?_fraction_exponent {fraction : Option (List Char)}
    {exponent : Option (Bool × List Char)} {fractionText exponentText rest : List Char}
    (hFraction : FractionSpelling fraction fractionText)
    (hExponent : ExponentSpelling exponent exponentText) (hRest : EndsNumeral rest) :
    (∀ c ∈ (exponentText ++ rest).head?, c.isDigit = false ∧ c ≠ '.') ∧
      ∀ c ∈ (fractionText ++ (exponentText ++ rest)).head?, c.isDigit = false := by
  have hExponentHead : ∀ c ∈ (exponentText ++ rest).head?, c.isDigit = false ∧ c ≠ '.' := by
    intro c hc
    cases hExponent with
    | absent => exact ⟨(hRest c hc).1, (hRest c hc).2.1⟩
    | negative hLetter _ | positive hLetter _ | unsigned hLetter _ =>
        cases hc
        rcases hLetter with rfl | rfl <;> decide
  refine ⟨hExponentHead, fun c hc => ?_⟩
  cases hFraction with
  | absent => exact (hExponentHead c hc).1
  | present _ =>
      cases hc
      decide

/-- A fraction and an exponent are read one after the other, where both may be missing. -/
theorem lexFraction_spelling {numeral : Numeral} {fraction : Option (List Char)}
    {exponent : Option (Bool × List Char)} {fractionText exponentText rest : List Char}
    (hFraction : FractionSpelling fraction fractionText)
    (hExponent : ExponentSpelling exponent exponentText) (hRest : EndsNumeral rest)
    (hNone : numeral.fraction = none) (hNone' : numeral.exponent = none) :
    lexFraction numeral (fractionText ++ (exponentText ++ rest)) =
      (.numeral { numeral with fraction := fraction, exponent := exponent }, rest) := by
  obtain ⟨hHead, _⟩ := head?_fraction_exponent hFraction hExponent hRest
  cases hFraction with
  | absent =>
      have hLex := lexExponent_spelling hExponent hRest hNone'
      rw [List.nil_append, ← hNone, ← hLex]
      generalize exponentText ++ rest = cs at hHead
      cases cs with
      | nil => rfl
      | cons c cs =>
          have hPoint := (hHead c rfl).2
          simp [lexFraction, hPoint]
  | present hDigits =>
      obtain ⟨hTake, hDrop⟩ := Text.takeWhile_and_dropWhile_append hDigits.isDigit
        fun c hc => (hHead c hc).1
      simp [lexFraction, hTake, hDrop, hDigits.ne_nil, lexExponent_spelling hExponent hRest, hNone']

/-- A numeral is read after its sign. Nothing is said yet about the number that it denotes. -/
theorem lexNumeral_spelling {below : Bool} {whole : List Char} {fraction : Option (List Char)}
    {exponent : Option (Bool × List Char)} {fractionText exponentText rest : List Char}
    (hWhole : IsDigits whole) (hZero : whole = ['0'] ∨ whole.head? ≠ some '0')
    (hFraction : FractionSpelling fraction fractionText)
    (hExponent : ExponentSpelling exponent exponentText) (hRest : EndsNumeral rest) :
    lexNumeral below (whole ++ (fractionText ++ (exponentText ++ rest))) =
      (.numeral ⟨below, whole, fraction, exponent⟩, rest) := by
  obtain ⟨_, hHead⟩ := head?_fraction_exponent hFraction hExponent hRest
  obtain ⟨hTake, hDrop⟩ := Text.takeWhile_and_dropWhile_append hWhole.isDigit hHead
  have hLex (digits : List Char) : lexFraction ⟨below, digits, none, none⟩
      (fractionText ++ (exponentText ++ rest)) =
        (.numeral ⟨below, digits, fraction, exponent⟩, rest) :=
    lexFraction_spelling hFraction hExponent hRest rfl rfl
  simp only [lexNumeral, hTake, hDrop, hLex]
  rcases hZero with rfl | hHead
  · rfl
  · cases whole with
    | nil => exact absurd rfl hWhole.ne_nil
    | cons d digits =>
        have hDigit : d ≠ '0' := fun hSame => hHead (hSame ▸ rfl)
        simp [hDigit]

/-! ### Reading quoted text -/

/-- Quoted text is read up to its closing quotation mark, unit by unit. A quotation mark inside is
escaped in every spelling. -/
theorem scan_spelling {units : List CodeUnit} {text : List Char} (h : UnitsSpelling units text)
    (before : List CodeUnit) (rest : List Char) :
    Quoted.scan before (text ++ '"' :: rest) = (⟨before.reverse ++ units, .closed⟩, rest) := by
  induction h generalizing before with
  | nil => simp [Quoted.scan]
  | @cons unit units text after hUnit _ ih =>
      have hNext := ih (unit :: before)
      rw [List.reverse_cons, List.append_assoc, List.singleton_append] at hNext
      rw [← hNext]
      cases hUnit with
      | plain hQuote hBackslash hVisible =>
          have hNotControl := Nat.not_lt.mpr hVisible
          simp [Quoted.scan, hBackslash, hNotControl]
      | @letter letter c hLetter =>
          have hNotU : letter ≠ 'u' := by
            rintro rfl
            cases hLetter
          simp [Quoted.scan, hLetter, hNotU]
      | hex hUnit => simp [Quoted.scan, hUnit]

/-! ### Reading tokens -/

def Token.isNumeral : Token → Bool
  | .numeral _ => true
  | _ => false

theorem lexToken_of_isDigit {c : Char} (hDigit : c.isDigit = true) (cs : List Char) :
    isSpace c = false ∧ lexToken c cs = lexNumeral false (c :: cs) := by
  have hRange : '0'.toNat ≤ c.toNat ∧ c.toNat ≤ '9'.toNat := by
    simpa [Char.isDigit, UInt32.le_iff_toNat_le] using hDigit
  have hSmall : c.toNat = 48 ∨ c.toNat = 49 ∨ c.toNat = 50 ∨ c.toNat = 51 ∨ c.toNat = 52 ∨
      c.toNat = 53 ∨ c.toNat = 54 ∨ c.toNat = 55 ∨ c.toNat = 56 ∨ c.toNat = 57 := by
    have hLow : '0'.toNat = 48 := rfl
    have hHigh : '9'.toNat = 57 := rfl
    omega
  rw [← Char.ofNat_toNat c]
  rcases hSmall with h | h | h | h | h | h | h | h | h | h <;> rw [h] <;> exact ⟨rfl, rfl⟩

/-- A spelling begins with a character that says which token it is. Only a numeral depends on what
comes behind it. -/
theorem lexToken_spelling {token : Token} {text : List Char} (h : TokenSpelling token text)
    {rest : List Char} (hRest : token.isNumeral = true → EndsNumeral rest) :
    ∃ c cs, text = c :: cs ∧ isSpace c = false ∧ lexToken c (cs ++ rest) = (token, rest) := by
  cases h with
  | openArray | closeArray | openObject | closeObject | colon | comma =>
      exact ⟨_, [], rfl, rfl, rfl⟩
  | null | true | false => exact ⟨_, _, rfl, rfl, rfl⟩
  | numeral hNumeral =>
      obtain ⟨hWhole, hZero, hFraction, hExponent⟩ := hNumeral
      rename_i below whole fraction exponent fractionText exponentText
      have hLex : lexNumeral below _ = _ :=
        lexNumeral_spelling hWhole hZero hFraction hExponent (hRest rfl)
      cases below with
      | true =>
          refine ⟨'-', _, rfl, rfl, ?_⟩
          simpa [lexToken] using hLex
      | false =>
          cases whole with
          | nil => exact absurd rfl hWhole.ne_nil
          | cons d digits =>
              have hDigit := hWhole.isDigit d List.mem_cons_self
              obtain ⟨hSpace, hToken⟩ := lexToken_of_isDigit hDigit
                (digits ++ (fractionText ++ exponentText) ++ rest)
              refine ⟨d, digits ++ (fractionText ++ exponentText), rfl, hSpace, ?_⟩
              rw [List.cons_append] at hLex
              rw [hToken, List.append_assoc, List.append_assoc, hLex]
  | quoted hUnits =>
      refine ⟨'"', _, rfl, rfl, ?_⟩
      have hScan := scan_spelling hUnits [] rest
      simp [lexToken, hScan]

theorem endsNumeral_of_isSpace {c : Char} (hSpace : isSpace c = true) (cs : List Char) :
    EndsNumeral (c :: cs) := by
  simp only [isSpace, Bool.or_eq_true, beq_iff_eq] at hSpace
  intro d hd
  cases hd
  rcases hSpace with ((rfl | rfl) | rfl) | rfl <;> decide

/-- Other tokens end a numeral before them, even without a blank. -/
theorem endsNumeral_of_tokenSpelling {token : Token} {text : List Char}
    (h : TokenSpelling token text) (hToken : token.isNumeral = false) (rest : List Char) :
    EndsNumeral (text ++ rest) := by
  intro c hc
  cases h with
  | numeral _ => cases hToken
  | _ =>
      cases hc
      decide

/-- A numeral ends before the next token, unless that is a numeral too. Two of them could be read as
one. -/
theorem endsNumeral_of_tokensSpelling {tokens : List Token} {text : List Char}
    (h : TokensSpelling tokens text) (hFirst : ∀ token ∈ tokens.head?, token.isNumeral = false) :
    EndsNumeral text := by
  have hBlank {blanks rest : List Char} (hBlanks : IsBlank blanks) (hRest : EndsNumeral rest) :
      EndsNumeral (blanks ++ rest) := by
    cases blanks with
    | nil => exact hRest
    | cons c blanks => exact endsNumeral_of_isSpace (hBlanks c List.mem_cons_self) _
  cases h with
  | nil hBlanks =>
      have hEnd : EndsNumeral [] := fun c hc => by cases hc
      simpa using hBlank hBlanks hEnd
  | cons hBlanks hToken hRest =>
      exact hBlank hBlanks (endsNumeral_of_tokenSpelling hToken (hFirst _ rfl) _)

/-- Blanks are passed over at the cost of their number in fuel. -/
theorem tokensWithin_blanks {blanks : List Char} (hBlanks : IsBlank blanks) (fuel : Nat)
    (rest : List Char) :
    tokensWithin (blanks.length + fuel) (blanks ++ rest) = tokensWithin fuel rest := by
  induction blanks with
  | nil => simp
  | cons c blanks ih =>
      have hSpace := hBlanks c List.mem_cons_self
      have hLater : IsBlank blanks := fun d hd => hBlanks d (List.mem_cons_of_mem _ hd)
      rw [List.length_cons, Nat.add_right_comm, List.cons_append, tokensWithin, if_pos hSpace,
        ih hLater]

/-- Nowhere do two numerals stand next to each other. -/
def Separated (tokens : List Token) : Prop :=
  tokens.IsChain fun a b => a.isNumeral = true → b.isNumeral = false

/-- Fuel for each character is enough, since every token has at least one. -/
theorem tokensWithin_spelling {tokens : List Token} {text : List Char}
    (h : TokensSpelling tokens text) (hSeparated : Separated tokens) {fuel : Nat}
    (hFuel : text.length ≤ fuel) : tokensWithin fuel text = tokens := by
  induction h generalizing fuel with
  | @nil blanks hBlanks =>
      obtain ⟨more, rfl⟩ := Nat.exists_eq_add_of_le hFuel
      have hRead := tokensWithin_blanks hBlanks more []
      rw [List.append_nil] at hRead
      rw [hRead]
      cases more <;> rfl
  | @cons token tokens blanks text rest hBlanks hToken hRest ih =>
      obtain ⟨hFirst, hLater⟩ := List.isChain_cons.mp hSeparated
      have hNext : token.isNumeral = true → EndsNumeral rest := fun hNumeral =>
        endsNumeral_of_tokensSpelling hRest fun next hnext => hFirst next hnext hNumeral
      obtain ⟨c, cs, rfl, hSpace, hLex⟩ := lexToken_spelling hToken hNext
      simp only [List.length_append, List.length_cons] at hFuel
      obtain ⟨more, rfl⟩ : ∃ more, fuel = blanks.length + (more + 1) :=
        ⟨fuel - blanks.length - 1, by omega⟩
      have hSpace' : ¬ isSpace c = true := by simp [hSpace]
      rw [tokensWithin_blanks hBlanks, List.cons_append, tokensWithin, if_neg hSpace', hLex]
      exact congrArg (List.cons token) (ih hLater (by omega))

/-- Every spelling of tokens is read as these tokens. Texts that are no spelling are not covered. -/
theorem tokens_spelling {tokens : List Token} {text : List Char}
    (h : TokensSpelling tokens text) (hSeparated : Separated tokens) :
    Json.tokens text = tokens :=
  tokensWithin_spelling h hSeparated (Nat.le_refl _)

end EventManifest.Json
