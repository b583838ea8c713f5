import EventManifest.Header.Surface
import EventManifest.Proofs.Text.Occurrence

/-!
The spelling of expressions in the two dialects. Nothing that is spelled in a template ends a line
or begins a call that fills a slot, and the expressions of one dialect turn into those of the other
when a few words are replaced. Both are read off the pieces that an expression is put together from.
-/

namespace EventManifest.Header

/-- The function that fills a slot. -/
def fillCall : List Char :=
  "EventDataDescCreate".toList

/-- What tells the dialects apart in the lines that fill slots. -/
def dialectRules : List Text.Replacement :=
  [⟨"::EventDataDescCreate".toList, "EventDataDescCreate".toList⟩,
    ⟨"nullptr".toList, "NULL".toList⟩,
    ⟨"static_cast<ULONG>(".toList, "(ULONG)(".toList⟩,
    ⟨"const_cast<SID*>(".toList, "(PSID)(".toList⟩]

-- The same letter by letter. Texts take long to evaluate, so proofs compute with these.

def fillLetters : List Char :=
  ['E', 'v', 'e', 'n', 't', 'D', 'a', 't', 'a', 'D', 'e', 's', 'c', 'C', 'r', 'e', 'a', 't', 'e']

theorem fillCall_eq : fillCall = fillLetters :=
  String.toList_ofList

def dialectLetters : List Text.Replacement :=
  [⟨':' :: ':' :: fillLetters, fillLetters⟩,
    ⟨['n', 'u', 'l', 'l', 'p', 't', 'r'], ['N', 'U', 'L', 'L']⟩,
    ⟨['s', 't', 'a', 't', 'i', 'c', '_', 'c', 'a', 's', 't',
        '<', 'U', 'L', 'O', 'N', 'G', '>', '('],
      ['(', 'U', 'L', 'O', 'N', 'G', ')', '(']⟩,
    ⟨['c', 'o', 'n', 's', 't', '_', 'c', 'a', 's', 't', '<', 'S', 'I', 'D', '*', '>', '('],
      ['(', 'P', 'S', 'I', 'D', ')', '(']⟩]

theorem dialectRules_eq : dialectRules = dialectLetters := by
  rfl

/-- No word of the list begins in the piece, whatever is written behind the piece. -/
def Passes (words : List (List Char)) (piece : String) : Prop :=
  ∀ word ∈ words, Text.isInert word piece.toList = true

namespace Passes

variable {words : List (List Char)}

/-- A fixed piece is gone through letter by letter, once for each word. -/
theorem literal {letters : List Char}
    (h : ∀ word ∈ words, Text.isInert word letters = true) :
    Passes words (String.ofList letters) := by
  rw [Passes, String.toList_ofList]
  exact h

/-- Where no word begins in either of two pieces, none begins in both together. That a word could go
over from one piece into the next is excluded by the definition. -/
theorem append {a b : String} (ha : Passes words a) (hb : Passes words b) :
    Passes words (a ++ b) := by
  intro word hWord
  rw [String.toList_append]
  exact Text.isInert_append (ha word hWord) (hb word hWord)

/-- Any number of pieces, if none of them lets a word begin. -/
theorem join {pieces : List String} (hPieces : ∀ piece ∈ pieces, Passes words piece) :
    Passes words (String.join pieces) := by
  induction pieces with
  | nil => exact fun word _ => rfl
  | cons piece pieces ih =>
    rw [List.forall_mem_cons] at hPieces
    rw [String.join_cons]
    exact hPieces.1.append (ih hPieces.2)

theorem intercalate {separator : String} (hSeparator : Passes words separator)
    {pieces : List String} (hPieces : ∀ piece ∈ pieces, Passes words piece) :
    Passes words (separator.intercalate pieces) := by
  induction pieces with
  | nil => exact fun word _ => by simp [Text.isInert]
  | cons piece pieces ih =>
    rw [List.forall_mem_cons] at hPieces
    cases pieces with
    | nil => simpa using hPieces.1
    | cons next rest =>
      rw [String.intercalate_cons_cons]
      exact (hPieces.1.append hSeparator).append (ih hPieces.2)

end Passes

/-- The words that lines are searched for. -/
def quietWords : List (List Char) :=
  [['\n'], fillLetters]

/-- A piece that neither ends a line nor has the beginning of a call in it. -/
abbrev Quiet (piece : String) : Prop :=
  Passes quietWords piece

/-- These words and those that are replaced. -/
def plainWords : List (List Char) :=
  quietWords ++ dialectLetters.map Text.Replacement.source

/-- A quiet piece that is spelled alike in both dialects. -/
abbrev Plain (piece : String) : Prop :=
  Passes plainWords piece

theorem Plain.quiet {piece : String} (h : Plain piece) : Quiet piece :=
  fun word hWord => h word (List.mem_append_left _ hWord)

theorem Quiet.newline_not_mem {piece : String} (h : Quiet piece) : '\n' ∉ piece.toList :=
  Text.not_mem_of_isInert (h _ (by decide))

/-- A quiet piece can be skipped in the search for a call. -/
theorem Quiet.behind_append {piece : String} (h : Quiet piece) (rest : List Char) :
    Text.behind fillCall (piece.toList ++ rest) = Text.behind fillCall rest := by
  rw [fillCall_eq]
  exact Text.behind_append (h _ (by decide)) rest

theorem Quiet.behind_eq_nil {piece : String} (h : Quiet piece) :
    Text.behind fillCall piece.toList = [] := by
  simpa [Text.behind] using h.behind_append []

theorem not_mem_toString {c : Char} (hc : c.isDigit = false) (n : Nat) :
    c ∉ (toString n).toList := by
  intro hMem
  rw [Nat.toString_eq_ofList_toDigits, String.toList_ofList] at hMem
  have hDigit := Nat.isDigit_of_mem_toDigits (by decide) (by decide) hMem
  rw [hc] at hDigit
  cases hDigit

/-- No word begins with a digit, so numbers can stand anywhere. -/
theorem plain_toString (n : Nat) : Plain (toString n) := by
  intro word hWord
  simp only [plainWords, quietWords, dialectLetters, List.map_cons, List.map_nil,
    List.cons_append, List.nil_append, List.mem_cons, List.not_mem_nil, or_false] at hWord
  rcases hWord with rfl | rfl | rfl | rfl | rfl | rfl <;>
    exact Text.isInert_of_not_mem (not_mem_toString rfl n)

theorem plain_data (index : Nat) : Plain (Naming.positional.data index) :=
  .append (.literal (by decide)) (plain_toString index)

theorem quiet_length (index : Nat) : Quiet (Naming.positional.length index) :=
  .append (plain_data index).quiet (.literal (by decide))

/-- An operand is a number or the name of a parameter by its position. Names that an author chose do
not occur in templates. -/
theorem quiet_spell (operand : Operand) : Quiet (operand.spell .positional) := by
  cases operand with
  | literal value => exact (plain_toString value).quiet
  | arg index => exact (plain_data index).quiet
  | lengthArg index => exact quiet_length index

/-- The names of the types with a size of their own, letter by letter. -/
def elementLetters : List (List Char) :=
  [['U', 'I', 'N', 'T', '8'], ['U', 'I', 'N', 'T', '1', '6'], ['U', 'I', 'N', 'T', '3', '2'],
    ['U', 'I', 'N', 'T', '6', '4'], ['I', 'N', 'T', '8'], ['I', 'N', 'T', '1', '6'],
    ['I', 'N', 'T', '3', '2'], ['I', 'N', 'T', '6', '4'], ['F', 'L', 'O', 'A', 'T'],
    ['D', 'O', 'U', 'B', 'L', 'E'], ['B', 'O', 'O', 'L'], ['G', 'U', 'I', 'D'],
    ['F', 'I', 'L', 'E', 'T', 'I', 'M', 'E'], ['S', 'Y', 'S', 'T', 'E', 'M', 'T', 'I', 'M', 'E'],
    ['v', 'o', 'i', 'd', '*'], ['W', 'C', 'H', 'A', 'R'], ['C', 'H', 'A', 'R'],
    ['B', 'Y', 'T', 'E'], ['U', 'S', 'H', 'O', 'R', 'T']]

/-- The names of types are few, and are gone through. -/
theorem exists_elementLetters (element : ElementType) :
    ∃ letters ∈ elementLetters, element.text = String.ofList letters := by
  cases element <;> exact ⟨_, by decide, rfl⟩

/-- Some types end as a call begins, but what stands behind a type does not go on with it. So the
character behind the type is part of the piece. -/
theorem plain_text_append (element : ElementType) {c : Char} (hc : c ∈ [')', ' ', '*']) :
    Plain (element.text ++ String.ofList [c]) := by
  have hAll : ∀ letters ∈ elementLetters, ∀ word ∈ plainWords,
      Text.isInert word (letters ++ [c]) = true := by
    simp only [List.mem_cons, List.not_mem_nil, or_false] at hc
    rcases hc with rfl | rfl | rfl <;> decide
  obtain ⟨letters, hLetters, hText⟩ := exists_elementLetters element
  rw [hText, ← String.ofList_append]
  exact .literal (hAll letters hLetters)

theorem plain_sizeOf (element : ElementType) : Plain (Surface.sizeOf element.text) := by
  rw [Surface.sizeOf, String.append_assoc]
  exact .append (.literal (by decide)) (plain_text_append element (by decide))

/-- An operand is plain together with what follows it. On its own it might end in the first letter
of a word that is replaced. -/
theorem plain_spell_append (operand : Operand) {after : List Char}
    (hAfter : ∀ word ∈ plainWords, Text.isInert word after = true)
    (hLength : ∀ word ∈ plainWords, Text.isInert word (['_', 'L', 'e', 'n'] ++ after) = true) :
    Plain (operand.spell .positional ++ String.ofList after) := by
  cases operand with
  | literal value => exact .append (plain_toString value) (.literal hAfter)
  | arg index => exact .append (plain_data index) (.literal hAfter)
  | lengthArg index =>
    have hText : (Operand.lengthArg index).spell .positional ++ String.ofList after =
        Naming.positional.data index ++ String.ofList (['_', 'L', 'e', 'n'] ++ after) := by
      rw [String.ofList_append, ← String.append_assoc]
      rfl
    rw [hText]
    exact .append (plain_data index) (.literal hLength)

/-- A product of any operands, in the form in which sizes have it. -/
theorem plain_factors (factors : List Operand) : Plain (Surface.factors .positional factors) := by
  refine .join fun piece hPiece => ?_
  obtain ⟨operand, _, rfl⟩ := List.mem_map.mp hPiece
  exact plain_spell_append operand (by decide) (by decide)

theorem plain_nullText (wide : Bool) : Plain (Surface.nullText wide) := by
  cases wide <;> exact .literal (by decide)

/-- The bytes of a string, counted with its terminator. Both dialects count in the same way. -/
theorem plain_terminatedBytes (index : Nat) (wide : Bool) :
    Plain ("(" ++ (if wide then "wcslen" else "strlen") ++ "(" ++ Naming.positional.data index ++
      ") + 1) * " ++
      Surface.sizeOf (if wide then ElementType.wideChar else ElementType.narrowChar).text) := by
  have hCall : Plain ("(" ++ (if wide then "wcslen" else "strlen") ++ "(") := by
    cases wide with
    | true => exact (Passes.literal (by decide) : Plain "(wcslen(")
    | false => exact (Passes.literal (by decide) : Plain "(strlen(")
  exact .append (.append (.append hCall (plain_data index)) (.literal (by decide)))
    (plain_sizeOf _)

theorem plain_sizeOf_nullText (wide : Bool) : Plain (Surface.sizeOf (Surface.nullText wide)) :=
  .append (.append (.literal (by decide)) (plain_nullText wide)) (.literal (by decide))

theorem plain_spell_between {start after : List Char} (operand : Operand)
    (hStart : ∀ word ∈ plainWords, Text.isInert word start = true)
    (hAfter : ∀ word ∈ plainWords, Text.isInert word after = true)
    (hLength : ∀ word ∈ plainWords, Text.isInert word (['_', 'L', 'e', 'n'] ++ after) = true) :
    Plain (String.ofList start ++ operand.spell .positional ++ String.ofList after) := by
  rw [String.append_assoc]
  exact .append (.literal hStart) (plain_spell_append operand hAfter hLength)

/-- A note about one operand, with something behind its end. The tabulator stands for the end of the
line. -/
theorem plain_note_append {start after : List Char} (operand : Operand)
    (hStart : ∀ word ∈ plainWords, Text.isInert word start = true)
    (hAfter : ∀ word ∈ plainWords, Text.isInert word (after ++ ['\t']) = true)
    (hLength : ∀ word ∈ plainWords,
      Text.isInert word (['_', 'L', 'e', 'n'] ++ (after ++ ['\t'])) = true) :
    Plain (String.ofList start ++ operand.spell .positional ++ String.ofList after ++
      String.ofList ['\t']) := by
  have hPlain := plain_spell_between operand hStart hAfter hLength
  rwa [String.ofList_append, ← String.append_assoc] at hPlain

/-- A note is the same in both dialects. -/
theorem plain_note (note : PackingNote) :
    Plain (note.text .positional ++ String.ofList ['\t']) := by
  cases note with
  | equalStrings count length =>
    have hCount : Plain ("packed: each of " ++ count.spell .positional ++
        " strings has the same length ") :=
      plain_spell_between count (by decide) (by decide) (by decide)
    have hLength : Plain (length.spell .positional ++ String.ofList ['\t']) :=
      plain_spell_append length (by decide) (by decide)
    have hPlain := hCount.append hLength
    rw [← String.append_assoc] at hPlain
    exact hPlain
  | chunks count | terminatedStrings count | sids count | structs count =>
    exact plain_note_append count (by decide) (by decide) (by decide)

section Quiet

theorem quiet_spellProduct (factors : List Operand) :
    Quiet (Operand.spellProduct .positional factors) := by
  refine .intercalate (.literal (by decide)) fun piece hPiece => ?_
  obtain ⟨operand, _, rfl⟩ := List.mem_map.mp hPiece
  exact quiet_spell operand

/-- The promise about a parameter contains no call that fills a slot, whatever its operands are. -/
theorem quiet_marker (a : Access) : Quiet (a.marker .positional) := by
  obtain ⟨optional, zeroTerminated, extent⟩ := a
  cases extent with
  | single => cases optional <;> cases zeroTerminated <;> exact .literal (by decide)
  | elements factors | bytes factors =>
    exact .append (.append (.literal (by decide)) (quiet_spellProduct factors))
      (.literal (by decide))

theorem quiet_spelling (type : NativeType) : Quiet (type.spelling ++ " ") := by
  have hBlank : Quiet " " := .literal (by decide)
  cases type with
  | value element => exact (plain_text_append element (by decide)).quiet
  | pointer element =>
    have hText : (NativeType.pointer element).spelling = "const " ++ (element.text ++ "*") := by
      rw [NativeType.spelling, String.append_assoc]
    rw [hText]
    exact .append (.append (.literal (by decide)) (plain_text_append element (by decide)).quiet)
      hBlank
  | text wide => cases wide <;> exact .append (.literal (by decide)) hBlank
  | pointers | untyped | sid | ushort | ulong => exact .append (.literal (by decide)) hBlank

theorem quiet_name (p : Parameter) : Quiet (p.name .positional) := by
  unfold Parameter.name
  cases p.role with
  | length => exact quiet_length p.property
  | data => exact (plain_data p.property).quiet

/-- Neither does the whole declaration of a parameter. -/
theorem quiet_templateParameter (p : Parameter) : Quiet (templateParameter p) := by
  have hText : templateParameter p = p.access.marker .positional ++ " " ++
      (p.templateType.spelling ++ " ") ++ p.name .positional := by
    simp only [templateParameter, String.append_assoc]
  rw [hText]
  exact .append (.append (.append (quiet_marker p.access) (.literal (by decide)))
    (quiet_spelling p.templateType)) (quiet_name p)

theorem quiet_note (note : PackingNote) : Quiet (note.text .positional) := by
  cases note with
  | equalStrings count length =>
    exact .append (.append (.append (.literal (by decide)) (quiet_spell count))
      (.literal (by decide))) (quiet_spell length)
  | chunks count | terminatedStrings count | sids count | structs count =>
    exact .append (.append (.literal (by decide)) (quiet_spell count)) (.literal (by decide))

variable {s : Surface}

theorem quiet_nullTest (hNull : Quiet s.null) (index : Nat) :
    Quiet ("(" ++ Naming.positional.data index ++ " != " ++ s.null ++ ") ? ") :=
  .append (.append (.append (.append (.literal (by decide)) (plain_data index).quiet)
    (.literal (by decide))) hNull) (.literal (by decide))

theorem quiet_cast {expr : String} (hExpr : Quiet expr) : Quiet (s.cast .ulong expr) := by
  have hType : Quiet NativeType.ulong.spelling := .literal (by decide)
  unfold Surface.cast
  cases s.plainCasts <;>
    exact .append (.append (.append (.append (.literal (by decide)) hType) (.literal (by decide)))
      hExpr) (.literal (by decide))

/-- The pointer of a slot, in a dialect whose word for nothing is quiet. -/
theorem quiet_pointer (hNull : Quiet s.null) (pointer : PointerExpr) :
    Quiet (s.pointer .positional pointer) := by
  cases pointer with
  | addressOf operand => exact .append (.literal (by decide)) (quiet_spell operand)
  | value operand => exact quiet_spell operand
  | stringOrNull index wide =>
    exact .append (.append (.append (quiet_nullTest hNull index) (plain_data index).quiet)
      (.literal (by decide))) (plain_nullText wide).quiet

/-- The size of a slot. Casts are part of the dialect, and are quiet in both. -/
theorem quiet_size (hNull : Quiet s.null) (size : SizeExpr) : Quiet (s.size .positional size) := by
  cases size with
  | scaled element factors =>
    cases factors with
    | nil => exact (plain_sizeOf element).quiet
    | cons first rest =>
      exact quiet_cast (.append (plain_factors (first :: rest)).quiet (plain_sizeOf element).quiet)
  | bytes operand => exact quiet_spell operand
  | terminatedString index wide =>
    exact .append (.append (.append (quiet_nullTest hNull index)
      (quiet_cast (plain_terminatedBytes index wide).quiet)) (.literal (by decide)))
      (quiet_cast (plain_sizeOf_nullText wide).quiet)
  | sid index =>
    have hSid : Quiet (if s.plainCasts then "(PSID)(" ++ Naming.positional.data index ++ ")"
        else "const_cast<SID*>(" ++ Naming.positional.data index ++ ")") := by
      split <;> exact .append (.append (.literal (by decide)) (plain_data index).quiet)
        (.literal (by decide))
    exact .append (.append (.literal (by decide)) hSid) (.literal (by decide))

end Quiet

/-- A piece of one dialect that stands in the place of another piece in the other dialect. -/
def Becomes (a b : String) : Prop :=
  Text.Turns dialectRules a.toList b.toList

/-- Pieces are replaced one by one. No word goes over from one piece into the next. -/
theorem Becomes.append {a b a' b' : String} (h : Becomes a b) (h' : Becomes a' b') :
    Becomes (a ++ a') (b ++ b') := by
  rw [Becomes, String.toList_append, String.toList_append]
  exact Text.Turns.append h h'

theorem Plain.isInert_source {piece : String} (h : Plain piece) {rule : Text.Replacement}
    (hRule : rule ∈ dialectRules) : Text.isInert rule.source piece.toList = true := by
  rw [dialectRules_eq] at hRule
  exact h _ (List.mem_append_right _ (List.mem_map_of_mem hRule))

/-- What is plain stands in both dialects as it is. -/
theorem Plain.becomes {piece : String} (h : Plain piece) : Becomes piece piece :=
  Text.turns_of_isInert fun _ hRule => h.isInert_source hRule

/-- A piece at the end of a line may end as a word begins. Nothing follows there that could complete
the word. -/
theorem substitute_of_plain {piece : String} (h : Plain (piece ++ String.ofList ['\t'])) :
    Text.substitute dialectRules piece.toList = piece.toList := by
  refine Text.substitute_eq_self (c := '\t') fun rule hRule => ?_
  have hInert := h.isInert_source hRule
  rwa [String.toList_append, String.toList_ofList] at hInert

/-- No word to be replaced begins as another one does. So it does not matter in which order the
rules are tried. -/
theorem turns_of_mem {rule : Text.Replacement} (hRule : rule ∈ dialectLetters) :
    Text.Turns dialectLetters rule.source rule.target := by
  simp only [dialectLetters, List.mem_cons, List.not_mem_nil, or_false] at hRule
  rcases hRule with rfl | rfl | rfl | rfl <;> exact Text.turns_of_find fun rest => rfl

theorem Becomes.literal {source target : List Char} (h : ⟨source, target⟩ ∈ dialectLetters) :
    Becomes (String.ofList source) (String.ofList target) := by
  rw [Becomes, String.toList_ofList, String.toList_ofList, dialectRules_eq]
  exact turns_of_mem h

/-- The dialects have different words for nothing, one of which is replaced by the other. -/
theorem becomes_nullTest (index : Nat) :
    Becomes ("(" ++ Naming.positional.data index ++ " != " ++ Surface.functions.null ++ ") ? ")
      ("(" ++ Naming.positional.data index ++ " != " ++ Surface.macros.null ++ ") ? ") := by
  have hStart : Plain ("(" ++ Naming.positional.data index ++ " != ") :=
    .append (.append (.literal (by decide)) (plain_data index)) (.literal (by decide))
  have hEnd : Plain ") ? " := .literal (by decide)
  exact .append (.append hStart.becomes (.literal (by decide))) hEnd.becomes

/-- They also have different casts, which are replaced around any expression. -/
theorem becomes_cast {expr expr' : String} (hExpr : Becomes expr expr') :
    Becomes (Surface.functions.cast .ulong expr) (Surface.macros.cast .ulong expr') := by
  have hStart : Becomes "static_cast<ULONG>(" "(ULONG)(" := .literal (by decide)
  have hEnd : Plain ")" := .literal (by decide)
  exact .append (.append hStart hExpr) hEnd.becomes

/-- All forms of pointers, with the comma that stands behind them. -/
theorem becomes_pointer (pointer : PointerExpr) :
    Becomes (Surface.functions.pointer .positional pointer ++ ", ")
      (Surface.macros.pointer .positional pointer ++ ", ") := by
  have hEnd : Plain ", " := .literal (by decide)
  have hOperand (operand : Operand) : Plain (operand.spell .positional ++ ", ") :=
    plain_spell_append operand (by decide) (by decide)
  cases pointer with
  | addressOf operand =>
    rw [Surface.pointer, Surface.pointer, String.append_assoc]
    exact Plain.becomes (.append (.literal (by decide)) (hOperand operand))
  | value operand => exact (hOperand operand).becomes
  | stringOrNull index wide =>
    have hSeparator : Plain " : " := .literal (by decide)
    exact .append (.append (.append (.append (becomes_nullTest index) (plain_data index).becomes)
      hSeparator.becomes) (plain_nullText wide).becomes) hEnd.becomes

/-- All forms of sizes, with the end of the call behind them. This covers every expression that a
slot can have. -/
theorem becomes_size (size : SizeExpr) :
    Becomes (Surface.functions.size .positional size ++ ");")
      (Surface.macros.size .positional size ++ ");") := by
  have hEnd : Plain ");" := .literal (by decide)
  cases size with
  | scaled element factors =>
    refine .append ?_ hEnd.becomes
    cases factors with
    | nil => exact (plain_sizeOf element).becomes
    | cons first rest =>
      exact becomes_cast
        (.append (plain_factors (first :: rest)).becomes (plain_sizeOf element).becomes)
  | bytes operand =>
    exact Plain.becomes (plain_spell_append operand (by decide) (by decide))
  | terminatedString index wide =>
    have hSeparator : Plain " : " := .literal (by decide)
    exact .append (.append (.append (.append (becomes_nullTest index)
      (becomes_cast (plain_terminatedBytes index wide).becomes)) hSeparator.becomes)
      (becomes_cast (plain_sizeOf_nullText wide).becomes)) hEnd.becomes
  | sid index =>
    have hStart : Plain "GetLengthSid(" := .literal (by decide)
    have hSid : Becomes "const_cast<SID*>(" "(PSID)(" := .literal (by decide)
    have hClose : Plain ")" := .literal (by decide)
    exact .append (.append (.append hStart.becomes
      (.append (.append hSid (plain_data index).becomes) hClose.becomes)) hClose.becomes)
      hEnd.becomes

end EventManifest.Header
