import EventManifest.Proofs.Header.TraitsSize
import EventManifest.Proofs.Plan.EnableBits
import EventManifest.Proofs.Text.Slice

/-!
The enable bits in a header. The test of an event is read back from its line: it looks at one bit of
one word, the word is one that the array has, and the bit is that of the event in the plan. The
array is declared wherever an event is logged.
-/

namespace EventManifest.Header

/-- A test of bits in a word of an array. -/
structure BitTest where
  array : String
  word : Nat
  mask : Nat
deriving DecidableEq, Repr

/-- The array and the number of the first subscript in a text, and what stands behind it. -/
def readSubscript? (text : List Char) : Option ((String × Nat) × List Char) :=
  let array := ((text.takeWhile (· ≠ '[')).reverse.takeWhile isWordChar).reverse
  let inner := (text.dropWhile (· ≠ '[')).tail
  (decimal? (String.ofList (inner.takeWhile (· ≠ ']')))).map fun n =>
    ((String.ofList array, n), (inner.dropWhile (· ≠ ']')).tail)

/-- The mask of eight digits that is laid over a word, whose bits under it are compared with
zero. -/
def readMask? (text : List Char) : Option Nat :=
  (text.dropPrefix? [' ', '&', ' ', '0', 'x']).bind fun digits =>
    if ['u', ')', ' ', '!', '=', ' ', '0', ')'].isPrefixOf (digits.drop 8) then
      Text.readHex? (digits.take 8)
    else none

def BitTest.ofLine? (line : String) : Option BitTest :=
  (readSubscript? line.toList).bind fun found =>
    (readMask? found.2).map fun mask => ⟨found.1.1, found.1.2, mask⟩

/-- The event whose test a line begins. -/
def testedEvent? (d : Dialect) (line : String) : Option String :=
  match d with
  | .functions => wordBehind? "inline bool EventEnabled" line
  | .macros => wordBehind? "#define EventEnabled" line

/-- The array that a line declares, and the number of its words. -/
def declaredArray? (line : String) : Option (String × Nat) :=
  (readSubscript? line.toList).map Prod.fst

/-- A subscript is read back, if its array is a word and stands by itself. No bracket may stand in
front of it. -/
theorem readSubscript?_append {before : List Char} {c : Char} {array : String}
    (hBefore : '[' ∉ before) (hc : isWordChar c = false ∧ c ≠ '[') (hArray : isWord array = true)
    (n : Nat) (rest : List Char) :
    readSubscript? (before ++ c :: array.toList ++ '[' :: ((toString n).toList ++ ']' :: rest)) =
      some ((array, n), rest) := by
  have hWord := isWord_iff.mp hArray
  have hOpen : '[' ∉ before ++ c :: array.toList := by
    simp only [List.mem_append, List.mem_cons, not_or]
    exact ⟨hBefore, hc.2.symm, fun hMem => ne_of_isWordChar (hWord _ hMem) (by decide) rfl⟩
  have hClose : ']' ∉ (toString n).toList := by
    intro hMem
    exact ne_of_isWordChar (isWord_iff.mp (isWord_toString n) _ hMem) (by decide) rfl
  have hName : ((before ++ c :: array.toList).reverse.takeWhile isWordChar).reverse =
      array.toList := by
    rw [List.reverse_append, List.reverse_cons, List.append_assoc,
      List.takeWhile_append_of_pos (by simpa using hWord)]
    simp [hc.1]
  obtain ⟨hTaken, hInner⟩ :=
    Text.takeWhile_and_tail_dropWhile hOpen ((toString n).toList ++ ']' :: rest)
  obtain ⟨hNumber, hRest⟩ := Text.takeWhile_and_tail_dropWhile hClose rest
  simp only [readSubscript?, hTaken, hInner, hNumber, hRest, hName, String.ofList_toList,
    decimal?_toString, Option.map_some]

/-- A declaration is read back in the same way, with the number of its words. -/
theorem declaredArray?_append {before array : String} (hBefore : '[' ∉ before.toList)
    (hArray : isWord array = true) (n : Nat) (rest : String) :
    declaredArray? (before ++ (" " ++ array ++ "[" ++ toString n ++ "]") ++ rest) =
      some (array, n) := by
  have hText : (before ++ (" " ++ array ++ "[" ++ toString n ++ "]") ++ rest).toList =
      before.toList ++ ' ' :: array.toList ++
        '[' :: ((toString n).toList ++ ']' :: rest.toList) := by
    simp
  rw [declaredArray?, hText, readSubscript?_append hBefore (by decide) hArray, Option.map_some]

/-- A mask of 32 bits is read back. It is always written with eight digits. -/
theorem readMask?_append {mask : Nat} (hMask : mask < 2 ^ 32) (rest : List Char) :
    readMask? ([' ', '&', ' ', '0', 'x'] ++
        (Text.fixedHex 8 mask ++ (['u', ')', ' ', '!', '=', ' ', '0', ')'] ++ rest))) =
      some mask := by
  have hDrop (digits : List Char) : ([' ', '&', ' ', '0', 'x'] ++ digits).dropPrefix?
      [' ', '&', ' ', '0', 'x'] = some digits :=
    List.dropPrefix?_eq_some_iff.mpr ⟨_, rfl, beq_self_eq_true _⟩
  have hLength : (Text.fixedHex 8 mask).length = 8 := Text.length_fixedHex 8 mask
  have hClosed (closing : List Char) : closing.isPrefixOf (closing ++ rest) = true :=
    List.isPrefixOf_iff_prefix.mpr (List.prefix_append _ _)
  rw [readMask?, hDrop, Option.bind_some, List.drop_left' hLength, List.take_left' hLength,
    hClosed, if_pos rfl]
  exact Text.readHex?_fixedHex (Nat.lt_of_lt_of_eq hMask (by norm_num))

theorem enableMask_lt (bit : Nat) : enableMask bit < 2 ^ 32 :=
  Nat.pow_lt_pow_right (by decide) (Nat.mod_lt _ (by decide))

/-- Word and mask of a bit are those of no other bit. So two tests agree only where they test the
same bit. -/
theorem enableWord_enableMask_inj {bit other : Nat} (hWord : enableWord bit = enableWord other)
    (hMask : enableMask bit = enableMask other) : bit = other := by
  have hPlace : bit % 32 = other % 32 := Nat.pow_right_injective (Nat.le_refl 2) hMask
  rw [enableWord, enableWord] at hWord
  omega

theorem toList_enableTest (array : String) (bit : Nat) :
    (enableTest array bit).toList =
      ['('] ++ '(' :: array.toList ++ '[' :: ((toString (enableWord bit)).toList ++
        ']' :: ([' ', '&', ' ', '0', 'x'] ++ (Text.fixedHex 8 (enableMask bit) ++
          ['u', ')', ' ', '!', '=', ' ', '0', ')']))) := by
  change ("((" ++ array ++ "[" ++ toString (enableWord bit) ++ "] & " ++
    ("0x" ++ String.ofList (Text.fixedHex 8 (enableMask bit))) ++ "u) != 0)").toList = _
  simp

/-- A test is read back from its line. What stands behind it may be anything. -/
theorem ofLine?_enableTest {before array : String} (hBefore : '[' ∉ before.toList)
    (hArray : isWord array = true) (bit : Nat) (rest : String) :
    BitTest.ofLine? (before ++ enableTest array bit ++ rest) =
      some ⟨array, enableWord bit, enableMask bit⟩ := by
  have hOpen : '[' ∉ before.toList ++ ['('] := by simp [hBefore]
  have hText : (before ++ enableTest array bit ++ rest).toList =
      (before.toList ++ ['(']) ++ '(' :: array.toList ++
        '[' :: ((toString (enableWord bit)).toList ++ ']' :: ([' ', '&', ' ', '0', 'x'] ++
          (Text.fixedHex 8 (enableMask bit) ++
            (['u', ')', ' ', '!', '=', ' ', '0', ')'] ++ rest.toList)))) := by
    rw [String.toList_append, String.toList_append, toList_enableTest]
    simp only [List.append_assoc, List.cons_append]
  rw [BitTest.ofLine?, hText, readSubscript?_append hOpen (by decide) hArray, Option.bind_some,
    readMask?_append (enableMask_lt bit), Option.map_some]

section Lines

variable {o : HeaderOptions} {q : ProviderPlan} {x : EventPlan} {w : EventWrite}

/-- The line that declares the words of the enable bits. -/
def enableArrayLine (o : HeaderOptions) (q : ProviderPlan) : String :=
  match o.dialect with
  | .functions => Functions.enableArrayLine o q
  | .macros => Macros.enableArrayLine q

/-- The line with the test of an event. -/
def testLine (o : HeaderOptions) (q : ProviderPlan) (x : EventPlan) (w : EventWrite) : String :=
  match o.dialect with
  | .functions => Functions.testLine q w
  | .macros => Macros.testLine q x w

/-- The definition of what tells whether an event is enabled. -/
def enabledLines (o : HeaderOptions) (q : ProviderPlan) (x : EventPlan) (w : EventWrite) :
    List String :=
  match o.dialect with
  | .functions => Functions.enabledLines q x w
  | .macros => [Macros.testLine q x w]

theorem testLine_mem_enabledLines : testLine o q x w ∈ enabledLines o q x w := by
  rw [testLine, enabledLines]
  cases o.dialect <;> simp [Functions.enabledLines]

/-- The words are declared in every provider that has an enable bit. A provider that logs nothing
has no array. -/
theorem enableArrayLine_mem (hBits : q.enableBits.length ≠ 0) :
    enableArrayLine o q ∈ providerLines o q := by
  rw [enableArrayLine, providerLines]
  cases o.dialect with
  | functions =>
      simp [Functions.providerLines, Functions.contextLines, Functions.enableLines, hBits]
  | macros => simp [Macros.providerLines, Macros.contextLines, Macros.enableLines, hBits]

/-- Every logged event has its test in the lines of its provider. -/
theorem enabledLines_isInfix (hx : x ∈ q.events) (hw : w ∈ x.write) :
    enabledLines o q x w <:+: providerLines o q := by
  rw [Option.mem_def] at hw
  rw [enabledLines, providerLines]
  cases o.dialect with
  | functions =>
      refine .trans ?_ ((isInfix_flatMap_of_mem hx).trans (List.infix_append _ _ _))
      rw [Functions.eventLines, hw]
      exact ((List.prefix_append _ _).trans (List.prefix_append _ _)).isInfix.trans
        (List.suffix_cons _ _).isInfix
  | macros =>
      refine .trans ?_ ((isInfix_flatMap_of_mem hx).trans (List.suffix_append _ _).isInfix)
      rw [Macros.eventLines, hw]
      exact (List.prefix_append [_] _).isInfix.trans (List.suffix_append _ _).isInfix

theorem isWord_enableBits (hSymbol : isIdentifier q.symbol = true) :
    isWord (q.symbol ++ "_EnableBits") = true := by
  rw [isWord_append, isWord_iff.mpr (isIdentifierChars_iff.mp hSymbol).2.1]
  decide

/-- The words are declared by their name and their number, and the name stands by itself. The types
before it differ between the dialects. -/
theorem enableArrayLine_eq (o : HeaderOptions) (q : ProviderPlan) :
    ∃ before rest, '[' ∉ before.toList ∧ enableArrayLine o q =
      before ++ (" " ++ (q.symbol ++ "_EnableBits") ++ "[" ++ toString q.enableWords ++ "]") ++
        rest := by
  have hName : "_EnableBits[" = "_EnableBits" ++ "[" := by decide
  rw [enableArrayLine]
  cases o.dialect with
  | functions =>
      have hLine (start : String) :
          start ++ "ULONG" ++ " " ++
              (q.symbol ++ "_EnableBits[" ++ toString q.enableWords ++ "]") ++ " = " ++
              "\x7b\x7d" ++ ";" =
            (start ++ "ULONG") ++ (" " ++ (q.symbol ++ "_EnableBits") ++ "[" ++
              toString q.enableWords ++ "]") ++ (" = " ++ "\x7b\x7d" ++ ";") := by
        simp only [hName, String.append_assoc]
      change ∃ before rest, _ ∧ Functions.variableLine o.standard "ULONG" _ "\x7b\x7d" = _
      cases o.standard with
      | cxx11 => exact ⟨_, _, by decide, hLine "__declspec(selectany) "⟩
      | cxx17 => exact ⟨_, _, by decide, hLine "inline "⟩
  | macros =>
      have hStart : "EXTERN_C __declspec(selectany) DECLSPEC_CACHEALIGN ULONG " =
          "EXTERN_C __declspec(selectany) DECLSPEC_CACHEALIGN ULONG" ++ " " := by decide
      have hEnd : "];" = "]" ++ ";" := by decide
      refine ⟨"EXTERN_C __declspec(selectany) DECLSPEC_CACHEALIGN ULONG", ";", by decide, ?_⟩
      change _ ++ (q.symbol ++ "_EnableBits[" ++ toString q.enableWords ++ "];") = _
      simp only [hStart, hName, hEnd, String.append_assoc]

/-- The array has the name of its provider and as many words as its bits need. -/
theorem declaredArray?_enableArrayLine (hSymbol : isIdentifier q.symbol = true)
    (o : HeaderOptions) :
    declaredArray? (enableArrayLine o q) = some (q.symbol ++ "_EnableBits", q.enableWords) := by
  obtain ⟨before, rest, hBefore, hLine⟩ := enableArrayLine_eq o q
  rw [hLine]
  exact declaredArray?_append hBefore (isWord_enableBits hSymbol) _ rest

/-- The test of an event reads the bit of its write from the array of its provider. The text around
the test differs between the dialects. -/
theorem ofLine?_testLine (hProvider : isIdentifier q.symbol = true)
    (hEvent : isIdentifier x.symbol = true) (o : HeaderOptions) (w : EventWrite) :
    BitTest.ofLine? (testLine o q x w) =
      some ⟨q.symbol ++ "_EnableBits", enableWord w.enableBit, enableMask w.enableBit⟩ := by
  rw [testLine]
  cases o.dialect with
  | functions => exact ofLine?_enableTest (by decide) (isWord_enableBits hProvider) _ ";"
  | macros =>
      have hName : '[' ∉ x.symbol.toList := fun hMem =>
        ne_of_isWordChar ((isIdentifierChars_iff.mp hEvent).2.1 _ hMem) (by decide) rfl
      have hBefore : '[' ∉ ("#define " ++ ("EventEnabled" ++ x.symbol ++ "()") ++ " ").toList := by
        simp [hName]
      have hRead := ofLine?_enableTest hBefore (isWord_enableBits hProvider) w.enableBit ""
      rwa [String.append_empty] at hRead

/-- The definition of a test names the event in its first line. That is how the test is called. -/
theorem testedEvent?_enabledLines (hEvent : isIdentifier x.symbol = true) (o : HeaderOptions)
    (q : ProviderPlan) (w : EventWrite) :
    (enabledLines o q x w).head?.bind (testedEvent? o.dialect) = some x.symbol := by
  have hWord : isWord x.symbol = true := isWord_iff.mpr (isIdentifierChars_iff.mp hEvent).2.1
  have hOpen : isWordChar '(' = false := by decide
  rw [enabledLines]
  cases o.dialect with
  | functions =>
      change wordBehind? "inline bool EventEnabled"
        ("inline bool EventEnabled" ++ x.symbol ++ "() noexcept") = _
      exact wordBehind?_append _ hWord (by simp [hOpen])
  | macros =>
      have hStart : "#define EventEnabled" = "#define " ++ "EventEnabled" := by decide
      have hLine (test : String) :
          "#define " ++ ("EventEnabled" ++ x.symbol ++ "()") ++ " " ++ test =
            "#define EventEnabled" ++ x.symbol ++ ("()" ++ (" " ++ test)) := by
        simp only [hStart, String.append_assoc]
      change wordBehind? "#define EventEnabled"
        ("#define " ++ ("EventEnabled" ++ x.symbol ++ "()") ++ " " ++ _) = _
      rw [hLine]
      exact wordBehind?_append _ hWord (by simp [hOpen])

end Lines

/-- What a header has for the enable bits of a provider. -/
structure TestsBits (o : HeaderOptions) (plan : GenerationPlan) (q : ProviderPlan) : Prop where
  declared : (∃ x ∈ q.events, x.write.isSome = true) →
    enableArrayLine o q ∈ linesOf o plan ∧
      declaredArray? (enableArrayLine o q) = some (q.symbol ++ "_EnableBits", q.enableWords)
  /-- A logged event is tested by one of the 32 bits of a word that the array has. -/
  tested : ∀ x ∈ q.events, ∀ w ∈ x.write,
    enabledLines o q x w <:+: linesOf o plan ∧
      (enabledLines o q x w).head?.bind (testedEvent? o.dialect) = some x.symbol ∧
      testLine o q x w ∈ enabledLines o q x w ∧
      BitTest.ofLine? (testLine o q x w) =
        some ⟨q.symbol ++ "_EnableBits", w.enableBit / 32, 2 ^ (w.enableBit % 32)⟩ ∧
      w.enableBit / 32 < q.enableWords
  same_iff : ∀ x ∈ q.events, ∀ y ∈ q.events, ∀ v ∈ x.write, ∀ w ∈ y.write,
    BitTest.ofLine? (testLine o q x v) = BitTest.ofLine? (testLine o q y w) ↔
      v.enableBit = w.enableBit

/-- A bit that a provider has is in a word that it has. So no test reads beyond the array. -/
theorem enableWord_lt_enableWords {q : ProviderPlan} {bit : Nat}
    (h : bit < q.enableBits.length) : enableWord bit < q.enableWords := by
  rw [enableWord, ProviderPlan.enableWords]
  omega

/-- Whatever the options are, the header declares the words and tests each event by its own bit.
That the bits are set at run time is not claimed. -/
theorem testsBits_of_plansTo {p : Provider} {planned : PlannedProvider} (h : p.PlansTo planned)
    (o : HeaderOptions) {plan : GenerationPlan} (hPlan : planned.plan ∈ plan.providers) :
    TestsBits o plan planned.plan := by
  have hNames := ProviderPlan.hasIdentifiers_of_plansTo h
  have hExact := ProviderPlan.bitsExact_of_plansTo h
  have hRead {x : EventPlan} (hx : x ∈ planned.plan.events) (w : EventWrite) :=
    ofLine?_testLine hNames.provider (hNames.events x hx) o w
  have hOwn := providerLines_isInfix (o := o) hPlan
  constructor
  case declared =>
    rintro ⟨x, hx, hLogged⟩
    obtain ⟨w, hw⟩ := Option.isSome_iff_exists.mp hLogged
    have hPlace := (hExact.place x hx w hw).1
    exact ⟨hOwn.subset (enableArrayLine_mem (by omega)),
      declaredArray?_enableArrayLine hNames.provider o⟩
  case tested =>
    intro x hx w hw
    exact ⟨(enabledLines_isInfix hx hw).trans hOwn,
      testedEvent?_enabledLines (hNames.events x hx) o _ w, testLine_mem_enabledLines, hRead hx w,
      enableWord_lt_enableWords (hExact.place x hx w hw).1⟩
  case same_iff =>
    intro x hx y hy v _ w _
    rw [hRead hx v, hRead hy w]
    constructor
    · intro hSame
      obtain ⟨-, hWord, hMask⟩ := BitTest.mk.inj (Option.some.inj hSame)
      exact enableWord_enableMask_inj hWord hMask
    · intro hSame
      rw [hSame]

/-- Enable bits are exact. The plan of a provider lists the levels and keywords of its logged
events, each once, and a logged event has the bit of its level and keyword. In every header with the
plan the event is tested by that bit alone, so that tests agree exactly where the bits do. -/
theorem enableBits_exact {p : Provider} {planned : PlannedProvider} (h : p.PlansTo planned) :
    planned.plan.BitsExact p ∧
      ∀ (o : HeaderOptions) (plan : GenerationPlan), planned.plan ∈ plan.providers →
        TestsBits o plan planned.plan :=
  ⟨ProviderPlan.bitsExact_of_plansTo h, fun o _ hPlan => testsBits_of_plansTo h o hPlan⟩

/-- With 33 keywords the bits need a second word, and one event is tested by its first bit. The
others are all in the first word. -/
theorem enableBits_exact_crowded :
    ∃ planned, (GenerationPlan.crowded 33).PlansTo planned ∧
      planned.plan.BitsExact (GenerationPlan.crowded 33) ∧ planned.plan.enableWords = 2 ∧
      ∀ (o : HeaderOptions) (plan : GenerationPlan), planned.plan ∈ plan.providers →
        TestsBits o plan planned.plan ∧
          ∃ x ∈ planned.plan.events, ∃ w ∈ x.write,
            BitTest.ofLine? (testLine o planned.plan x w) =
              some ⟨planned.plan.symbol ++ "_EnableBits", 1, 1⟩ := by
  have hPlannable := GenerationPlan.plannable_crowded (n := 33) (by decide)
  obtain ⟨table, hTable⟩ :=
    SymbolTable.exists_resolve hPlannable.identities hPlannable.references
  obtain ⟨planned, hBuild⟩ := ProviderPlan.exists_build hPlannable table
  have hPlans : (GenerationPlan.crowded 33).PlansTo planned := ⟨table, hTable, hBuild⟩
  obtain ⟨hExact, hTests⟩ := enableBits_exact hPlans
  have hLength : planned.plan.enableBits.length = 33 := by
    rw [ProviderPlan.length_enableBits hPlans]
    exact GenerationPlan.card_enableBits_crowded (by decide)
  refine ⟨planned, hPlans, hExact, by rw [ProviderPlan.enableWords, hLength],
    fun o plan hPlan => ⟨hTests o plan hPlan, ?_⟩⟩
  obtain ⟨x, hx, w, hw, hBit⟩ := hExact.exists_write (hLength ▸ (by decide : 32 < 33))
  have hTested := ((hTests o plan hPlan).tested x hx w hw).2.2.2.1
  rw [hBit] at hTested
  exact ⟨x, hx, w, hw, hTested⟩

end EventManifest.Header
