import EventManifest.Proofs.Header.ProviderNames
import EventManifest.Proofs.Header.Reading
import EventManifest.Proofs.Plan.Identifiers
import EventManifest.Proofs.Traits.Literal
import EventManifest.Proofs.Traits.Reading

/-!
The size of traits. It is said three times: by the first two bytes of the traits, by how many bytes
there are, and in a header by the context of the provider. All three are the size of what the
provider asks for, and traits are refused exactly if that size does not fit its two bytes.
-/

namespace EventManifest

namespace Traits

/-- Whether a provider asks for anything that traits hold. -/
def requested (p : Provider) : Bool :=
  p.includeNameInTraits || p.controlGuid.isSome

/-- The size of the traits that a provider asks for: two bytes for the size itself, the name, a NUL,
and nineteen bytes for a group. -/
def requestedSize (p : Provider) : Nat :=
  2 + (if p.includeNameInTraits then p.name.utf8ByteSize else 0) + 1 +
    if p.controlGuid.isSome then 19 else 0

theorem length_toUTF8_toList (s : String) : s.toUTF8.toList.length = s.utf8ByteSize := by
  rw [ByteArray.toList, Text.loop_toList_eq_drop]
  rfl

/-- The size counts itself with two bytes. -/
theorem two_add_length_body (p : Provider) : 2 + (body p).length = requestedSize p := by
  have hName : (nameBytes p).length =
      if p.includeNameInTraits then p.name.utf8ByteSize else 0 := by
    rw [nameBytes, apply_ite List.length, length_toUTF8_toList]
    rfl
  have hGroup : (groupPart p).length = if p.controlGuid.isSome then 19 else 0 := by
    rw [groupPart]
    cases p.controlGuid with
    | none => rfl
    | some group => simp [groupBytes, Bytes.length_littleEndian, Guid.length_toBytes]
  rw [body_eq, List.length_append, List.length_cons, hName, hGroup, requestedSize]
  omega

/-- The three outcomes of a request for traits. The largest size is 65535, which is what two bytes
can hold. -/
theorem ofProvider_eq (p : Provider) :
    ofProvider p =
      if requested p then
        if requestedSize p ≤ 65535 then
          .ok (some (Bytes.littleEndian 2 (requestedSize p) ++ body p))
        else .error (.traitsTooLarge p.name (requestedSize p))
      else .ok none := by
  have hRequested : (!p.includeNameInTraits && p.controlGuid.isNone) = !requested p := by
    rw [requested, Bool.not_or, Option.not_isSome]
  have hFits : requestedSize p < UInt16.size ↔ requestedSize p ≤ 65535 := Nat.lt_succ_iff
  rw [ofProvider, hRequested, two_add_length_body]
  cases requested p <;> simp [hFits]

/-- Traits are refused for their size alone, and the defect tells it. -/
theorem ofProvider_eq_error_iff {p : Provider} {defect : Defect} :
    ofProvider p = .error defect ↔
      requested p = true ∧ 65535 < requestedSize p ∧
        defect = .traitsTooLarge p.name (requestedSize p) := by
  rw [ofProvider_eq]
  cases requested p with
  | false => simp
  | true =>
      by_cases hFits : requestedSize p ≤ 65535
      · simp [hFits]
      · simp [hFits, Nat.lt_of_not_le hFits, eq_comm]

/-- A provider that asks for nothing gets no traits, not empty ones. -/
theorem ofProvider_eq_none_iff {p : Provider} :
    ofProvider p = .ok none ↔ requested p = false := by
  rw [ofProvider_eq]
  cases requested p with
  | false => simp
  | true =>
      simp only [if_true]
      split <;> simp

theorem ofProvider_eq_some_iff {p : Provider} {bytes : List UInt8} :
    ofProvider p = .ok (some bytes) ↔
      requested p = true ∧ requestedSize p ≤ 65535 ∧
        bytes = Bytes.littleEndian 2 (requestedSize p) ++ body p := by
  rw [ofProvider_eq]
  cases requested p with
  | false => simp
  | true =>
      by_cases hFits : requestedSize p ≤ 65535
      · simp [hFits, eq_comm]
      · simp [hFits]

end Traits

namespace Header

/-- The members of the structure that the context of a provider is. -/
def contextMembers (d : Dialect) : List String :=
  let shared :=
    match d with
    | .functions => Functions.sharedCode
    | .macros => Macros.traceContext
  (shared.dropWhile (· ≠ "\x7b")).tail.takeWhile fun line => line.toList.head? = some ' '

/-- What a declaration puts between the last braces, divided at commas. -/
def initializerFields (line : String) : List String :=
  commaItems ((line.toList.reverse.takeWhile (· ≠ '\x7b')).reverse.takeWhile (· ≠ '\x7d'))

/-- The value of a decimal numeral. -/
def decimal? (field : String) : Option Nat :=
  let (value, rest) := Fragment.readNumeral field.toList
  if rest.isEmpty then value else none

/-- The size of the traits by the declaration of a context, whose fields stand in the order of the
structure's members. -/
def traitsSize? (d : Dialect) (line : String) : Option Nat :=
  (initializerFields line)[(contextMembers d).idxOf "    USHORT TraitsSize;"]?.bind decimal?

/-- The size is the seventh member of the context, in both dialects. The initializers go by this
place. -/
theorem idxOf_traitsSize (d : Dialect) :
    (contextMembers d).idxOf "    USHORT TraitsSize;" = 6 := by
  cases d <;> decide +kernel

theorem decimal?_toString (n : Nat) : decimal? (toString n) = some n := by
  have hRead : Fragment.readNumeral (Shape.numeral n ++ []) = (some n, []) :=
    Fragment.readNumeral_numeral n (by simp)
  rw [List.append_nil, Shape.numeral] at hRead
  rw [decimal?, Nat.toString_eq_ofList_toDigits, String.toList_ofList, hRead]
  rfl

/-- The fields of an initializer are read back, if they are words. A brace or a comma in a field
would be read otherwise. -/
theorem initializerFields_braced {items : List String}
    (hItems : ∀ item ∈ items, isWord item = true) (hSome : items ≠ []) (before : String) :
    initializerFields (before ++ braced items ++ ";") = items := by
  have hWord {d : Char} (hd : isWordChar d = false) {item : String} (hItem : item ∈ items) :
      d ∉ item.toList := fun hMem =>
    ne_of_isWordChar (isWord_iff.mp (hItems item hItem) d hMem) hd rfl
  have hInner {d : Char} (hd : isWordChar d = false ∧ d ≠ ',' ∧ d ≠ ' ') {c : Char}
      (hc : c ∈ (commaList items).toList) : c ≠ d := by
    rintro rfl
    rcases exists_of_mem_commaList hc with ⟨item, hItem, hc⟩ | hc | hc
    · exact hWord hd.1 hItem hc
    · exact hd.2.1 hc
    · exact hd.2.2 hc
  have hText : (before ++ braced items ++ ";").toList =
      before.toList ++ '\x7b' :: ((commaList items).toList ++ ['\x7d', ';']) := by
    simp [braced]
  have hOpened : ((before ++ braced items ++ ";").toList.reverse.takeWhile (· ≠ '\x7b')).reverse =
      (commaList items).toList ++ ['\x7d', ';'] := by
    rw [hText, List.reverse_append, List.reverse_cons, List.append_assoc,
      List.takeWhile_append_of_pos]
    · simp
    · intro c hc
      rw [List.mem_reverse, List.mem_append] at hc
      rcases hc with hc | hc
      · simpa using hInner (by decide) hc
      · simp only [List.mem_cons, List.not_mem_nil, or_false] at hc
        rcases hc with rfl | rfl <;> decide
  have hClosed : ((commaList items).toList ++ ['\x7d', ';']).takeWhile (· ≠ '\x7d') =
      (commaList items).toList := by
    rw [List.takeWhile_append_of_pos fun c hc => by simpa using hInner (by decide) hc]
    simp
  rw [initializerFields, hOpened, hClosed]
  exact commaItems_commaList
    (fun item hItem => ⟨hWord (by decide) hItem, hWord (by decide) hItem⟩) hSome

/-- The line that declares the context of a provider. -/
def contextLine (o : HeaderOptions) (q : ProviderPlan) : String :=
  match o.dialect with
  | .functions => Functions.contextLine o q
  | .macros => Macros.contextLine q

/-- Every provider of a plan has its context in the header. -/
theorem contextLine_mem {o : HeaderOptions} {plan : GenerationPlan} {q : ProviderPlan}
    (hq : q ∈ plan.providers) : contextLine o q ∈ linesOf o plan := by
  have hOwn : contextLine o q ∈ providerLines o q := by
    rw [contextLine, providerLines]
    cases o.dialect with
    | functions => simp [Functions.providerLines, Functions.contextLines]
    | macros => simp [Macros.providerLines, Macros.contextLines]
  exact (providerLines_isInfix hq).subset hOwn

/-- A variable is declared with its initial value at the end, by either standard. What stands in
front depends on the standard. -/
theorem exists_variableLine_eq (standard : Standard) (type name init : String) :
    ∃ before, Functions.variableLine standard type name init = before ++ init ++ ";" := by
  cases standard <;> exact ⟨_, rfl⟩

/-- A context is declared alike in both dialects, up to the words for nothing and for falsehood.
Those words are no part of the size. -/
theorem contextLine_eq (o : HeaderOptions) (q : ProviderPlan) :
    ∃ before surface falseText, isWord surface.null = true ∧ isWord falseText = true ∧
      contextLine o q = before ++ contextInitializer surface falseText q ++ ";" := by
  rw [contextLine]
  cases o.dialect with
  | functions =>
      obtain ⟨before, hLine⟩ := exists_variableLine_eq o.standard (Functions.contextType o)
        (q.symbol ++ "_Context") (contextInitializer .functions "false" q)
      exact ⟨before, .functions, "false", by decide, by decide, hLine⟩
  | macros => exact ⟨_, .macros, "FALSE", by decide, by decide, rfl⟩

/-- The name of an array with one entry for each enable bit, if there are any. -/
def arrayName (surface : Surface) (q : ProviderPlan) (name : String) : String :=
  if q.enableBits.length = 0 then surface.null else q.symbol ++ name

/-- The fields of a context. -/
def contextFields (surface : Surface) (falseText : String) (q : ProviderPlan) : List String :=
  ["0", "0", "0", "0", falseText, q.traits.elim surface.null fun _ => q.symbol ++ "_Traits",
    toString (q.traits.elim 0 List.length), toString q.enableBits.length,
    arrayName surface q "_EnableBits", arrayName surface q "_Keywords",
    arrayName surface q "_Levels"]

theorem contextInitializer_eq (surface : Surface) (falseText : String) (q : ProviderPlan) :
    contextInitializer surface falseText q = braced (contextFields surface falseText q) := by
  rw [contextInitializer, contextFields]
  cases q.traits <;> rfl

/-- All fields of a context are words, whether the provider has traits and enable bits or not. -/
theorem isWord_of_mem_contextFields {surface : Surface} {falseText : String} {q : ProviderPlan}
    (hNull : isWord surface.null = true) (hFalse : isWord falseText = true)
    (hSymbol : isWord q.symbol = true) :
    ∀ item ∈ contextFields surface falseText q, isWord item = true := by
  have hArray {name : String} (hName : isWord name = true) :
      isWord (arrayName surface q name) = true := by
    rw [arrayName]
    split
    · exact hNull
    · rw [isWord_append, hSymbol, hName]
      rfl
  have hTraits : isWord (q.traits.elim surface.null fun _ => q.symbol ++ "_Traits") = true := by
    cases q.traits with
    | none => exact hNull
    | some bytes =>
        rw [Option.elim_some, isWord_append, hSymbol]
        decide
  have hZero : isWord "0" = true := by decide
  simp only [contextFields, List.forall_mem_cons, List.not_mem_nil, false_implies, implies_true,
    hZero, hFalse, hTraits, isWord_toString, true_and, and_true]
  exact ⟨hArray (by decide), hArray (by decide), hArray (by decide)⟩

/-- The context of a provider states the size of its traits. Without traits it states zero. -/
theorem traitsSize?_contextLine {q : ProviderPlan} (hSymbol : isIdentifier q.symbol = true)
    (o : HeaderOptions) :
    traitsSize? o.dialect (contextLine o q) = some (q.traits.elim 0 List.length) := by
  obtain ⟨before, surface, falseText, hNull, hFalse, hLine⟩ := contextLine_eq o q
  have hWord : isWord q.symbol = true := isWord_iff.mpr (isIdentifierChars_iff.mp hSymbol).2.1
  rw [traitsSize?, idxOf_traitsSize, hLine, contextInitializer_eq,
    initializerFields_braced (isWord_of_mem_contextFields hNull hFalse hWord)
      (List.cons_ne_nil _ _)]
  exact decimal?_toString _

end Header

namespace Traits

/-- The text, as the body of a string literal, stands for the bytes. -/
structure Denotes (text : String) (bytes : List UInt8) : Prop where
  printable : ∀ c ∈ text.toList, 0x20 ≤ c.toNat ∧ c.toNat ≤ 0x7e
  closed : '"' ∉ unescaped text.toList
  noTrigraph : ¬ ['?', '?'] <:+: text.toList
  read : LiteralState.plain.read? text.toList = some bytes

/-- What is said of the size of a provider's traits. -/
structure Sized (p : Provider) : Prop where
  error_iff : ∀ defect, ofProvider p = .error defect ↔
    requested p = true ∧ 65535 < requestedSize p ∧
      defect = .traitsTooLarge p.name (requestedSize p)
  none_iff : ofProvider p = .ok none ↔ requested p = false
  length : ∀ bytes, ofProvider p = .ok (some bytes) → bytes.length = requestedSize p
  leading : ∀ bytes, ofProvider p = .ok (some bytes) →
    Bytes.ofLittleEndian (bytes.take 2) = bytes.length
  /-- In every header with the plan of the provider, and 0 stands there if it has no traits. -/
  printed : ∀ traits planned, ofProvider p = .ok traits → p.PlansTo planned →
    ∀ (o : HeaderOptions) (plan : GenerationPlan), planned.plan ∈ plan.providers →
      Header.contextLine o planned.plan ∈ Header.linesOf o plan ∧
        Header.traitsSize? o.dialect (Header.contextLine o planned.plan) =
          some (traits.elim 0 List.length)

/-- The plan of a provider has the traits of the provider. They are not changed by anything that is
planned later. -/
theorem traits_of_plansTo {p : Provider} {planned : PlannedProvider}
    {traits : Option (List UInt8)} (hTraits : ofProvider p = .ok traits)
    (h : p.PlansTo planned) : planned.plan.traits = traits := by
  obtain ⟨table, _, hBuild⟩ := h
  obtain ⟨found, grouped, events, hFound, _, _, rfl⟩ := ProviderPlan.build_eq_ok_iff.mp hBuild
  exact Except.ok.inj (hFound.symm.trans hTraits)

/-- The literal of any bytes stands for them and for no others. The traits of every provider are
refused exactly if they are too large, and else their size is the same wherever it is said. -/
theorem denoted_and_sized :
    (∀ bytes, Denotes (literal bytes) bytes) ∧ Function.Injective literal ∧
      ∀ p : Provider, Sized p := by
  refine ⟨fun bytes => ?_, literal_injective, fun p => ?_⟩
  · exact {
      printable := fun _ => isPrintable_of_mem_literal
      closed := quote_not_mem_unescaped_literal bytes
      noTrigraph := not_isInfix_literal bytes
      read := read?_literal bytes }
  · have hLength {bytes : List UInt8} (h : ofProvider p = .ok (some bytes)) :
        bytes.length = requestedSize p := by
      obtain ⟨_, _, rfl⟩ := ofProvider_eq_some_iff.mp h
      rw [List.length_append, Bytes.length_littleEndian, two_add_length_body]
    refine ⟨fun _ => ofProvider_eq_error_iff, ofProvider_eq_none_iff, fun _ => hLength, ?_, ?_⟩
    · intro bytes h
      rw [hLength h]
      obtain ⟨_, hFits, rfl⟩ := ofProvider_eq_some_iff.mp h
      rw [List.take_left' (Bytes.length_littleEndian _ _)]
      exact Bytes.ofLittleEndian_littleEndian (Nat.lt_succ_of_le hFits)
    · intro traits planned hTraits hPlans o plan hPlan
      have hSymbol := (ProviderPlan.hasIdentifiers_of_plansTo hPlans).provider
      rw [← traits_of_plansTo hTraits hPlans]
      exact ⟨Header.contextLine_mem hPlan, Header.traitsSize?_contextLine hSymbol o⟩

/-- A provider in a group, with a digit behind the two bytes of the size. -/
def numberedProvider : Provider :=
  { Provider.bare "7\"?" [] with includeNameInTraits := true, controlGuid := some ⟨1, 2, 3, 4⟩ }

/-- The digit behind the two bytes of the size is not drawn into the escape before it, and both
dialects state the size. -/
theorem denoted_and_sized_numberedProvider :
    ∃ bytes planned, ofProvider numberedProvider = .ok (some bytes) ∧
      numberedProvider.PlansTo planned ∧
      LiteralState.plain.read? (literal bytes).toList = some bytes ∧ bytes.length = 25 ∧
      Bytes.ofLittleEndian (bytes.take 2) = 25 ∧
      ∀ d, Header.traitsSize? d (Header.contextLine { dialect := d } planned.plan) = some 25 := by
  have hTraits := ofProvider_eq_some_iff.mpr
    ⟨(rfl : requested numberedProvider = true), by decide, rfl⟩
  have hPlans : numberedProvider.PlansTo _ :=
    ⟨_, rfl, ProviderPlan.build_eq_ok_iff.mpr ⟨_, _, _, hTraits, rfl, rfl, rfl⟩⟩
  obtain ⟨hDenotes, -, hSized⟩ := denoted_and_sized
  have hLength := (hSized numberedProvider).length _ hTraits
  refine ⟨_, _, hTraits, hPlans, (hDenotes _).read, hLength,
    ((hSized numberedProvider).leading _ hTraits).trans hLength, fun d => ?_⟩
  have hPrinted := ((hSized numberedProvider).printed _ _ hTraits hPlans { dialect := d }
    ⟨[_], []⟩ (List.mem_singleton_self _)).2
  exact hPrinted.trans (congrArg some hLength)

end Traits

end EventManifest
