import EventManifest.Proofs.Symbol.Identifier
import EventManifest.Proofs.Symbol.Resolution
import Mathlib.Data.List.TakeWhile

/-!
Events without an authored symbol. Their symbols are read from the right: a numeral has neither an
underscore nor an `x`, so the seven numbers of the descriptor come off one after the other, whatever
the symbol of the provider looks like. Hence no two such events share a symbol.
-/

namespace EventManifest

namespace Text

/-- What stands behind the last mark can be told from what stands before it. The mark may well occur
in the beginning. -/
theorem append_mark_inj {mark : Char} {before before' field field' : List Char}
    (hField : mark ∉ field) (hField' : mark ∉ field') :
    before ++ mark :: field = before' ++ mark :: field' ↔ before = before' ∧ field = field' := by
  constructor
  · intro h
    -- Of two unequal ends the longer one would have the mark of the other in its middle.
    rcases List.append_eq_append_iff.mp h with ⟨between, rfl, hEnd⟩ | ⟨between, rfl, hEnd⟩
    · cases between with
      | nil => simpa using hEnd
      | cons c between =>
          have hMark : mark ∈ field := by simp [(List.cons.inj hEnd).2]
          exact absurd hMark hField
    · cases between with
      | nil => simpa using hEnd.symm
      | cons c between =>
          have hMark : mark ∈ field' := by simp [(List.cons.inj hEnd).2]
          exact absurd hMark hField'
  · rintro ⟨rfl, rfl⟩
    rfl

/-- A number behind a mark. -/
def markedHex (mark : Char) (n : Nat) : List Char :=
  mark :: Nat.toDigits 16 n

/-- A number behind a mark that is no digit comes off the end of a text. Nothing is asked of the
beginning. -/
theorem append_markedHex_inj {mark : Char} (hMark : hexValue? mark = none)
    {before before' : List Char} {m n : Nat} :
    before ++ markedHex mark m = before' ++ markedHex mark n ↔ before = before' ∧ m = n := by
  have hField (k : Nat) : mark ∉ Nat.toDigits 16 k := by
    intro hMem
    obtain ⟨digit, hDigit, rfl⟩ := exists_digitChar_of_mem_toDigits (by decide) hMem
    simp [hexValue?_digitChar hDigit] at hMark
  rw [markedHex, markedHex, append_mark_inj (hField m) (hField n), toDigits_injective.eq_iff]

/-- So do any number of them. The beginning is general, since each step leaves its number there. -/
theorem append_flatMap_markedHex_inj {mark : Char} (hMark : hexValue? mark = none)
    {numbers others : List Nat} (hLength : numbers.length = others.length)
    {before before' : List Char} :
    before ++ numbers.flatMap (markedHex mark) = before' ++ others.flatMap (markedHex mark) ↔
      before = before' ∧ numbers = others := by
  induction numbers generalizing others before before' with
  | nil =>
      obtain rfl : others = [] := by simpa [eq_comm] using hLength
      simp
  | cons m numbers ih =>
      cases others with
      | nil => simp at hLength
      | cons n others =>
          have hRest : numbers.length = others.length := by simpa using hLength
          rw [List.flatMap_cons, List.flatMap_cons, ← List.append_assoc, ← List.append_assoc,
            ih hRest, append_markedHex_inj hMark, List.cons.injEq, and_assoc]

/-- The numbers of a symbol, all but the first behind an underscore. -/
theorem toList_intercalate_hex (m : Nat) (numbers : List Nat) :
    ("_".intercalate ((m :: numbers).map hex)).toList =
      Nat.toDigits 16 m ++ numbers.flatMap (markedHex '_') := by
  induction numbers generalizing m with
  | nil => simp [hex]
  | cons n numbers ih =>
      rw [List.map_cons, List.map_cons, String.intercalate_cons_cons, ← List.map_cons,
        String.toList_append, String.toList_append, ih, hex, String.toList_ofList]
      simp [markedHex]

theorem trimChars_eq_nil_iff {cs : List Char} :
    trimChars cs = [] ↔ ∀ c ∈ cs, isBlank c = true := by
  rw [trimChars, List.reverse_eq_nil_iff, List.dropWhile_eq_nil_iff]
  simp only [List.mem_reverse]
  constructor
  · intro h
    -- What is left behind the first blanks would begin with a character that is none.
    have hNone : cs.dropWhile isBlank = [] := by
      cases hLeft : cs.dropWhile isBlank with
      | nil => rfl
      | cons c rest =>
          have hFirst : ¬ isBlank c = true := by
            have hHead := List.head_dropWhile_not isBlank (l := cs) (by simp [hLeft])
            simpa [hLeft] using hHead
          exact absurd (h c (by simp [hLeft])) hFirst
    exact List.dropWhile_eq_nil_iff.mp hNone
  · intro h c hc
    exact h c ((List.dropWhile_sublist isBlank).subset hc)

end Text

namespace EventDescriptor

/-- The numbers of a descriptor, the first one apart, in the order in which they are spelled. -/
def laterNumbers (d : EventDescriptor) : List Nat :=
  [d.version.toNat, d.channel.toNat, d.level.toNat, d.opcode.toNat, d.task.toNat, d.keyword.toNat]

/-- A descriptor is its seven numbers. -/
theorem eq_iff_numbers {d d' : EventDescriptor} :
    d = d' ↔ d.id.toNat = d'.id.toNat ∧ d.laterNumbers = d'.laterNumbers := by
  cases d
  cases d'
  simp [laterNumbers, UInt8.toNat_inj, UInt16.toNat_inj, UInt64.toNat_inj]

end EventDescriptor

/-- There is no symbol, or it has nothing but blanks. -/
def IsUnauthored (symbol : Option String) : Prop :=
  ∀ written ∈ symbol, ∀ c ∈ written.toList, Text.isBlank c = true

theorem authored_eq_none_iff {symbol : Option String} :
    authored symbol = none ↔ IsUnauthored symbol := by
  cases symbol with
  | none => simp [authored, IsUnauthored]
  | some written =>
      have hEmpty : (Text.trim written).isEmpty = true ↔ Text.trimChars written.toList = [] := by
        rw [← Text.toList_trim, String.toList_eq_nil_iff, String.isEmpty_iff]
      simp only [IsUnauthored, Option.mem_def, Option.some.injEq, forall_eq',
        ← Text.trimChars_eq_nil_iff, ← hEmpty, authored, Option.bind_some]
      cases (Text.trim written).isEmpty with
      | true => simp
      | false => cases isIdentifier (Text.trim written) <;> simp

namespace Symbol

theorem toList_anonymousEvent (provider : String) (d : EventDescriptor) :
    (anonymousEvent provider d).toList =
      provider.toList ++ "_EVENT_0".toList ++ Text.markedHex 'x' d.id.toNat ++
        d.laterNumbers.flatMap (Text.markedHex '_') := by
  have hNumbers := Text.toList_intercalate_hex d.id.toNat d.laterNumbers
  have hMark : "_EVENT_0x".toList = "_EVENT_0".toList ++ ['x'] := by decide
  change (provider ++ "_EVENT_0x" ++
    "_".intercalate ((d.id.toNat :: d.laterNumbers).map Text.hex)).toList = _
  rw [String.toList_append, String.toList_append, hNumbers, hMark, Text.markedHex]
  simp

/-- The symbol of an anonymous event gives back the symbol of the provider and the descriptor. This
holds for all texts in the place of the provider's symbol, also those that look like symbols of
events. -/
theorem anonymousEvent_eq_iff {provider provider' : String} {d d' : EventDescriptor} :
    anonymousEvent provider d = anonymousEvent provider' d' ↔ provider = provider' ∧ d = d' := by
  have hLength : d.laterNumbers.length = d'.laterNumbers.length := rfl
  rw [← String.toList_inj, toList_anonymousEvent, toList_anonymousEvent,
    Text.append_flatMap_markedHex_inj (by decide) hLength, Text.append_markedHex_inj (by decide),
    List.append_left_inj, String.toList_inj, and_assoc, EventDescriptor.eq_iff_numbers]

/-- Blanks are no symbol. An event with blanks is named like one without a symbol. -/
theorem ofEvent_of_isUnauthored {symbol : Option String} (h : IsUnauthored symbol)
    (provider : String) (d : EventDescriptor) :
    ofEvent provider symbol d = anonymousEvent provider d := by
  rw [ofEvent, authored_eq_none_iff.mpr h, Option.getD_none]

end Symbol

namespace SymbolTable

/-- What a table has in the place of an event without an authored symbol. The identity of the event
can be read in it. -/
theorem anonymousEvent_of_resolve {p : Provider} {table : SymbolTable}
    (hTable : resolve p = .ok table) {i : Nat} {e : Event} (he : p.events[i]? = some e)
    (hSymbol : IsUnauthored e.symbol) :
    ∃ r, table.events[i]? = some r ∧ (r.descriptor.id, r.descriptor.version) = e.identity ∧
      r.symbol = Symbol.anonymousEvent table.provider r.descriptor := by
  have hPresents := presents_of_resolve hTable
  obtain ⟨hi, rfl⟩ := List.getElem?_eq_some_iff.mp he
  have hi' : i < table.events.length := hPresents.events.length_eq ▸ hi
  obtain ⟨hDescribes, hOwn⟩ := hPresents.events.get hi hi'
  refine ⟨table.events[i], List.getElem?_eq_getElem hi', ?_, ?_⟩
  · exact Prod.ext hDescribes.id hDescribes.version
  · rw [hPresents.provider, ← Symbol.ofEvent_of_isUnauthored hSymbol]
    exact hOwn

/-- Symbols of events without authored ones never collide. They are equal only for equal provider
symbols and equal descriptors. Hence such events have different symbols if they are different events
of one provider, and if their providers have different symbols. -/
theorem unauthored_symbols_apart :
    (∀ (provider provider' : String) (symbol symbol' : Option String) (d d' : EventDescriptor),
      IsUnauthored symbol → IsUnauthored symbol' →
        (Symbol.ofEvent provider symbol d = Symbol.ofEvent provider' symbol' d' ↔
          provider = provider' ∧ d = d')) ∧
    (∀ (p : Provider) (table : SymbolTable), resolve p = .ok table →
      ∀ (i j : Nat) (e f : Event), p.events[i]? = some e → p.events[j]? = some f →
        IsUnauthored e.symbol → IsUnauthored f.symbol → i ≠ j →
          ∃ r s, table.events[i]? = some r ∧ table.events[j]? = some s ∧ r.symbol ≠ s.symbol) ∧
    ∀ (p q : Provider) (table table' : SymbolTable), resolve p = .ok table →
      resolve q = .ok table' → table.provider ≠ table'.provider →
        ∀ (i j : Nat) (e f : Event), p.events[i]? = some e → q.events[j]? = some f →
          IsUnauthored e.symbol → IsUnauthored f.symbol →
            ∃ r s, table.events[i]? = some r ∧ table'.events[j]? = some s ∧
              r.symbol ≠ s.symbol := by
  refine ⟨?_, ?_, ?_⟩
  · intro provider provider' symbol symbol' d d' hSymbol hSymbol'
    rw [Symbol.ofEvent_of_isUnauthored hSymbol, Symbol.ofEvent_of_isUnauthored hSymbol',
      Symbol.anonymousEvent_eq_iff]
  · intro p table hTable i j e f he hf hSymbol hSymbol' hApart
    obtain ⟨r, hr, hIdentity, hOwn⟩ := anonymousEvent_of_resolve hTable he hSymbol
    obtain ⟨s, hs, hIdentity', hOwn'⟩ := anonymousEvent_of_resolve hTable hf hSymbol'
    refine ⟨r, s, hr, hs, fun hSame => hApart ?_⟩
    rw [hOwn, hOwn', Symbol.anonymousEvent_eq_iff] at hSame
    -- Equal descriptors are equal identities, which no two events of a provider have.
    rw [hSame.2, hIdentity'] at hIdentity
    obtain ⟨hi, _⟩ := List.getElem?_eq_some_iff.mp he
    refine (List.getElem?_inj (by simpa using hi) (nodup_identity_of_resolve hTable)).mp ?_
    simp [he, hf, hIdentity]
  · intro p q table table' hTable hTable' hProvider i j e f he hf hSymbol hSymbol'
    obtain ⟨r, hr, _, hOwn⟩ := anonymousEvent_of_resolve hTable he hSymbol
    obtain ⟨s, hs, _, hOwn'⟩ := anonymousEvent_of_resolve hTable' hf hSymbol'
    refine ⟨r, s, hr, hs, fun hSame => hProvider ?_⟩
    rw [hOwn, hOwn', Symbol.anonymousEvent_eq_iff] at hSame
    exact hSame.1

/-- Two events, the second with a blank for its symbol. -/
def blankSymbols : Provider :=
  .bare "P"
    [⟨1, 0, none, none, none, none, [], false, none, none⟩,
      ⟨16, 0, none, none, none, none, [], false, some " ", none⟩]

/-- A provider whose symbol is the symbol of an event of the other one. -/
def eventLike : Provider :=
  { Provider.bare "Q" [⟨0, 0, none, none, none, none, [], false, none, none⟩] with
    symbol := some "P_EVENT_0x1_0_0_0_0_0_0" }

/-- The two events of one provider are told apart by their values, although both symbols count as
missing. An event of the second provider begins like one of the first, and still differs. -/
theorem unauthored_symbols_apart_blankSymbols :
    ∃ table table', resolve blankSymbols = .ok table ∧ resolve eventLike = .ok table' ∧
      table.provider ≠ table'.provider ∧
      (∃ r s, table.events[0]? = some r ∧ table.events[1]? = some s ∧ r.symbol ≠ s.symbol) ∧
      ∃ r s, table.events[0]? = some r ∧ table'.events[0]? = some s ∧ r.symbol ≠ s.symbol := by
  obtain ⟨table, hTable⟩ : ∃ table, resolve blankSymbols = .ok table := ⟨_, rfl⟩
  obtain ⟨table', hTable'⟩ : ∃ table, resolve eventLike = .ok table := ⟨_, rfl⟩
  have hProvider : table.provider ≠ table'.provider := by
    rw [(presents_of_resolve hTable).provider, (presents_of_resolve hTable').provider]
    decide
  have hAbsent : IsUnauthored none := by simp [IsUnauthored]
  have hBlank : IsUnauthored (some " ") := by
    rw [← authored_eq_none_iff]
    rfl
  obtain ⟨_, hOwn, hOther⟩ := unauthored_symbols_apart
  exact ⟨table, table', hTable, hTable', hProvider,
    hOwn blankSymbols table hTable 0 1 _ _ rfl rfl hAbsent hBlank (by decide),
    hOther blankSymbols eventLike table table' hTable hTable' hProvider 0 0 _ _ rfl rfl hAbsent
      hAbsent⟩

end SymbolTable

end EventManifest
