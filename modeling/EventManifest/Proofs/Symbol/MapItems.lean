import EventManifest.Proofs.Symbol.AnonymousEvents

/-!
Items of maps without an authored symbol. Their symbol is the symbol of the map with the number of
the item right behind it. Within a map these symbols differ, but a map may be called like another
one with digits behind it, and then an item of one can have the symbol of an item of the other.
-/

namespace EventManifest

namespace Symbol

/-- The symbol of a map goes over into the symbol of another one with the first digits of a number,
and the rest of the number is that of an item there. -/
def RunsInto (map : String) (index : Nat) (other : String) (position : Nat) : Prop :=
  ∃ digits : List Char, digits ≠ [] ∧ other.toList = map.toList ++ digits ∧
    Nat.toDigits 10 index = digits ++ Nat.toDigits 10 position

/-- A map does not run into itself, since at least one digit goes over. -/
theorem RunsInto.ne {map other : String} {index position : Nat}
    (h : RunsInto map index other position) : map ≠ other := by
  rintro rfl
  obtain ⟨digits, hSome, hSame, _⟩ := h
  exact hSome (by simpa using hSame)

/-- It takes a number of two digits at least. Maps of at most ten items run into no other. -/
theorem RunsInto.ten_le {map other : String} {index position : Nat}
    (h : RunsInto map index other position) : 10 ≤ index := by
  obtain ⟨digits, hSome, _, hIndex⟩ := h
  by_contra hSmall
  have hOne := (Nat.length_toDigits_le_iff (b := 10) (n := index) (by decide) Nat.one_pos).mpr
    (by omega)
  have hFirst : 0 < digits.length := List.length_pos_iff.mpr hSome
  have hRest : 0 < (Nat.toDigits 10 position).length := Nat.length_toDigits_pos
  rw [hIndex, List.length_append] at hOne
  omega

theorem toDigits_ten_inj {m n : Nat} : Nat.toDigits 10 m = Nat.toDigits 10 n ↔ m = n := by
  constructor
  · intro h
    have hRead := congrArg (Nat.ofDigitChars 10 · 0) h
    simpa only [Nat.ofDigitChars_ten_toDigits] using hRead
  · rintro rfl
    rfl

/-- Two texts with numbers behind them are equal only by their parts, or if one text goes over into
the other. -/
theorem append_number_eq_iff {map other : String} {index position : Nat} :
    map ++ s!"{index}" = other ++ s!"{position}" ↔
      map = other ∧ index = position ∨ RunsInto map index other position ∨
        RunsInto other position map index := by
  rw [← String.toList_inj, String.toList_append, String.toList_append,
    Nat.toString_eq_ofList_toDigits, Nat.toString_eq_ofList_toDigits, String.toList_ofList,
    String.toList_ofList]
  constructor
  · intro h
    rcases List.append_eq_append_iff.mp h with ⟨digits, hOther, hIndex⟩ | ⟨digits, hMap, hPosition⟩
    · by_cases hNone : digits = []
      · subst hNone
        rw [List.append_nil, String.toList_inj] at hOther
        exact Or.inl ⟨hOther.symm, toDigits_ten_inj.mp hIndex⟩
      · exact Or.inr (Or.inl ⟨digits, hNone, hOther, hIndex⟩)
    · by_cases hNone : digits = []
      · subst hNone
        rw [List.append_nil, String.toList_inj] at hMap
        exact Or.inl ⟨hMap, (toDigits_ten_inj.mp hPosition).symm⟩
      · exact Or.inr (Or.inr ⟨digits, hNone, hMap, hPosition⟩)
  · rintro (⟨rfl, rfl⟩ | ⟨digits, _, hOther, hIndex⟩ | ⟨digits, _, hMap, hPosition⟩)
    · rfl
    · rw [hOther, hIndex, List.append_assoc]
    · rw [hMap, hPosition, List.append_assoc]

/-- Nothing stands between the symbol of a map and the position of an item, which is why two maps
can meet. -/
theorem ofMapItem_of_isUnauthored {item : MapItem} (h : IsUnauthored item.symbol) (map : String)
    (index : Nat) : ofMapItem map index item = map ++ s!"{index}" := by
  rw [ofMapItem, authored_eq_none_iff.mpr h, Option.getD_none]

end Symbol

/-- A map of the provider has an item without an authored symbol at these places. -/
def Provider.HasUnauthoredItem (p : Provider) (map index : Nat) : Prop :=
  ∃ m item, p.maps[map]? = some m ∧ m.items[index]? = some item ∧ IsUnauthored item.symbol

namespace SymbolTable

/-- What a table has in the place of such an item. The symbol of its map may be authored or not. -/
theorem symbol_of_hasUnauthoredItem {p : Provider} {table : SymbolTable}
    (hTable : resolve p = .ok table) {map index : Nat} (h : p.HasUnauthoredItem map index) :
    ∃ m v, table.maps[map]? = some m ∧ m.items[index]? = some v ∧
      v.symbol = m.symbol ++ s!"{index}" := by
  obtain ⟨m, item, hMap, hItem, hSymbol⟩ := h
  have hMaps := (presents_of_resolve hTable).maps
  obtain ⟨hLess, rfl⟩ := List.getElem?_eq_some_iff.mp hMap
  have hLess' : map < table.maps.length := hMaps.length_eq ▸ hLess
  obtain ⟨_, _, hItems⟩ := hMaps.get hLess hLess'
  have hPlace : index < p.maps[map].items.zipIdx.length := by
    simpa using (List.getElem?_eq_some_iff.mp hItem).1
  have hPlace' : index < table.maps[map].items.length := hItems.length_eq ▸ hPlace
  obtain ⟨hOwn, _⟩ := hItems.get hPlace hPlace'
  refine ⟨_, _, List.getElem?_eq_getElem hLess', List.getElem?_eq_getElem hPlace', ?_⟩
  obtain ⟨_, rfl⟩ := List.getElem?_eq_some_iff.mp hItem
  simp only [List.get_eq_getElem, List.getElem_zipIdx, Nat.zero_add] at hOwn
  rw [hOwn, Symbol.ofMapItem_of_isUnauthored hSymbol]

/-- When two items without authored symbols have one symbol, the symbols of all maps being
different. It happens exactly if the symbol of one map goes over into that of the other, so never
within a map and never among the first ten items. -/
theorem unauthored_items_clash_iff {p : Provider} {table : SymbolTable}
    (hTable : resolve p = .ok table) (hMaps : (table.maps.map ResolvedMap.symbol).Nodup)
    {i j k l : Nat} (hItem : p.HasUnauthoredItem i k) (hOther : p.HasUnauthoredItem j l)
    (hApart : (i, k) ≠ (j, l)) :
    ∃ m n v w, table.maps[i]? = some m ∧ table.maps[j]? = some n ∧ m.items[k]? = some v ∧
      n.items[l]? = some w ∧
      (v.symbol = w.symbol ↔
        Symbol.RunsInto m.symbol k n.symbol l ∨ Symbol.RunsInto n.symbol l m.symbol k) ∧
      (i = j → v.symbol ≠ w.symbol) ∧ (k < 10 → l < 10 → v.symbol ≠ w.symbol) := by
  obtain ⟨m, v, hm, hv, hSymbol⟩ := symbol_of_hasUnauthoredItem hTable hItem
  obtain ⟨n, w, hn, hw, hSymbol'⟩ := symbol_of_hasUnauthoredItem hTable hOther
  have hParts : ¬ (m.symbol = n.symbol ∧ k = l) := by
    rintro ⟨hSame, rfl⟩
    have hi : i < (table.maps.map ResolvedMap.symbol).length := by
      simpa using (List.getElem?_eq_some_iff.mp hm).1
    refine hApart (congrArg (·, k) ((List.getElem?_inj hi hMaps).mp ?_))
    rw [List.getElem?_map, List.getElem?_map, hm, hn, Option.map_some, Option.map_some, hSame]
  have hClash : v.symbol = w.symbol ↔
      Symbol.RunsInto m.symbol k n.symbol l ∨ Symbol.RunsInto n.symbol l m.symbol k := by
    rw [hSymbol, hSymbol', Symbol.append_number_eq_iff, or_iff_right hParts]
  refine ⟨m, n, v, w, hm, hn, hv, hw, hClash, ?_, ?_⟩
  · rintro rfl hSame
    obtain rfl : m = n := Option.some.inj (hm.symm.trans hn)
    rcases hClash.mp hSame with hRuns | hRuns <;> exact hRuns.ne rfl
  · intro hk hl hSame
    rcases hClash.mp hSame with hRuns | hRuns
    · exact Nat.not_le_of_lt hk hRuns.ten_le
    · exact Nat.not_le_of_lt hl hRuns.ten_le

/-- A map of eleven items, and one that is called like it with a digit more. -/
def numberedMaps : Provider :=
  { Provider.bare "P" [] with
    maps := [⟨"A", .value, none, List.replicate 11 ⟨0, none, none⟩⟩,
      ⟨"A1", .value, none, [⟨0, some " ", none⟩]⟩] }

/-- The last item of the first map has the symbol of the only item of the second. The symbols of the
maps themselves differ, and the table is made without complaint. -/
theorem unauthored_items_clash_numberedMaps :
    ∃ table m n v w, resolve numberedMaps = .ok table ∧
      (table.maps.map ResolvedMap.symbol).Nodup ∧ table.maps[0]? = some m ∧
      table.maps[1]? = some n ∧ m.items[10]? = some v ∧ n.items[0]? = some w ∧
      v.symbol = w.symbol := by
  obtain ⟨table, hTable⟩ : ∃ table, resolve numberedMaps = .ok table := ⟨_, rfl⟩
  have hSymbols : table.maps.map ResolvedMap.symbol = ["P_MAP_A", "P_MAP_A1"] := by
    cases hTable
    decide
  have hAbsent : IsUnauthored none := by simp [IsUnauthored]
  have hBlank : IsUnauthored (some " ") := by
    rw [← authored_eq_none_iff]
    rfl
  have hMaps : (table.maps.map ResolvedMap.symbol).Nodup := by
    rw [hSymbols]
    decide
  obtain ⟨m, n, v, w, hm, hn, hv, hw, hClash, _⟩ := unauthored_items_clash_iff hTable hMaps
    (i := 0) (j := 1) (k := 10) (l := 0) ⟨_, _, rfl, rfl, hAbsent⟩ ⟨_, _, rfl, rfl, hBlank⟩
    (by decide)
  have hFirst : m.symbol = "P_MAP_A" := by
    have hPlace := congrArg (·[0]?) hSymbols
    simpa [hm] using hPlace
  have hSecond : n.symbol = "P_MAP_A1" := by
    have hPlace := congrArg (·[1]?) hSymbols
    simpa [hn] using hPlace
  refine ⟨table, m, n, v, w, hTable, hMaps, hm, hn, hv, hw, hClash.mpr (Or.inl ?_)⟩
  rw [hFirst, hSecond]
  exact ⟨['1'], by decide, by decide, by decide⟩

end SymbolTable

end EventManifest
