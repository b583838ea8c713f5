import EventManifest.Proofs.Activity.Candidates
import EventManifest.Proofs.Activity.Naming
import Mathlib.Data.List.Nodup

/-!
What becomes of the pairs of a provider. A pair whose symbols have nothing in common has no name; of
pairs with one name the one of the smallest value keeps it; every other pair is an activity.
-/

namespace EventManifest.Activity

namespace Candidate

/-- A pair lacks a name exactly if its symbols have nothing in common. -/
theorem name_eq_empty_iff {c : Candidate} : c.name = "" ↔ c.common = "" := by
  rw [name, common, nameOf, commonPart, String.ofList_eq_empty_iff, String.ofList_eq_empty_iff,
    nameChars_eq_nil_iff]

end Candidate

/-- The name of a pair among all pairs: where another pair would be cut to the same name, the whole
common part of its symbols. -/
def settledName (all : List (UInt16 × Candidate)) (x : UInt16 × Candidate) : String :=
  if ∃ y ∈ all, y.1 ≠ x.1 ∧ y.2.name = x.2.name then x.2.common else x.2.name

/-- What becomes of a pair among all pairs. -/
def outcome (all : List (UInt16 × Candidate)) (x : UInt16 × Candidate) : ActivityPair ⊕ Issue :=
  if x.2.common = "" then .inr (.unnamed x.2)
  else if ∃ y ∈ all, y.1 < x.1 ∧ y.2.common ≠ "" ∧ settledName all y = settledName all x then
    .inr (.reused x.2 (settledName all x))
  else .inl ⟨settledName all x, x.2.start, x.2.stop⟩

section Sorted

variable {all : List (UInt16 × Candidate)} (hSorted : all.Pairwise fun x y => x.1 < y.1)

include hSorted

/-- A pair is not alone with a property exactly if a pair of another value has it too. Pairs of one
value are the same pair. -/
theorem one_lt_countP_iff {q : UInt16 × Candidate → Bool} {x : UInt16 × Candidate} (hx : x ∈ all)
    (hq : q x = true) : 1 < all.countP q ↔ ∃ y ∈ all, y.1 ≠ x.1 ∧ q y = true := by
  obtain ⟨before, after, rfl⟩ := List.append_of_mem hx
  obtain ⟨_, hTail, hBefore⟩ := List.pairwise_append.mp hSorted
  obtain ⟨hAfter, _⟩ := List.pairwise_cons.mp hTail
  have hCount : 1 < (before ++ x :: after).countP q ↔
      0 < before.countP q ∨ 0 < after.countP q := by
    rw [List.countP_append, List.countP_cons_of_pos hq]
    omega
  rw [hCount, List.countP_pos_iff, List.countP_pos_iff]
  constructor
  · rintro (⟨y, hy, hqy⟩ | ⟨y, hy, hqy⟩)
    · have hLess := hBefore y hy x List.mem_cons_self
      exact ⟨y, List.mem_append_left _ hy, UInt16.ne_of_lt hLess, hqy⟩
    · have hLess := hAfter y hy
      exact ⟨y, List.mem_append_right _ (List.mem_cons_of_mem _ hy),
        (UInt16.ne_of_lt hLess).symm, hqy⟩
  · rintro ⟨y, hy, hOther, hqy⟩
    rcases List.mem_append.mp hy with hy | hy
    · exact Or.inl ⟨y, hy, hqy⟩
    · rcases List.mem_cons.mp hy with rfl | hy
      · exact absurd rfl hOther
      · exact Or.inr ⟨y, hy, hqy⟩

/-- Of the pairs that have a name, those before a pair are the ones of smaller value. Pairs without
a name are passed over. -/
theorem mem_before_iff {before rest : List (UInt16 × Candidate)} {x y : UInt16 × Candidate}
    (hSplit : all.filter (fun y => !y.2.name.isEmpty) = before ++ x :: rest) :
    y ∈ before ↔ y ∈ all ∧ y.1 < x.1 ∧ y.2.common ≠ "" := by
  have hNamed : y ∈ before ++ x :: rest ↔ y ∈ all ∧ y.2.common ≠ "" := by
    rw [← hSplit, List.mem_filter, Bool.not_eq_true', Bool.eq_false_iff, Ne, String.isEmpty_iff,
      Candidate.name_eq_empty_iff]
  have hOrder : (before ++ x :: rest).Pairwise fun x y => x.1 < y.1 := hSplit ▸ hSorted.filter _
  obtain ⟨_, hTail, hBefore⟩ := List.pairwise_append.mp hOrder
  obtain ⟨hRest, _⟩ := List.pairwise_cons.mp hTail
  constructor
  · intro hy
    obtain ⟨hMem, hCommon⟩ := hNamed.mp (List.mem_append_left _ hy)
    exact ⟨hMem, hBefore y hy x List.mem_cons_self, hCommon⟩
  · rintro ⟨hMem, hLess, hCommon⟩
    rcases List.mem_append.mp (hNamed.mpr ⟨hMem, hCommon⟩) with hy | hy
    · exact hy
    · rcases List.mem_cons.mp hy with rfl | hy
      · exact absurd hLess (UInt16.lt_irrefl _)
      · exact absurd hLess (UInt16.lt_asymm (hRest y hy))

/-- Only pairs with a name are counted, but a pair that shares a name has one. So it makes no
difference whether all pairs are looked at. -/
theorem finalName_eq_settledName {x : UInt16 × Candidate} (hx : x ∈ all)
    (hName : x.2.name ≠ "") :
    finalName ((all.filter fun y => !y.2.name.isEmpty).map Prod.snd) x.2 = settledName all x := by
  have hCount : ((all.filter fun y => !y.2.name.isEmpty).map Prod.snd).countP
      (fun d => d.name = x.2.name) = all.countP fun y => y.2.name = x.2.name := by
    rw [List.countP_map, List.countP_filter]
    refine List.countP_congr fun y _ => ?_
    simp only [Function.comp_apply, Bool.and_eq_true, decide_eq_true_eq, Bool.not_eq_true',
      Bool.eq_false_iff, Ne, String.isEmpty_iff, and_iff_left_iff_imp]
    exact fun hSame => hSame ▸ hName
  rw [finalName, settledName, hCount]
  refine if_congr ?_ rfl rfl
  rw [one_lt_countP_iff hSorted hx (by simp)]
  simp only [decide_eq_true_eq]

/-- Giving out names from left to right settles every pair by what stands before it. The invariant
is that the names in use are those of all earlier pairs, including the ones that were left out for
reusing a name. -/
theorem assign_eq {before rest : List (UInt16 × Candidate)} {taken : List String}
    (hSplit : all.filter (fun y => !y.2.name.isEmpty) = before ++ rest)
    (hTaken : ∀ name, name ∈ taken ↔ ∃ y ∈ before, settledName all y = name) :
    assign ((all.filter fun y => !y.2.name.isEmpty).map Prod.snd) taken (rest.map Prod.snd) =
      ⟨(rest.map (outcome all)).filterMap Sum.getLeft?,
        (rest.map (outcome all)).filterMap Sum.getRight?⟩ := by
  induction rest generalizing before taken with
  | nil => rfl
  | cons x rest ih =>
      have hx : x ∈ all ∧ x.2.name ≠ "" := by
        have hMem : x ∈ all.filter fun y => !y.2.name.isEmpty := by
          rw [hSplit]
          exact List.mem_append_right _ List.mem_cons_self
        simpa using hMem
      have hFinal := finalName_eq_settledName hSorted hx.1 hx.2
      have hReused : settledName all x ∈ taken ↔
          ∃ y ∈ all, y.1 < x.1 ∧ y.2.common ≠ "" ∧ settledName all y = settledName all x := by
        simp only [hTaken, mem_before_iff hSorted hSplit, and_assoc]
      have hNext : all.filter (fun y => !y.2.name.isEmpty) = (before ++ [x]) ++ rest := by
        rw [hSplit, List.append_assoc, List.singleton_append]
      have hExtended (name : String) : (∃ y ∈ before ++ [x], settledName all y = name) ↔
          name ∈ taken ∨ settledName all x = name := by
        simp only [hTaken, List.mem_append, List.mem_singleton, or_and_right, exists_or,
          exists_eq_left]
      have hCommon : x.2.common ≠ "" := mt Candidate.name_eq_empty_iff.mpr hx.2
      rw [List.map_cons, List.map_cons, assign, hFinal]
      by_cases hMem : settledName all x ∈ taken
      · have hOutcome : outcome all x = .inr (.reused x.2 (settledName all x)) := by
          rw [outcome, if_neg hCommon, if_pos (hReused.mp hMem)]
        rw [if_pos (List.contains_iff_mem.mpr hMem), hOutcome, ih hNext]
        · rfl
        · intro name
          rw [hExtended]
          exact (or_iff_left_of_imp fun hSame => hSame ▸ hMem).symm
      · have hOutcome : outcome all x = .inl ⟨settledName all x, x.2.start, x.2.stop⟩ := by
          rw [outcome, if_neg hCommon, if_neg (mt hReused.mpr hMem)]
        rw [if_neg (mt List.contains_iff_mem.mp hMem), hOutcome, ih hNext]
        · rfl
        · intro name
          rw [hExtended, List.mem_cons, or_comm, @eq_comm _ name]

end Sorted

theorem outcome_of_unnamed {all : List (UInt16 × Candidate)} {x : UInt16 × Candidate}
    (h : x.2.name.isEmpty = true) : outcome all x = .inr (.unnamed x.2) := by
  rw [outcome, if_pos (Candidate.name_eq_empty_iff.mp (String.isEmpty_iff.mp h))]

section Find

variable (p : Provider) (table : SymbolTable)

/-- The named pairs give the activities and some of the issues, the others give the rest. The issues
of the latter come first, whatever their values are. -/
theorem find_eq :
    find p table =
      ⟨(((valued p table).filter fun x => !x.2.name.isEmpty).map
          (outcome (valued p table))).filterMap Sum.getLeft?,
        ((valued p table).filter fun x => x.2.name.isEmpty).map (fun x => .unnamed x.2) ++
          (((valued p table).filter fun x => !x.2.name.isEmpty).map
            (outcome (valued p table))).filterMap Sum.getRight?⟩ := by
  have hTaken (name : String) : name ∈ ([] : List String) ↔
      ∃ y ∈ ([] : List (UInt16 × Candidate)), settledName (valued p table) y = name := by
    simp
  have hAssign :=
    assign_eq (pairwise_lt_valued p table) (List.nil_append _).symm hTaken
  rw [find, ← map_snd_valued, List.filter_map, List.filter_map]
  simp only [Function.comp_def] at hAssign ⊢
  rw [hAssign, List.map_map]
  rfl

/-- The activities of a provider are the outcomes of its pairs, in their order. This is the order of
values. -/
theorem pairs_find :
    (find p table).pairs = ((valued p table).map (outcome (valued p table))).filterMap
      Sum.getLeft? := by
  rw [find_eq]
  dsimp only
  rw [List.filterMap_map, List.filterMap_map, List.filterMap_filter]
  refine List.filterMap_congr fun x _ => ?_
  split
  · rfl
  · rename_i hUnnamed
    rw [Function.comp_apply, outcome_of_unnamed (by simpa using hUnnamed)]
    rfl

/-- The issues are the other outcomes. Those of pairs without a name come first, so that only the
collection of the issues is claimed. -/
theorem issues_find_perm :
    (find p table).issues.Perm (((valued p table).map (outcome (valued p table))).filterMap
      Sum.getRight?) := by
  have hUnnamed : ((valued p table).filter fun x => x.2.name.isEmpty).map (fun x => .unnamed x.2) =
      (((valued p table).filter fun x => x.2.name.isEmpty).map
        (outcome (valued p table))).filterMap Sum.getRight? := by
    rw [List.filterMap_map, ← List.filterMap_eq_map]
    refine List.filterMap_congr fun x hx => ?_
    rw [Function.comp_apply, Function.comp_apply, outcome_of_unnamed (List.mem_filter.mp hx).2]
    rfl
  rw [find_eq]
  dsimp only
  rw [hUnnamed, ← List.filterMap_append, ← List.map_append]
  exact ((List.filter_append_perm _ _).map _).filterMap _

end Find

theorem settledName_ne_empty {all : List (UInt16 × Candidate)} {x : UInt16 × Candidate}
    (hCommon : x.2.common ≠ "") : settledName all x ≠ "" := by
  rw [settledName]
  split
  · exact hCommon
  · exact mt Candidate.name_eq_empty_iff.mp hCommon

/-- When a pair becomes an activity: it has a name, and no pair of smaller value has settled for the
same one. -/
theorem outcome_eq_inl_iff {all : List (UInt16 × Candidate)} {x : UInt16 × Candidate}
    {pair : ActivityPair} :
    outcome all x = .inl pair ↔
      x.2.common ≠ "" ∧
        (¬ ∃ y ∈ all, y.1 < x.1 ∧ y.2.common ≠ "" ∧ settledName all y = settledName all x) ∧
        pair = ⟨settledName all x, x.2.start, x.2.stop⟩ := by
  by_cases hCommon : x.2.common = ""
  · simp [outcome, hCommon]
  by_cases hReused :
      ∃ y ∈ all, y.1 < x.1 ∧ y.2.common ≠ "" ∧ settledName all y = settledName all x
  · rw [outcome, if_neg hCommon, if_pos hReused]
    exact iff_of_false nofun fun h => h.2.1 hReused
  · rw [outcome, if_neg hCommon, if_neg hReused, Sum.inl.injEq, eq_comm]
    exact ⟨fun hPair => ⟨hCommon, hReused, hPair⟩, fun h => h.2.2⟩

/-- An activity comes from a pair that has its name for itself. Of several pairs with one name this
is the first. -/
theorem mem_pairs_find_iff {p : Provider} {table : SymbolTable} {pair : ActivityPair} :
    pair ∈ (find p table).pairs ↔
      ∃ x ∈ valued p table, outcome (valued p table) x = .inl pair := by
  simp [pairs_find]

/-- What holds between the pairs of different values holds between activities. -/
theorem pairwise_pairs_find {p : Provider} {table : SymbolTable}
    {R : ActivityPair → ActivityPair → Prop}
    (hR : ∀ x ∈ valued p table, ∀ y ∈ valued p table, x.1 < y.1 → ∀ a b,
      outcome (valued p table) x = .inl a → outcome (valued p table) y = .inl b → R a b) :
    (find p table).pairs.Pairwise R := by
  rw [pairs_find, List.filterMap_map]
  refine List.Pairwise.filterMap _ (fun x y hxy a ha b hb => ?_)
    ((pairwise_lt_valued p table).imp_of_mem fun hx hy hLess => (⟨hx, hy, hLess⟩ : _ ∧ _ ∧ _))
  obtain ⟨hx, hy, hLess⟩ := hxy
  exact hR x hx y hy hLess a b (Sum.getLeft?_eq_some_iff.mp ha) (Sum.getLeft?_eq_some_iff.mp hb)

/-- No two activities have the same name. Whether a name is also the symbol of an event is not
looked at. -/
theorem nodup_symbol_pairs (p : Provider) (table : SymbolTable) :
    ((find p table).pairs.map ActivityPair.symbol).Nodup := by
  rw [List.Nodup, List.pairwise_map]
  refine pairwise_pairs_find fun x hx y _ hLess a b ha hb hSame => ?_
  obtain ⟨hCommon, _, rfl⟩ := outcome_eq_inl_iff.mp ha
  obtain ⟨_, hFresh, rfl⟩ := outcome_eq_inl_iff.mp hb
  exact hFresh ⟨x, hx, hLess, hCommon, hSame⟩

/-- No event has a part in two activities, nor two parts in one. This needs that no two events have
the same identity. -/
theorem nodup_index_pairs {p : Provider} {table : SymbolTable}
    (hNodup : (p.events.map Event.identity).Nodup) :
    ((find p table).pairs.flatMap fun pair => [pair.start, pair.stop]).Nodup := by
  rw [List.nodup_flatMap]
  constructor
  · intro pair hPair
    obtain ⟨x, hx, hOutcome⟩ := mem_pairs_find_iff.mp hPair
    obtain ⟨_, _, rfl⟩ := outcome_eq_inl_iff.mp hOutcome
    have hAt := (mem_valued_iff hNodup).mp hx
    simpa using hAt.start_ne_stop hAt
  · refine pairwise_pairs_find fun x hx y hy hLess a b ha hb => ?_
    obtain ⟨_, _, rfl⟩ := outcome_eq_inl_iff.mp ha
    obtain ⟨_, _, rfl⟩ := outcome_eq_inl_iff.mp hb
    have hAt := (mem_valued_iff hNodup).mp hx
    have hAt' := (mem_valued_iff hNodup).mp hy
    have hValue : x.1 ≠ y.1 := UInt16.ne_of_lt hLess
    simp only [Function.onFun, List.disjoint_cons_left, List.mem_cons, List.not_mem_nil, or_false,
      not_or, List.disjoint_nil_left, and_true]
    exact ⟨⟨fun h => hValue (hAt.value_eq_of_start_eq hAt' h), hAt.start_ne_stop hAt'⟩,
      (hAt'.start_ne_stop hAt).symm, fun h => hValue (hAt.value_eq_of_stop_eq hAt' h)⟩

/-- The codes of the two issues. -/
def Issue.code : Issue → String
  | unnamed _ => "W0300"
  | reused _ _ => "W0301"

/-- Issues are warnings. They do not keep a provider from being planned. -/
theorem Issue.code_diagnostic (provider : String) (issue : Issue) :
    (issue.diagnostic provider).severity = .warning ∧
      (issue.diagnostic provider).code = some ⟨issue.code⟩ := by
  cases issue <;> exact ⟨rfl, rfl⟩

/-- Every pair of a provider is named, or reported as having no name or a used one, and nothing else
is found. The activities come by increasing value, under names of their own, and share no event. -/
theorem find_settles_pairs {p : Provider} {table : SymbolTable}
    (hTable : SymbolTable.resolve p = .ok table) :
    ∃ all : List (UInt16 × Candidate),
      (all.Pairwise fun x y => x.1 < y.1) ∧
      (∀ value c, (value, c) ∈ all ↔ PairsAt p table value c) ∧
      (find p table).pairs = (all.map (outcome all)).filterMap Sum.getLeft? ∧
      (find p table).issues.Perm ((all.map (outcome all)).filterMap Sum.getRight?) ∧
      (∀ issue ∈ (find p table).issues, (issue.diagnostic p.name).severity = .warning ∧
        (issue.diagnostic p.name).code = some ⟨issue.code⟩) ∧
      (∀ pair ∈ (find p table).pairs, pair.symbol ≠ "") ∧
      ((find p table).pairs.map ActivityPair.symbol).Nodup ∧
      ((find p table).pairs.flatMap fun pair => [pair.start, pair.stop]).Nodup := by
  have hNodup := SymbolTable.nodup_identity_of_resolve hTable
  refine ⟨valued p table, pairwise_lt_valued p table, fun _ _ => mem_valued_iff hNodup,
    pairs_find p table, issues_find_perm p table, fun issue _ => issue.code_diagnostic p.name, ?_,
    nodup_symbol_pairs p table, nodup_index_pairs hNodup⟩
  intro pair hPair
  obtain ⟨x, _, hOutcome⟩ := mem_pairs_find_iff.mp hPair
  obtain ⟨hCommon, _, rfl⟩ := outcome_eq_inl_iff.mp hOutcome
  exact settledName_ne_empty hCommon

/-- Three pairs: two whose symbols have the same common part, and one without a common part. -/
def reusedName : Provider :=
  { Provider.bare "P"
      ([((10 : UInt16), "Start", "Op_XStart"), (11, "win:Stop", "Op_XStop"),
        (20, "Start", "Op_XStart2"), (21, "Stop", "Op_XStop2"), (30, "Start", "Begin"),
        (31, "Stop", "End")].map fun (value, opcode, symbol) =>
          ⟨value, 0, none, none, none, some opcode, [], false, some symbol, none⟩) with
    opcodes := ["Start", "Stop", "win:Stop"].map fun name => ⟨name, 1, none⟩ }

theorem values_reusedName :
    values (marks reusedName.events) = [10, 11, 20, 21, 30, 31] := by
  have hDistinct : distinct ((marks reusedName.events).map fun m => m.event.value) =
      [10, 11, 20, 21, 30, 31] := by
    decide
  rw [values, hDistinct]
  exact List.mergeSort_of_pairwise (by decide)

/-- The first pair is the activity, the second reuses its name, and the third has none. The report
about the third comes first. -/
theorem find_settles_reusedName :
    ∃ table, SymbolTable.resolve reusedName = .ok table ∧
      (find reusedName table).pairs = [⟨"Op_XSt", 0, 1⟩] ∧
      (find reusedName table).issues.map Issue.code = ["W0300", "W0301"] ∧
      ∃ all : List (UInt16 × Candidate),
        (∀ value c, (value, c) ∈ all ↔ PairsAt reusedName table value c) ∧
        (find reusedName table).pairs = (all.map (outcome all)).filterMap Sum.getLeft? ∧
        (find reusedName table).issues.Perm
          ((all.map (outcome all)).filterMap Sum.getRight?) := by
  obtain ⟨all, _, hAll, hPairs, hIssues, _⟩ := find_settles_pairs (p := reusedName) rfl
  refine ⟨_, rfl, ?_, ?_, all, hAll, hPairs, hIssues⟩
  · rw [find, candidates, values_reusedName]
    decide +kernel
  · rw [find, candidates, values_reusedName]
    decide +kernel

end EventManifest.Activity
