import EventManifest.Proofs.Activity.Scan
import Mathlib.Data.List.FinRange
import Mathlib.Data.List.Sort
import Mathlib.Order.Fin.Basic

/-!
The order in which a provider declares its events does not matter for its activities. A provider
whose events stand in another order can be resolved too, and its pairs are the same events under the
same names and by the same values. Only the positions by which a pair names its events move along.
-/

namespace EventManifest

/-- The same provider with the event from position `order i` at every position `i`. -/
def Provider.reorder (p : Provider) (order : Equiv.Perm (Fin p.events.length)) : Provider :=
  { p with events := List.ofFn fun i => p.events.get (order i) }

/-- Where the event at a position stood before. There is none beyond the end. -/
def formerPlace {n : Nat} (order : Equiv.Perm (Fin n)) (i : Nat) : Nat :=
  if h : i < n then order ⟨i, h⟩ else i

section FormerPlace

variable {n : Nat} (order : Equiv.Perm (Fin n))

theorem formerPlace_of_lt (i : Fin n) : formerPlace order i = order i := by
  simp [formerPlace]

/-- Every place within the list is a former one of some place. -/
theorem exists_formerPlace_eq {j : Nat} (hj : j < n) : ∃ i, formerPlace order i = j := by
  refine ⟨order.symm ⟨j, hj⟩, ?_⟩
  rw [formerPlace_of_lt, Equiv.apply_symm_apply]

/-- A list in another order has at each position what stood at the former one. Beyond the end there
is nothing in either. -/
theorem getElem?_ofFn_order {α : Type} (as : List α) (hLength : n = as.length) (i : Nat) :
    (List.ofFn fun i => as.get ((order i).cast hLength))[i]? = as[formerPlace order i]? := by
  by_cases hi : i < n
  · have hFormer : (order ⟨i, hi⟩).val < as.length := hLength ▸ (order ⟨i, hi⟩).isLt
    simp [formerPlace, hi, List.getElem?_eq_getElem hFormer]
  · simp [formerPlace, hi, ← hLength]

end FormerPlace

section Reorder

variable {p : Provider} (order : Equiv.Perm (Fin p.events.length))

/-- No event is lost or repeated. -/
theorem events_reorder_perm : (p.reorder order).events.Perm p.events := by
  have hPerm := order.ofFn_comp_perm p.events.get
  rwa [List.ofFn_get] at hPerm

theorem getElem?_reorder (i : Nat) :
    (p.reorder order).events[i]? = p.events[formerPlace order i]? :=
  getElem?_ofFn_order order p.events rfl i

/-- The reordered provider has a table, in which every event is resolved as before. Symbols and
descriptors do not depend on positions. -/
theorem exists_resolve_reorder {table : SymbolTable} (hTable : SymbolTable.resolve p = .ok table) :
    ∃ table', SymbolTable.resolve (p.reorder order) = .ok table' ∧
      ∀ i, table'.events[i]? = table.events[formerPlace order i]? := by
  obtain ⟨resolved, hResolved, hEq⟩ := Outcome.bind_eq_ok_iff.mp hTable
  cases hEq
  obtain ⟨hNodup, _, hEach⟩ := SymbolTable.resolveEvents_eq_ok_iff.mp hResolved
  have hLength := hEach.length_eq
  have hMoved : SymbolTable.resolveEvents (p.reorder order).name (.ofProvider (p.reorder order))
      (Symbol.ofProvider p) [] (p.reorder order).events =
        .ok (List.ofFn fun i => resolved.get ((order i).cast hLength)) := by
    refine SymbolTable.resolveEvents_eq_ok_iff.mpr ⟨?_, by simp, ?_⟩
    · exact ((events_reorder_perm order).map Event.identity).nodup_iff.mpr hNodup
    · rw [List.forall₂_iff_get]
      refine ⟨by simp [Provider.reorder], fun i hi hi' => ?_⟩
      simp only [Provider.reorder, List.get_eq_getElem, List.getElem_ofFn]
      exact hEach.get (order _).isLt _
  refine ⟨_, Outcome.bind_eq_ok_iff.mpr ⟨_, hMoved, rfl⟩, ?_⟩
  exact getElem?_ofFn_order order resolved hLength

end Reorder

namespace Activity

/-- A pair whose events are found at other positions. -/
def Candidate.relocate (place : Nat → Nat) (c : Candidate) : Candidate :=
  { c with start := place c.start, stop := place c.stop }

def Issue.relocate (place : Nat → Nat) : Issue → Issue
  | unnamed c => unnamed (c.relocate place)
  | reused c symbol => reused (c.relocate place) symbol

/-- Reports call events by their symbols. So a report stays word for word the same. -/
theorem Issue.diagnostic_relocate (place : Nat → Nat) (provider : String) (issue : Issue) :
    (issue.relocate place).diagnostic provider = issue.diagnostic provider := by
  cases issue <;> rfl

end Activity

/-- An activity whose events are found at other positions. -/
def ActivityPair.relocate (place : Nat → Nat) (pair : ActivityPair) : ActivityPair :=
  { pair with start := place pair.start, stop := place pair.stop }

namespace Activity

section Relocate

variable (place : Nat → Nat) (all : List (UInt16 × Candidate)) (x : UInt16 × Candidate)

/-- A pair with its value, found at other positions. -/
def relocateValued : UInt16 × Candidate :=
  (x.1, x.2.relocate place)

/-- Names are settled by symbols and values, and positions have no part in it. -/
theorem settledName_relocate :
    settledName (all.map (relocateValued place)) (relocateValued place x) = settledName all x := by
  simp only [settledName, List.mem_map, exists_exists_and_eq_and]
  rfl

/-- What becomes of a pair does not depend on the positions of its events. An activity keeps its
name and has its events elsewhere. -/
theorem outcome_relocate :
    outcome (all.map (relocateValued place)) (relocateValued place x) =
      (outcome all x).map (ActivityPair.relocate place) (Issue.relocate place) := by
  have hCommon (y : UInt16 × Candidate) : (relocateValued place y).2.common = y.2.common := rfl
  have hReused : (∃ y ∈ all.map (relocateValued place), y.1 < (relocateValued place x).1 ∧
      y.2.common ≠ "" ∧ settledName (all.map (relocateValued place)) y = settledName all x) ↔
      ∃ y ∈ all, y.1 < x.1 ∧ y.2.common ≠ "" ∧ settledName all y = settledName all x := by
    simp only [List.mem_map, exists_exists_and_eq_and, settledName_relocate, hCommon]
    rfl
  by_cases hEmpty : x.2.common = ""
  · rw [outcome, outcome, if_pos hEmpty, if_pos ((hCommon x).trans hEmpty)]
    rfl
  rw [outcome, outcome, if_neg hEmpty, if_neg (hCommon x ▸ hEmpty), settledName_relocate]
  by_cases hUsed : ∃ y ∈ all, y.1 < x.1 ∧ y.2.common ≠ "" ∧ settledName all y = settledName all x
  · rw [if_pos hUsed, if_pos (hReused.mpr hUsed)]
    rfl
  · rw [if_neg hUsed, if_neg (mt hReused.mp hUsed)]
    rfl

/-- If the pairs of a provider are those of another at other positions, so are its activities and
issues. -/
theorem find_of_valued_eq {p q : Provider} {table table' : SymbolTable}
    (h : valued p table = (valued q table').map (relocateValued place)) :
    (find p table).pairs = (find q table').pairs.map (ActivityPair.relocate place) ∧
      (find p table).issues = (find q table').issues.map (Issue.relocate place) := by
  have hName (y : UInt16 × Candidate) : (relocateValued place y).2.name = y.2.name := rfl
  have hOutcome : outcome ((valued q table').map (relocateValued place)) ∘ relocateValued place =
      Sum.map (ActivityPair.relocate place) (Issue.relocate place) ∘ outcome (valued q table') :=
    funext (outcome_relocate place (valued q table'))
  rw [find_eq p, find_eq q, h]
  simp only [List.filter_map, List.map_map, Function.comp_def, hName] at hOutcome ⊢
  simp only [hOutcome, List.map_append, List.filterMap_map, List.map_filterMap, List.map_map,
    Function.comp_def, Sum.getLeft?_map, Sum.getRight?_map, true_and]
  rfl

end Relocate

section Reorder

variable {p : Provider} (order : Equiv.Perm (Fin p.events.length))

/-- The event at a position speaks for a value if it did so at its former position. The highest
version is taken among the same events. -/
theorem represents_reorder_iff {value : UInt16} {phase : Phase} {i : Nat} {e : Event} :
    Represents (p.reorder order).events value phase i e ↔
      Represents p.events value phase (formerPlace order i) e := by
  have hMem (f : Event) : f ∈ (p.reorder order).events ↔ f ∈ p.events :=
    (events_reorder_perm order).mem_iff
  constructor
  · rintro ⟨hPlace, hLogged, hValue, hMarks, hHighest⟩
    rw [getElem?_reorder] at hPlace
    exact ⟨hPlace, hLogged, hValue, hMarks, fun f hf => hHighest f ((hMem f).mpr hf)⟩
  · rintro ⟨hPlace, hLogged, hValue, hMarks, hHighest⟩
    rw [← getElem?_reorder] at hPlace
    exact ⟨hPlace, hLogged, hValue, hMarks, fun f hf => hHighest f ((hMem f).mp hf)⟩

variable {table table' : SymbolTable}
  (hEvents : ∀ i, table'.events[i]? = table.events[formerPlace order i]?)

include hEvents

/-- Pairs are pairs in any order of the events. Start and stop need not stand side by side, nor in
this order. -/
theorem pairsAt_reorder_iff {value : UInt16} {c : Candidate} :
    PairsAt (p.reorder order) table' value c ↔
      PairsAt p table value (c.relocate (formerPlace order)) := by
  constructor
  · rintro ⟨hPositive, ⟨e, hStop, hPayload⟩, ⟨f, hStart⟩, hResolved⟩
    rw [hEvents, hEvents] at hResolved
    exact ⟨hPositive, ⟨e, (represents_reorder_iff order).mp hStop, hPayload⟩,
      ⟨f, (represents_reorder_iff order).mp hStart⟩, hResolved⟩
  · rintro ⟨hPositive, ⟨e, hStop, hPayload⟩, ⟨f, hStart⟩, hResolved⟩
    refine ⟨hPositive, ⟨e, (represents_reorder_iff order).mpr hStop, hPayload⟩,
      ⟨f, (represents_reorder_iff order).mpr hStart⟩, ?_⟩
    rwa [hEvents, hEvents]

/-- The pairs of both providers are the same. Each list is ordered by values, so it is enough that
they have the same members. -/
theorem valued_reorder (hNodup : (p.events.map Event.identity).Nodup) :
    valued p table =
      (valued (p.reorder order) table').map (relocateValued (formerPlace order)) := by
  have hNodup' : ((p.reorder order).events.map Event.identity).Nodup :=
    ((events_reorder_perm order).map Event.identity).nodup_iff.mpr hNodup
  have hMem (x : UInt16 × Candidate) : x ∈ valued p table ↔
      x ∈ (valued (p.reorder order) table').map (relocateValued (formerPlace order)) := by
    obtain ⟨value, c⟩ := x
    rw [mem_valued_iff hNodup, List.mem_map]
    constructor
    · intro hPairs
      obtain ⟨e, hStop, _⟩ := hPairs.stop
      obtain ⟨f, hStart⟩ := hPairs.start
      obtain ⟨hStopBound, _⟩ := List.getElem?_eq_some_iff.mp hStop.place
      obtain ⟨hStartBound, _⟩ := List.getElem?_eq_some_iff.mp hStart.place
      obtain ⟨stop, hStopPlace⟩ := exists_formerPlace_eq order hStopBound
      obtain ⟨start, hStartPlace⟩ := exists_formerPlace_eq order hStartBound
      have hMoved : c = Candidate.relocate (formerPlace order)
          ⟨start, stop, c.startSymbol, c.stopSymbol⟩ := by
        rw [Candidate.relocate, hStopPlace, hStartPlace]
      refine ⟨(value, ⟨start, stop, c.startSymbol, c.stopSymbol⟩), ?_, ?_⟩
      · rw [mem_valued_iff hNodup', pairsAt_reorder_iff order hEvents, ← hMoved]
        exact hPairs
      · rw [relocateValued, ← hMoved]
    · rintro ⟨⟨value', c'⟩, hIn, hSame⟩
      cases hSame
      exact (pairsAt_reorder_iff order hEvents).mp ((mem_valued_iff hNodup').mp hIn)
  have hSorted : ((valued (p.reorder order) table').map
      (relocateValued (formerPlace order))).Pairwise fun x y => x.1 < y.1 :=
    List.pairwise_map.mpr (pairwise_lt_valued _ _)
  have : Std.Antisymm fun x y : UInt16 × Candidate => x.1 < y.1 :=
    ⟨fun _ _ hLess hGreater => absurd hGreater (UInt16.lt_asymm hLess)⟩
  have : Std.Irrefl fun x y : UInt16 × Candidate => x.1 < y.1 :=
    ⟨fun x => UInt16.lt_irrefl x.1⟩
  exact (pairwise_lt_valued p table).eq_of_mem_iff hSorted hMem

end Reorder

/-- The events of a pair are events of the provider, so they have a former place. -/
theorem lt_of_mem_pairs_find {p : Provider} {table : SymbolTable}
    (hNodup : (p.events.map Event.identity).Nodup) {pair : ActivityPair}
    (hPair : pair ∈ (find p table).pairs) :
    pair.start < p.events.length ∧ pair.stop < p.events.length := by
  obtain ⟨x, hx, hOutcome⟩ := mem_pairs_find_iff.mp hPair
  obtain ⟨_, _, rfl⟩ := outcome_eq_inl_iff.mp hOutcome
  have hAt := (mem_valued_iff hNodup).mp hx
  obtain ⟨e, hStop, _⟩ := hAt.stop
  obtain ⟨f, hStart⟩ := hAt.start
  obtain ⟨hStopBound, _⟩ := List.getElem?_eq_some_iff.mp hStop.place
  obtain ⟨hStartBound, _⟩ := List.getElem?_eq_some_iff.mp hStart.place
  exact ⟨hStartBound, hStopBound⟩

/-- A provider whose events stand in another order has the same activities and the same reports, both
in the same order. The position `i` of an event there is `order i` in the provider itself. -/
theorem find_reorder {p : Provider} {table : SymbolTable}
    (hTable : SymbolTable.resolve p = .ok table) (order : Equiv.Perm (Fin p.events.length)) :
    ∃ table', SymbolTable.resolve (p.reorder order) = .ok table' ∧
      (find (p.reorder order) table').issues.map (Issue.diagnostic (p.reorder order).name) =
        (find p table).issues.map (Issue.diagnostic p.name) ∧
      List.Forall₂ (fun pair' pair => pair'.symbol = pair.symbol ∧
          ∃ i j, pair'.start = i.val ∧ pair.start = (order i).val ∧
            pair'.stop = j.val ∧ pair.stop = (order j).val)
        (find (p.reorder order) table').pairs (find p table).pairs := by
  obtain ⟨table', hTable', hEvents⟩ := exists_resolve_reorder order hTable
  have hNodup := SymbolTable.nodup_identity_of_resolve hTable
  have hNodup' := SymbolTable.nodup_identity_of_resolve hTable'
  obtain ⟨hPairs, hIssues⟩ := find_of_valued_eq _ (valued_reorder order hEvents hNodup)
  refine ⟨table', hTable', ?_, ?_⟩
  · rw [hIssues, List.map_map]
    refine List.map_congr_left fun issue _ => ?_
    exact (issue.diagnostic_relocate _ p.name).symm
  · rw [hPairs, List.forall₂_map_right_iff, List.forall₂_same]
    intro pair hPair
    obtain ⟨hStart, hStop⟩ := lt_of_mem_pairs_find hNodup' hPair
    rw [(events_reorder_perm order).length_eq] at hStart hStop
    exact ⟨rfl, ⟨pair.start, hStart⟩, ⟨pair.stop, hStop⟩, rfl,
      formerPlace_of_lt order ⟨pair.start, hStart⟩, rfl,
      formerPlace_of_lt order ⟨pair.stop, hStop⟩⟩

/-- The provider with three pairs, read from its last event to its first. The first pair by value
remains the one that keeps the name. -/
theorem find_reorder_reusedName :
    ∃ table table', SymbolTable.resolve reusedName = .ok table ∧
      SymbolTable.resolve (reusedName.reorder Fin.revPerm) = .ok table' ∧
      (find reusedName table).pairs = [⟨"Op_XSt", 0, 1⟩] ∧
      (find (reusedName.reorder Fin.revPerm) table').pairs = [⟨"Op_XSt", 5, 4⟩] ∧
      (find (reusedName.reorder Fin.revPerm) table').issues.map
          (Issue.diagnostic (reusedName.reorder Fin.revPerm).name) =
        (find reusedName table).issues.map (Issue.diagnostic reusedName.name) := by
  have hReused : ∃ table, SymbolTable.resolve reusedName = .ok table ∧
      (find reusedName table).pairs = [⟨"Op_XSt", 0, 1⟩] := by
    refine ⟨_, rfl, ?_⟩
    rw [find, candidates, values_reusedName]
    decide +kernel
  obtain ⟨table, hTable, hFound⟩ := hReused
  obtain ⟨table', hTable', hIssues, hPairs⟩ := find_reorder hTable Fin.revPerm
  refine ⟨table, table', hTable, hTable', hFound, ?_, hIssues⟩
  rw [hFound, List.forall₂_cons_right_iff] at hPairs
  obtain ⟨pair, rest, ⟨hSymbol, i, j, hStart, hi, hStop, hj⟩, hRest, hAll⟩ := hPairs
  have hLength : reusedName.events.length = 6 := rfl
  rw [Fin.revPerm_apply, Fin.val_rev] at hi hj
  obtain ⟨symbol, start, stop⟩ := pair
  dsimp only at hStart hi hStop hj
  have hPair : (⟨symbol, start, stop⟩ : ActivityPair) = ⟨"Op_XSt", 5, 4⟩ := by
    rw [ActivityPair.mk.injEq]
    exact ⟨hSymbol, by omega, by omega⟩
  rw [hAll, hPair, List.forall₂_nil_right_iff.mp hRest]

end Activity

end EventManifest
