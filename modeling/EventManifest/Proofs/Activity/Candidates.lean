import EventManifest.Activity
import EventManifest.Proofs.Plan.Build

/-!
Which events make an activity. For every value the logged event of the highest version that starts
or stops something speaks for that value, and a stop without payload goes with a start one value
below it. How the pairs are named is not the subject here.
-/

namespace EventManifest

namespace Phase

def word : Phase → String
  | start => "Start"
  | stop => "Stop"

/-- An opcode marks a phase by its exact word. Neither another case of the letters nor a second
marker before the word is accepted. -/
theorem ofOpcode?_eq_some_iff {opcode : String} {phase : Phase} :
    ofOpcode? opcode = some phase ↔ opcode = phase.word ∨ opcode = "win:" ++ phase.word := by
  have hStart : "win:" ++ "Start" = "win:Start" := rfl
  have hStop : "win:" ++ "Stop" = "win:Stop" := rfl
  cases phase with
  | start =>
      simp only [ofOpcode?, word, hStart]
      split <;> simp_all
  | stop =>
      simp only [ofOpcode?, word, hStop]
      split
      · rename_i hMarks
        rcases hMarks with rfl | rfl <;> decide
      · split <;> simp_all

end Phase

/-- The opcode of an event is the word of a phase, with or without the marker before it. -/
def Event.Marks (e : Event) (phase : Phase) : Prop :=
  e.opcode = some phase.word ∨ e.opcode = some ("win:" ++ phase.word)

theorem Event.phase?_eq_some_iff {e : Event} {phase : Phase} :
    e.phase? = some phase ↔ e.Marks phase := by
  cases hOpcode : e.opcode with
  | none => simp [phase?, Marks, hOpcode]
  | some opcode => simp [phase?, Marks, hOpcode, Phase.ofOpcode?_eq_some_iff]

namespace Activity

/-- The event at a position speaks for its value in a phase: it is logged, and of the events that
could do so it has the highest version. -/
structure Represents (events : List Event) (value : UInt16) (phase : Phase) (index : Nat)
    (e : Event) : Prop where
  place : events[index]? = some e
  logged : e.notLogged = false
  value_eq : e.value = value
  marks : e.Marks phase
  highest : ∀ f ∈ events, f.notLogged = false → f.value = value → (∃ other, f.Marks other) →
    f.version ≤ e.version

/-- What stands at a position speaks for one value in one phase. Values and phases are parts of the
event. -/
theorem Represents.eq_of_index_eq {events : List Event} {value value' : UInt16}
    {phase phase' : Phase} {i j : Nat} {e f : Event} (he : Represents events value phase i e)
    (hf : Represents events value' phase' j f) (hSame : i = j) :
    e = f ∧ value = value' ∧ phase = phase' := by
  have hEvent : e = f := Option.some.inj (he.place.symm.trans (hSame ▸ hf.place))
  subst hEvent
  refine ⟨rfl, he.value_eq.symm.trans hf.value_eq, Option.some.inj ?_⟩
  exact (Event.phase?_eq_some_iff.mpr he.marks).symm.trans (Event.phase?_eq_some_iff.mpr hf.marks)

/-- The marks are the logged events with the opcode of a phase, each with its position. -/
theorem mem_marks_iff {events : List Event} {m : Mark} :
    m ∈ marks events ↔
      events[m.index]? = some m.event ∧ m.event.notLogged = false ∧ m.event.Marks m.phase := by
  simp only [marks, List.mem_filterMap, Prod.exists, List.mem_zipIdx_iff_getElem?]
  constructor
  · rintro ⟨e, index, hPlace, hMark⟩
    split at hMark
    · cases hMark
    · rename_i hLogged
      obtain ⟨phase, hPhase, rfl⟩ := Option.map_eq_some_iff.mp hMark
      exact ⟨hPlace, by simpa using hLogged, Event.phase?_eq_some_iff.mp hPhase⟩
  · rintro ⟨hPlace, hLogged, hPhase⟩
    refine ⟨m.event, m.index, hPlace, ?_⟩
    simp [hLogged, Event.phase?_eq_some_iff.mpr hPhase]

/-- From any mark on, one of the highest version is found. Among equal versions it need not be a
certain one. -/
theorem exists_foldl_newer (all : List Mark) (best : Mark) :
    ∃ m, all.foldl newer (some best) = some m ∧ (m = best ∨ m ∈ all) ∧
      best.event.version ≤ m.event.version ∧ ∀ n ∈ all, n.event.version ≤ m.event.version := by
  induction all generalizing best with
  | nil => exact ⟨best, rfl, Or.inl rfl, UInt8.le_refl _, by simp⟩
  | cons first all ih =>
      simp only [List.foldl_cons, newer, List.mem_cons, forall_eq_or_imp]
      split
      · rename_i hLess
        obtain ⟨m, hFound, hMem, hFirst, hAll⟩ := ih first
        exact ⟨m, hFound, Or.inr hMem, UInt8.le_trans (UInt8.le_of_lt hLess) hFirst, hFirst, hAll⟩
      · rename_i hNotLess
        obtain ⟨m, hFound, hMem, hBest, hAll⟩ := ih best
        exact ⟨m, hFound, hMem.imp_right Or.inr, hBest,
          UInt8.le_trans (UInt8.not_lt.mp hNotLess) hBest, hAll⟩

/-- The mark that counts for a value, if the value has marks. A start of a higher version keeps a
stop from counting, and the other way round. -/
theorem latest?_cases (all : List Mark) (value : UInt16) :
    (latest? all value = none ∧ ∀ m ∈ all, m.event.value ≠ value) ∨
      ∃ m, latest? all value = some m ∧ m ∈ all ∧ m.event.value = value ∧
        ∀ n ∈ all, n.event.value = value → n.event.version ≤ m.event.version := by
  have hFilter (m : Mark) : m ∈ all.filter (fun m => m.event.value = value) ↔
      m ∈ all ∧ m.event.value = value := by
    simp
  rw [latest?]
  cases hOwn : all.filter fun m => m.event.value = value with
  | nil =>
      refine Or.inl ⟨rfl, fun m hm hValue => ?_⟩
      have hMem := (hFilter m).mpr ⟨hm, hValue⟩
      rw [hOwn] at hMem
      cases hMem
  | cons first rest =>
      obtain ⟨m, hFound, hMem, hFirst, hRest⟩ := exists_foldl_newer rest first
      rw [← List.mem_cons, ← hOwn, hFilter] at hMem
      refine Or.inr ⟨m, hFound, hMem.1, hMem.2, fun n hn hValue => ?_⟩
      have hOther := (hFilter n).mpr ⟨hn, hValue⟩
      rw [hOwn] at hOther
      rcases List.mem_cons.mp hOther with rfl | hOther
      · exact hFirst
      · exact hRest n hOther

section Distinct

variable {events : List Event} (hNodup : (events.map Event.identity).Nodup)

include hNodup

/-- Value and version tell the position of an event, as identities do not repeat. -/
theorem index_eq_of_identity_eq {i j : Nat} {e f : Event} (hi : events[i]? = some e)
    (hj : events[j]? = some f) (hSame : e.identity = f.identity) : i = j := by
  obtain ⟨hLess, _⟩ := List.getElem?_eq_some_iff.mp hi
  refine (List.getElem?_inj (by simpa using hLess) hNodup).mp ?_
  rw [List.getElem?_map, List.getElem?_map, hi, hj, Option.map_some, Option.map_some, hSame]

/-- One event at most speaks for a value, in whichever phase. -/
theorem Represents.index_unique {value : UInt16} {phase other : Phase} {i j : Nat} {e f : Event}
    (he : Represents events value phase i e) (hf : Represents events value other j f) : i = j := by
  have hVersion : e.version = f.version := UInt8.le_antisymm
    (hf.highest e (List.mem_of_getElem? he.place) he.logged he.value_eq ⟨phase, he.marks⟩)
    (he.highest f (List.mem_of_getElem? hf.place) hf.logged hf.value_eq ⟨other, hf.marks⟩)
  refine index_eq_of_identity_eq hNodup he.place hf.place ?_
  rw [Event.identity, Event.identity, he.value_eq, hf.value_eq, hVersion]

/-- Without repeated identities the mark of the highest version is the only one, so the order of the
events has no part in the choice. -/
theorem latest?_eq_some_iff {value : UInt16} {m : Mark} :
    latest? (marks events) value = some m ↔ Represents events value m.phase m.index m.event := by
  have hRepresents {n : Mark} (hn : n ∈ marks events) (hValue : n.event.value = value)
      (hHighest : ∀ k ∈ marks events, k.event.value = value →
        k.event.version ≤ n.event.version) :
      Represents events value n.phase n.index n.event := by
    obtain ⟨hPlace, hLogged, hMarks⟩ := mem_marks_iff.mp hn
    refine ⟨hPlace, hLogged, hValue, hMarks, ?_⟩
    rintro f hf hfLogged hfValue ⟨other, hOther⟩
    obtain ⟨j, hj⟩ := List.getElem?_of_mem hf
    exact hHighest ⟨j, f, other⟩ (mem_marks_iff.mpr ⟨hj, hfLogged, hOther⟩) hfValue
  constructor
  · intro hFound
    obtain ⟨hNone, _⟩ | ⟨n, hSome, hn, hValue, hHighest⟩ := latest?_cases (marks events) value
    · cases hNone.symm.trans hFound
    · cases hSome.symm.trans hFound
      exact hRepresents hn hValue hHighest
  · intro hm
    have hMem : m ∈ marks events := mem_marks_iff.mpr ⟨hm.place, hm.logged, hm.marks⟩
    obtain ⟨_, hOther⟩ | ⟨n, hSome, hn, hValue, hHighest⟩ := latest?_cases (marks events) value
    · exact absurd hm.value_eq (hOther m hMem)
    · have hn' := hRepresents hn hValue hHighest
      have hIndex := hn'.index_unique hNodup hm
      obtain ⟨hEvent, _, hPhase⟩ := hn'.eq_of_index_eq hm hIndex
      rw [hSome]
      obtain ⟨index, event, phase⟩ := n
      cases hIndex
      cases hEvent
      cases hPhase
      rfl

end Distinct

/-- The marked values come in increasing order, each once. So pairs are found in the order of their
values, not of their positions. -/
theorem pairwise_lt_values (all : List Mark) : (values all).Pairwise (· < ·) := by
  have hSorted : (values all).Pairwise (· ≤ ·) := by
    have hTrans (a b c : UInt16) (hab : decide (a ≤ b) = true) (hbc : decide (b ≤ c) = true) :
        decide (a ≤ c) = true :=
      decide_eq_true (UInt16.le_trans (of_decide_eq_true hab) (of_decide_eq_true hbc))
    have hTotal (a b : UInt16) : (decide (a ≤ b) || decide (b ≤ a)) = true := by
      simpa using UInt16.le_total a b
    exact (List.pairwise_mergeSort hTrans hTotal _).imp of_decide_eq_true
  have hNodup : (values all).Nodup :=
    (List.mergeSort_perm _ _).nodup_iff.mpr (nodup_distinct _)
  exact hSorted.imp₂ (fun _ _ hLe hNe => UInt16.lt_of_le_of_ne hLe hNe) hNodup

theorem mem_values_iff {all : List Mark} {value : UInt16} :
    value ∈ values all ↔ ∃ m ∈ all, m.event.value = value := by
  rw [values, List.mem_mergeSort, mem_distinct, List.mem_map]

theorem agree_iff {a b : EventDescriptor} :
    agree a b = true ↔
      a.channel = b.channel ∧ a.level = b.level ∧ a.task = b.task ∧ a.keyword = b.keyword := by
  simp [agree, and_assoc]

/-- Two events make an activity that ends at a value: a stop without payload speaks for the value, a
start for the one below it, and their descriptors agree in everything but the opcode. -/
structure PairsAt (p : Provider) (table : SymbolTable) (value : UInt16) (c : Candidate) :
    Prop where
  positive : 0 < value
  stop : ∃ e, Represents p.events value .stop c.stop e ∧ e.properties = []
  start : ∃ e, Represents p.events (value - 1) .start c.start e
  resolved : ∃ a b, table.events[c.start]? = some a ∧ table.events[c.stop]? = some b ∧
    a.symbol = c.startSymbol ∧ b.symbol = c.stopSymbol ∧
    a.descriptor.channel = b.descriptor.channel ∧ a.descriptor.level = b.descriptor.level ∧
    a.descriptor.task = b.descriptor.task ∧ a.descriptor.keyword = b.descriptor.keyword

/-- The pair that is found at a value is the only one that belongs there. A stop at zero has no
partner, and values do not wrap around. -/
theorem candidateAt?_eq_some_iff {p : Provider} (hNodup : (p.events.map Event.identity).Nodup)
    {table : SymbolTable} {value : UInt16} {c : Candidate} :
    candidateAt? table (marks p.events) value = some c ↔ PairsAt p table value c := by
  by_cases hZero : value = 0
  · refine iff_of_false ?_ fun h => absurd hZero (UInt16.pos_iff_ne_zero.mp h.positive)
    simp [candidateAt?, hZero]
  simp only [candidateAt?, if_neg hZero, Option.bind_eq_bind, Option.bind_eq_some_iff,
    Option.ite_none_right_eq_some, latest?_eq_some_iff hNodup, agree_iff, List.isEmpty_iff,
    Option.some.injEq]
  constructor
  · rintro ⟨stop, hStop, start, hStart, b, hb, a, ha,
      ⟨hStopPhase, hStartPhase, hAgree, hPayload⟩, rfl⟩
    exact ⟨UInt16.pos_iff_ne_zero.mpr hZero, ⟨_, hStopPhase ▸ hStop, hPayload⟩,
      ⟨_, hStartPhase ▸ hStart⟩, a, b, ha, hb, rfl, rfl, hAgree⟩
  · rintro ⟨_, ⟨stop, hStop, hPayload⟩, ⟨start, hStart⟩, a, b, ha, hb, hSymbol, hSymbol', hAgree⟩
    refine ⟨⟨c.stop, stop, .stop⟩, hStop, ⟨c.start, start, .start⟩, hStart, b, hb, a, ha,
      ⟨rfl, rfl, hAgree, hPayload⟩, ?_⟩
    rw [hSymbol, hSymbol']

/-- The pairs with the values they end at. -/
def valued (p : Provider) (table : SymbolTable) : List (UInt16 × Candidate) :=
  (values (marks p.events)).filterMap fun value =>
    (candidateAt? table (marks p.events) value).map (value, ·)

/-- The values only accompany the pairs; the code has the pairs alone. -/
theorem map_snd_valued (p : Provider) (table : SymbolTable) :
    (valued p table).map Prod.snd = candidates p table := by
  simp [valued, candidates, List.map_filterMap, Option.map_map, Function.comp_def]

theorem pairwise_lt_valued (p : Provider) (table : SymbolTable) :
    (valued p table).Pairwise fun x y => x.1 < y.1 := by
  refine List.Pairwise.filterMap _ ?_ (pairwise_lt_values (marks p.events))
  intro v w hLess x hx y hy
  obtain ⟨_, _, rfl⟩ := Option.map_eq_some_iff.mp hx
  obtain ⟨_, _, rfl⟩ := Option.map_eq_some_iff.mp hy
  exact hLess

/-- All pairs of a provider, each once. Nothing is said about their names yet. -/
theorem mem_valued_iff {p : Provider} (hNodup : (p.events.map Event.identity).Nodup)
    {table : SymbolTable} {value : UInt16} {c : Candidate} :
    (value, c) ∈ valued p table ↔ PairsAt p table value c := by
  rw [← candidateAt?_eq_some_iff hNodup, valued, List.mem_filterMap]
  constructor
  · rintro ⟨v, _, hSome⟩
    obtain ⟨d, hd, hSame⟩ := Option.map_eq_some_iff.mp hSome
    cases hSame
    exact hd
  · intro hSome
    obtain ⟨e, hStop, _⟩ := ((candidateAt?_eq_some_iff hNodup).mp hSome).stop
    refine ⟨value, mem_values_iff.mpr ⟨⟨c.stop, e, .stop⟩, ?_, hStop.value_eq⟩, by rw [hSome]; rfl⟩
    exact mem_marks_iff.mpr ⟨hStop.place, hStop.logged, hStop.marks⟩

section PairsAt

variable {p : Provider} {table : SymbolTable} {value value' : UInt16} {c d : Candidate}
  (hc : PairsAt p table value c) (hd : PairsAt p table value' d)

include hc hd

/-- No event starts one pair and ends another. -/
theorem PairsAt.start_ne_stop : c.start ≠ d.stop := by
  obtain ⟨_, hStart⟩ := hc.start
  obtain ⟨_, hStop, _⟩ := hd.stop
  intro hSame
  cases (hStart.eq_of_index_eq hStop hSame).2.2

/-- An event ends one pair at most. -/
theorem PairsAt.value_eq_of_stop_eq (hSame : c.stop = d.stop) : value = value' := by
  obtain ⟨_, hStop, _⟩ := hc.stop
  obtain ⟨_, hStop', _⟩ := hd.stop
  exact (hStop.eq_of_index_eq hStop' hSame).2.1

/-- It starts one pair at most, since the stop is just above it. -/
theorem PairsAt.value_eq_of_start_eq (hSame : c.start = d.start) : value = value' := by
  obtain ⟨_, hStart⟩ := hc.start
  obtain ⟨_, hStart'⟩ := hd.start
  exact (UInt16.sub_left_inj _).mp (hStart.eq_of_index_eq hStart' hSame).2.1

end PairsAt

end Activity

end EventManifest
