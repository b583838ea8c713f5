import EventManifest.Proofs.Plan.Limits

/-!
The enable bits of a planned provider. They are the levels and keywords of its logged events, each
once and in the order of their first occurrence, and the bit of an event stands for the event's own
level and keyword. So events share a bit exactly if they are enabled together.
-/

namespace EventManifest

/-- The elements of a list, each once, in the order in which they first occur. -/
structure FirstOccurrences {α : Type} [DecidableEq α] (as firsts : List α) : Prop where
  nodup : firsts.Nodup
  mem_iff : ∀ a, a ∈ firsts ↔ a ∈ as
  ordered : firsts.Pairwise fun a b => as.idxOf a < as.idxOf b

/-- Duplicates are removed from behind. The first occurrences keep their order. -/
theorem firstOccurrences_distinct {α : Type} [DecidableEq α] (as : List α) :
    FirstOccurrences as (distinct as) where
  nodup := nodup_distinct as
  mem_iff _ := mem_distinct
  ordered := by
    induction as with
    | nil => exact .nil
    | cons a as ih =>
        have hShift {b : α} (hb : b ≠ a) : (a :: as).idxOf b = as.idxOf b + 1 := by
          simp [List.idxOf_cons_ne _ hb.symm]
        refine List.pairwise_cons.mpr ⟨fun b hb => ?_, ?_⟩
        · have hApart : b ≠ a := by simpa using (List.mem_filter.mp hb).2
          rw [hShift hApart, List.idxOf_cons_self]
          exact Nat.succ_pos _
        · rw [List.pairwise_filter]
          refine ih.imp fun hLess hb hc => ?_
          rw [hShift (by simpa using hb), hShift (by simpa using hc)]
          exact Nat.succ_lt_succ hLess

/-- The level and the keyword under which an event is enabled. -/
def EventPlan.enableBit (x : EventPlan) : EnableBit :=
  ⟨x.descriptor.level, x.descriptor.keyword⟩

/-- Only logged events are written. That an event has a template makes no difference. -/
theorem PlannedWrite.isSome_iff {bits : List EnableBit} {e : Event} {d : EventDescriptor}
    {write : Option EventWrite} (h : PlannedWrite bits e d write) :
    write.isSome = true ↔ e.notLogged = false := by
  cases h with
  | unlogged hLogged => simp [hLogged]
  | logged hLogged _ _ => simp [hLogged]

namespace ProviderPlan

/-- What the enable bits of a plan are for the events of the provider. -/
structure BitsExact (p : Provider) (q : ProviderPlan) : Prop where
  /-- The plan has the events in their places, and writes those that are logged. -/
  logged : List.Forall₂ (fun e x => SymbolTable.descriptor p e = .ok x.descriptor ∧
      (x.write.isSome = true ↔ e.notLogged = false))
    p.events q.events
  firsts : FirstOccurrences (p.events.filterMap p.enableBit?) q.enableBits
  place : ∀ x ∈ q.events, ∀ w ∈ x.write, w.enableBit < q.enableBits.length ∧
    q.enableBits[w.enableBit]? = some x.enableBit
  shared_iff : ∀ x ∈ q.events, ∀ y ∈ q.events, ∀ v ∈ x.write, ∀ w ∈ y.write,
    v.enableBit = w.enableBit ↔
      x.descriptor.level = y.descriptor.level ∧ x.descriptor.keyword = y.descriptor.keyword

variable {p : Provider} {planned : PlannedProvider}

/-- The writes of a plan with the descriptors that the events have by their references. -/
theorem plannedWrites_of_plansTo (h : p.PlansTo planned) :
    List.Forall₂ (fun e x => SymbolTable.descriptor p e = .ok x.descriptor ∧
        PlannedWrite planned.plan.enableBits e x.descriptor x.write)
      p.events planned.plan.events := by
  obtain ⟨table, hTable, hBuild⟩ := h
  have hDescribed := (SymbolTable.presents_of_resolve hTable).events
  rw [List.forall₂_iff_get]
  refine ⟨(length_events_of_build hTable hBuild).symm, fun i hi hi' => ?_⟩
  obtain ⟨r, x, hr, hx, _, hDescriptor, hWrite⟩ :=
    event_of_build hTable hBuild (List.getElem?_eq_getElem hi)
  obtain ⟨hiTable, rfl⟩ := List.getElem?_eq_some_iff.mp hr
  obtain ⟨_, rfl⟩ := List.getElem?_eq_some_iff.mp hx
  refine ⟨?_, hWrite⟩
  simp only [List.get_eq_getElem, hDescriptor]
  exact SymbolTable.descriptor_eq_ok_iff.mpr (hDescribed.get hi hiTable).1

/-- A write has the place of the level and keyword of its event, which are among the bits. So its
number is never beyond the array. -/
theorem enableBit_of_mem_write (h : p.PlansTo planned) {x : EventPlan}
    (hx : x ∈ planned.plan.events) {w : EventWrite} (hw : w ∈ x.write) :
    w.enableBit = planned.plan.enableBits.idxOf x.enableBit ∧
      x.enableBit ∈ planned.plan.enableBits := by
  obtain ⟨e, he, hDescriptor, hWrite⟩ :=
    Outcome.exists_of_mem_right (plannedWrites_of_plansTo h) hx
  rw [Option.mem_def] at hw
  rw [hw] at hWrite
  cases hWrite with
  | logged hLogged _ _ =>
      refine ⟨rfl, ?_⟩
      rw [enableBits_of_plansTo h, mem_distinct, List.mem_filterMap]
      refine ⟨e, he, ?_⟩
      rw [Provider.enableBit?, if_neg (by simp [hLogged]), hDescriptor]
      rfl

/-- Each level and keyword under which something is logged has one bit, in the order of the events.
There are no bits for events that are not logged. -/
theorem bitsExact_of_plansTo (h : p.PlansTo planned) : planned.plan.BitsExact p where
  logged := (plannedWrites_of_plansTo h).imp fun _ _ hPlanned =>
    ⟨hPlanned.1, hPlanned.2.isSome_iff⟩
  firsts := by
    rw [enableBits_of_plansTo h]
    exact firstOccurrences_distinct _
  place := by
    intro x hx w hw
    obtain ⟨hPlace, hMem⟩ := enableBit_of_mem_write h hx hw
    have hLess := List.idxOf_lt_length_of_mem hMem
    rw [hPlace, List.getElem?_eq_getElem hLess, List.getElem_idxOf hLess]
    exact ⟨hLess, rfl⟩
  shared_iff := by
    intro x hx y hy v hv w hw
    obtain ⟨hPlace, hMem⟩ := enableBit_of_mem_write h hx hv
    obtain ⟨hPlace', _⟩ := enableBit_of_mem_write h hy hw
    rw [hPlace, hPlace', List.idxOf_inj hMem]
    simp [EventPlan.enableBit]

/-- Every bit is the bit of a logged event. No bit of the array is there in vain. -/
theorem BitsExact.exists_write {q : ProviderPlan} (h : q.BitsExact p) {bit : Nat}
    (hBit : bit < q.enableBits.length) : ∃ x ∈ q.events, ∃ w ∈ x.write, w.enableBit = bit := by
  obtain ⟨e, he, hFound⟩ :=
    List.mem_filterMap.mp ((h.firsts.mem_iff _).mp (List.getElem_mem hBit))
  obtain ⟨x, hx, hDescriptor, hLogged⟩ := Outcome.exists_of_mem_right h.logged.flip he
  rw [Provider.enableBit?] at hFound
  split at hFound
  · cases hFound
  · rename_i hNot
    rw [hDescriptor] at hFound
    obtain ⟨w, hw⟩ := Option.isSome_iff_exists.mp (hLogged.mpr (by simpa using hNot))
    obtain ⟨hLess, hPlace⟩ := h.place x hx w hw
    have hSame : x.enableBit = q.enableBits[bit] := Option.some.inj hFound
    rw [List.getElem?_eq_getElem hLess, hSame] at hPlace
    exact ⟨x, hx, w, hw, h.firsts.nodup.getElem_inj_iff.mp (Option.some.inj hPlace)⟩

end ProviderPlan

end EventManifest
