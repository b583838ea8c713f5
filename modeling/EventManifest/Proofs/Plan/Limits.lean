import EventManifest.Proofs.Plan.Existence
import Mathlib.Data.Finset.Card

/-!
The limits of what a header declares: 128 descriptors for an event, and enable bits that a 16-bit
number counts. Planning knows of neither. A plan keeps to them exactly if the events of its manifest
do so by themselves.
-/

namespace EventManifest

section Slots

/-- Data that travels behind a length of its own. -/
def Category.isCounted : Category → Bool
  | .data .countedUnicodeString | .data .countedAnsiString | .data .countedBinary => true
  | _ => false

/-- Whether the length of a property asks for a slot of its own. -/
def Property.hasLengthSlot (p : Property) : Bool :=
  p.category.isCounted && p.count.isNone

/-- The number of slots that the payload of an event asks for. -/
def Event.slotCount (e : Event) : Nat :=
  e.properties.length + e.properties.countP Property.hasLengthSlot

/-- Counted data take no length, so there is nothing to fold. -/
theorem Shape.folded_of_isCounted {s : Shape} (hs : s.Accepted)
    (hCounted : s.category.isCounted = true) : s.folded = s := by
  refine folded_of_not_acceptsLength hs fun inType hCategory => ?_
  rw [hCategory] at hCounted
  cases inType <;> simp_all [InType.acceptsLength, Category.isCounted]

namespace Transfer

theorem length_slots (t : Transfer) : t.slots.length = t.slotCount := by
  rw [slots, lengthSlot, slotCount]
  split <;> rfl

/-- One slot for each property, and one more for each length that has its own. -/
theorem length_layoutOf (transfers : List Transfer) :
    (layoutOf transfers).length = transfers.length + transfers.countP hasLengthSlot := by
  induction transfers with
  | nil => rfl
  | cons t transfers ih =>
      rw [layoutOf] at ih
      rw [layoutOf, List.flatMap_cons, List.length_append, List.length_cons, List.countP_cons, ih,
        length_slots, slotCount]
      split <;> omega

/-- Only counted data that is no array has a slot for its length. The length of a packed array goes
into its size. -/
theorem hasLengthSlot_eq (t : Transfer) :
    t.hasLengthSlot = (t.shape.category.isCounted && t.shape.count.isNone) := by
  obtain ⟨index, category, count, length⟩ := t
  cases category with
  | struct => cases count <;> rfl
  | data inType => cases inType <;> cases count <;> rfl

/-- Folding does not touch counted data, which takes no length. So the declaration tells the number
of slots. -/
theorem hasLengthSlot_ofShape {scope : List Property} {index : Nat} {p : Property} {s : Shape}
    (h : Shape.resolve scope index p = .ok s) :
    (ofShape index s).hasLengthSlot = p.hasLengthSlot := by
  obtain ⟨hCount, _, _, hCategory⟩ := Shape.resolve_eq_ok_iff.mp h
  rw [hasLengthSlot_eq, ofShape, Shape.category_folded, Property.hasLengthSlot, ← hCategory,
    ← Shape.isNone_of_resolveOptional hCount]
  cases hCounted : s.category.isCounted with
  | false => rfl
  | true => rw [Shape.folded_of_isCounted (Shape.accepted_of_resolve h) hCounted]

/-- A template has as many slots as its properties ask for. The reserved slot before them is not
counted here. -/
theorem length_layoutOf_of_ofProperties {properties : List Property} {transfers : List Transfer}
    (h : ofProperties properties = .ok transfers) :
    (layoutOf transfers).length =
      properties.length + properties.countP Property.hasLengthSlot := by
  rw [ofProperties_eq_mapM] at h
  obtain ⟨hLength, hEach⟩ := Outcome.mapM_zipIdx_eq_ok_iff.mp h
  have hSame : transfers.map hasLengthSlot = properties.map Property.hasLengthSlot := by
    refine List.ext_getElem (by simp [hLength]) fun i hi hi' => ?_
    rw [List.length_map] at hi hi'
    obtain ⟨t, ht, hTransfer⟩ := hEach i _ (List.getElem?_eq_getElem hi')
    obtain ⟨s, hs, rfl⟩ := Outcome.map_eq_ok_iff.mp hTransfer
    obtain ⟨_, hPlace⟩ := List.getElem?_eq_some_iff.mp ht
    rw [List.getElem_map, List.getElem_map, hPlace, hasLengthSlot_ofShape hs]
  have hCounts := congrArg (List.countP id) hSame
  rw [List.countP_map, List.countP_map] at hCounts
  rw [length_layoutOf, hLength]
  exact congrArg (properties.length + ·) hCounts

end Transfer

end Slots

section Bits

/-- What enables an event, if it is logged. -/
def Provider.enableBit? (p : Provider) (e : Event) : Option EnableBit :=
  if e.notLogged then none
  else (SymbolTable.descriptor p e).toOption.map fun d => ⟨d.level, d.keyword⟩

/-- The levels and keywords under which a provider logs events. -/
def Provider.enableBits (p : Provider) : Finset EnableBit :=
  (p.events.filterMap p.enableBit?).toFinset

/-- The bits that are asked for, one for each logged event, with repetitions. -/
theorem ProviderPlan.loggedBits_eq {p : Provider} {events : List Event}
    {keys : List (Option String)} {resolved : List ResolvedEvent}
    (hKeys : List.Forall₂ EventKey events keys)
    (hResolved : List.Forall₂ (fun e r => SymbolTable.descriptor p e = .ok r.descriptor)
      events resolved) :
    loggedBits keys resolved = events.filterMap p.enableBit? := by
  induction hKeys generalizing resolved with
  | nil => rfl
  | @cons e key? events keys hKey _ ih =>
      cases hResolved with
      | @cons _ r _ resolved hDescriptor hRest =>
          have hRestBits := ih hRest
          rw [loggedBits] at hRestBits ⊢
          cases hKey with
          | unlogged hLogged =>
              have hNone : p.enableBit? e = none := by rw [Provider.enableBit?, if_pos hLogged]
              rw [List.filterMap_cons_none hNone, ← hRestBits]
              rfl
          | logged hLogged _ =>
              have hSome : p.enableBit? e = some ⟨r.descriptor.level, r.descriptor.keyword⟩ := by
                rw [Provider.enableBit?, if_neg (by simp [hLogged]), hDescriptor]
                rfl
              rw [List.filterMap_cons_some hSome, ← hRestBits]
              rfl

theorem length_distinct {α : Type} [DecidableEq α] (as : List α) :
    (distinct as).length = as.toFinset.card := by
  rw [← List.toFinset_card_of_nodup (nodup_distinct as)]
  congr 1
  ext a
  simp

/-- The bits of a provider's plan are those of its logged events, each in its first place. The
number of bits has no limit in the planning itself. -/
theorem ProviderPlan.enableBits_of_plansTo {p : Provider} {planned : PlannedProvider}
    (h : p.PlansTo planned) :
    planned.plan.enableBits = distinct (p.events.filterMap p.enableBit?) := by
  obtain ⟨table, hTable, hBuild⟩ := h
  obtain ⟨traits, grouped, events, _, hGrouped, _, rfl⟩ := build_eq_ok_iff.mp hBuild
  obtain ⟨resolved, hResolved, hTable⟩ := Outcome.bind_eq_ok_iff.mp hTable
  cases hTable
  have hDescriptors := (SymbolTable.resolveEvents_eq_ok hResolved).imp fun _ _ h => h.1
  rw [← loggedBits_eq (ProviderTemplates.ofEvents_eq_ok hGrouped).1 hDescriptors]
  rfl

/-- A provider has one bit for each level and keyword under which it logs. Several events may share
one. -/
theorem ProviderPlan.length_enableBits {p : Provider} {planned : PlannedProvider}
    (h : p.PlansTo planned) : planned.plan.enableBits.length = p.enableBits.card := by
  rw [enableBits_of_plansTo h, length_distinct, Provider.enableBits]

end Bits

namespace GenerationPlan

variable {m : Manifest} {tables : List SymbolTable} {plan : GenerationPlan}

/-- A template has the slots of any event with its key, and the reserved one. It does not matter
which event the template was planned from. -/
theorem slotCount_of_mem_templates
    (hTables : SymbolTable.resolveAll m.providers = some tables)
    (hPlan : (build m tables).plan = some plan) {t : TemplatePlan} (ht : t ∈ plan.templates)
    {e : Event} (hKey : Template.keyOf e.properties = .ok t.key) :
    t.slotCount = 1 + e.slotCount := by
  obtain ⟨properties, transfers, hOwn, hTransfers, hTemplate⟩ :=
    exists_of_mem_templates hTables hPlan ht
  obtain ⟨others, hOthers⟩ := Template.ofProperties_of_keyOf hKey
  -- Templates with one key may differ in their slots, but not in how many there are.
  have hSlots := congrArg List.length <|
    Template.evaluate_layoutOf_eq_of_keyOf hOwn hKey hTransfers hOthers
      ⟨fun _ => 0, fun _ => 0, fun _ => 0⟩
  rw [List.length_map, List.length_map, Transfer.length_layoutOf_of_ofProperties hOthers] at hSlots
  rw [← hTemplate, Event.slotCount, ← hSlots]
  rfl

/-- A plan keeps to the limits exactly as far as its manifest does. Every template has a slot; all
templates have at most 128 exactly if no logged event asks for more than 127; and the bits of all
providers can be counted in 16 bits exactly if each logs under at most 65535 levels and
keywords. -/
theorem limits_of_build (hTables : SymbolTable.resolveAll m.providers = some tables)
    (hPlan : (build m tables).plan = some plan) :
    (∀ t ∈ plan.templates, 1 ≤ t.slotCount) ∧
      ((∀ t ∈ plan.templates, t.slotCount ≤ 128) ↔
        ∀ p ∈ m.providers, ∀ e ∈ p.events, e.notLogged = false → e.slotCount ≤ 127) ∧
      ((∀ q ∈ plan.providers, q.enableBits.length ≤ 65535) ↔
        ∀ p ∈ m.providers, p.enableBits.card ≤ 65535) := by
  have hTemplate (t : TemplatePlan) (ht : t ∈ plan.templates) :
      ∃ p ∈ m.providers, ∃ e ∈ p.events, EventKey e (some t.key) :=
    (mem_keys_iff_of_build hTables hPlan).mp (List.mem_map_of_mem ht)
  refine ⟨fun t ht => ?_, ⟨fun hAll p hp e he hLogged => ?_, fun hAll t ht => ?_⟩, ?_⟩
  · obtain ⟨p, _, e, _, hKey⟩ := hTemplate t ht
    rw [slotCount_of_mem_templates hTables hPlan ht (EventKey.some_iff.mp hKey).2]
    exact Nat.le_add_right 1 _
  · obtain ⟨planned, hEach, _, _⟩ := build_eq_some hTables hPlan
    obtain ⟨_, _, hPlans⟩ := Outcome.exists_of_mem_right hEach.flip hp
    obtain ⟨key, hKey⟩ := (Provider.PlansTo.plannable hPlans).keys e he hLogged
    obtain ⟨t, ht, rfl⟩ := List.mem_map.mp
      ((mem_keys_iff_of_build hTables hPlan).mpr ⟨p, hp, e, he, .logged hLogged hKey⟩)
    have hCount := slotCount_of_mem_templates hTables hPlan ht hKey
    have hLimit := hAll t ht
    omega
  · obtain ⟨p, hp, e, he, hKey⟩ := hTemplate t ht
    obtain ⟨hLogged, hOwn⟩ := EventKey.some_iff.mp hKey
    rw [slotCount_of_mem_templates hTables hPlan ht hOwn]
    have hLimit := hAll p hp e he hLogged
    omega
  · obtain ⟨planned, hEach, hProviders, _⟩ := build_eq_some hTables hPlan
    rw [hProviders, List.forall_mem_map]
    constructor
    · intro hAll p hp
      obtain ⟨q, hq, hPlans⟩ := Outcome.exists_of_mem_right hEach.flip hp
      exact ProviderPlan.length_enableBits hPlans ▸ hAll q hq
    · intro hAll q hq
      obtain ⟨p, hp, hPlans⟩ := Outcome.exists_of_mem_right hEach hq
      exact (ProviderPlan.length_enableBits hPlans).symm ▸ hAll p hp

/-- An event with so many numbers. -/
def wide (n : Nat) : Provider :=
  .bare "P" [⟨1, 0, none, none, none, none, [], false, none,
    some ⟨List.replicate n (.ofType "X" .uint8)⟩⟩]

/-- Planning asks nothing of the number of properties. -/
theorem plannable_wide (n : Nat) : (wide n).Plannable where
  identities := List.nodup_singleton _
  references := by
    intro e he
    cases List.mem_singleton.mp he
    exact ⟨_, rfl⟩
  traits := ⟨none, rfl⟩
  keys := by
    intro e he _
    cases List.mem_singleton.mp he
    have hShapes : ∀ x ∈ (List.replicate n (Property.ofType "X" .uint8)).zipIdx,
        ∃ s, Shape.resolve (List.replicate n (.ofType "X" .uint8)) x.2 x.1 = .ok s := by
      intro x hx
      rw [List.eq_of_mem_replicate (List.fst_mem_of_mem_zipIdx hx)]
      exact ⟨_, rfl⟩
    obtain ⟨shapes, hShapes⟩ := Outcome.exists_forall₂ hShapes
    exact ⟨_, Template.keyOf_eq_ok_iff.mpr ⟨shapes, Outcome.mapM_eq_ok_iff.mpr hShapes, rfl⟩⟩

theorem slotCount_wide {n : Nat} {e : Event} (he : e ∈ (wide n).events) : e.slotCount = n := by
  cases List.mem_singleton.mp he
  change (List.replicate n (Property.ofType "X" .uint8)).length +
    (List.replicate n (Property.ofType "X" .uint8)).countP Property.hasLengthSlot = n
  rw [List.length_replicate, List.countP_replicate]
  rfl

/-- A name for every number. -/
def keywordName (i : Nat) : String :=
  String.ofList (List.replicate i 'k')

def keywordEvent (i : Nat) : Event :=
  ⟨.ofNat i, 0, none, none, none, none, [keywordName i], false, none, none⟩

/-- So many events, each under a keyword of its own. -/
def crowded (n : Nat) : Provider :=
  { Provider.bare "P" ((List.range n).map keywordEvent) with
    keywords := (List.range n).map fun i => ⟨keywordName i, .ofNat i, none⟩ }

theorem keywordName_injective : Function.Injective keywordName := by
  intro i j h
  have hLength := congrArg List.length (String.ofList_injective h)
  rwa [List.length_replicate, List.length_replicate] at hLength

theorem get?_crowded {n i : Nat} (hi : i < n) :
    (ReferenceIndex.ofProvider (crowded n)).keywords.byName.get? (keywordName i) =
      some (.ofNat i) := by
  have hFound : (List.range n).find? (fun j => keywordName j == keywordName i) = some i := by
    rw [List.find?_range_eq_some]
    refine ⟨beq_self_eq_true _, List.mem_range.mpr hi, fun j hj => ?_⟩
    have hApart : keywordName j ≠ keywordName i := fun hSame =>
      Nat.ne_of_lt hj (keywordName_injective hSame)
    simpa using hApart
  rw [ReferenceIndex.ofProvider, ValueIndex.get?_ofDeclarations, Provider.declarations, crowded,
    List.map_map, List.find?_map]
  change Option.map NamedValue.value (Option.map _ (List.find? (fun j => keywordName j == _) _)) = _
  rw [hFound]
  rfl

/-- Each of the events has its own keyword, the number of the event. -/
theorem descriptor_crowded {n i : Nat} (hi : i < n) :
    SymbolTable.descriptor (crowded n) (keywordEvent i) =
      .ok ⟨.ofNat i, 0, 0, 0, 0, 0, .ofNat i⟩ := by
  have hKeywords : (ReferenceIndex.ofProvider (crowded n)).keywords.lookupAll (keywordEvent i) 0
      (keywordEvent i).keywords = .ok (.ofNat i) := by
    change ValueIndex.lookupAll _ _ 0 [keywordName i] = _
    rw [ValueIndex.lookupAll, ValueIndex.lookup, get?_crowded hi]
    exact congrArg Except.ok UInt64.zero_or
  rw [SymbolTable.descriptor, ReferenceIndex.describe, hKeywords]
  rfl

/-- As many events as there are values can be planned. Beyond that, values would repeat. -/
theorem plannable_crowded {n : Nat} (hn : n ≤ 65536) : (crowded n).Plannable where
  identities := by
    change (((List.range n).map keywordEvent).map Event.identity).Nodup
    rw [List.map_map]
    refine List.Nodup.map_on (fun i hi j hj hSame => ?_) List.nodup_range
    have hValues : UInt16.ofNat i = UInt16.ofNat j := congrArg Prod.fst hSame
    have hNumbers := congrArg UInt16.toNat hValues
    rw [List.mem_range] at hi hj
    rw [UInt16.toNat_ofNat', UInt16.toNat_ofNat', Nat.mod_eq_of_lt (by omega),
      Nat.mod_eq_of_lt (by omega)] at hNumbers
    exact hNumbers
  references := by
    intro e he
    obtain ⟨i, hi, rfl⟩ := List.mem_map.mp he
    exact ⟨_, descriptor_crowded (List.mem_range.mp hi)⟩
  traits := ⟨none, rfl⟩
  keys := by
    intro e he _
    obtain ⟨i, _, rfl⟩ := List.mem_map.mp he
    exact ⟨"", rfl⟩

/-- Each of these events needs a bit of its own. -/
theorem card_enableBits_crowded {n : Nat} (hn : n ≤ 65536) : (crowded n).enableBits.card = n := by
  have hBits : (crowded n).events.filterMap (crowded n).enableBit? =
      (List.range n).map fun i => ⟨0, .ofNat i⟩ := by
    change ((List.range n).map keywordEvent).filterMap _ = _
    rw [List.filterMap_map, ← List.filterMap_eq_map]
    refine List.filterMap_congr fun i hi => ?_
    change ((SymbolTable.descriptor (crowded n) (keywordEvent i)).toOption.map _) = _
    rw [descriptor_crowded (List.mem_range.mp hi)]
    rfl
  have hNodup : ((List.range n).map fun i => (⟨0, .ofNat i⟩ : EnableBit)).Nodup := by
    refine List.Nodup.map_on (fun i hi j hj hSame => ?_) List.nodup_range
    have hNumbers := congrArg (fun bit => bit.keyword.toNat) hSame
    dsimp only at hNumbers
    rw [List.mem_range] at hi hj
    rw [UInt64.toNat_ofNat', UInt64.toNat_ofNat', Nat.mod_eq_of_lt (by omega),
      Nat.mod_eq_of_lt (by omega)] at hNumbers
    exact hNumbers
  rw [Provider.enableBits, hBits, List.toFinset_card_of_nodup hNodup, List.length_map,
    List.length_range]

/-- Both limits can be exceeded: by an event with 128 numbers, and by a provider that logs under
65536 keywords. There are plans for both. -/
theorem limits_exceeded :
    (∃ tables plan, SymbolTable.resolveAll [wide 128] = some tables ∧
      (build ⟨[wide 128]⟩ tables).plan = some plan ∧
      ¬ ∀ t ∈ plan.templates, t.slotCount ≤ 128) ∧
    ∃ tables plan, SymbolTable.resolveAll [crowded 65536] = some tables ∧
      (build ⟨[crowded 65536]⟩ tables).plan = some plan ∧
      ¬ ∀ q ∈ plan.providers, q.enableBits.length ≤ 65535 := by
  constructor
  · obtain ⟨tables, plan, hTables, hPlan⟩ := exists_plan (m := ⟨[wide 128]⟩)
      (List.forall_mem_singleton.mpr (plannable_wide 128))
    refine ⟨tables, plan, hTables, hPlan, fun hAll => ?_⟩
    have hCount := (limits_of_build hTables hPlan).2.1.mp hAll (wide 128)
      (List.mem_singleton_self _) _ (List.mem_singleton_self _) rfl
    rw [slotCount_wide (List.mem_singleton_self _)] at hCount
    omega
  · obtain ⟨tables, plan, hTables, hPlan⟩ := exists_plan (m := ⟨[crowded 65536]⟩)
      (List.forall_mem_singleton.mpr (plannable_crowded (Nat.le_refl _)))
    refine ⟨tables, plan, hTables, hPlan, fun hAll => ?_⟩
    have hCount := (limits_of_build hTables hPlan).2.2.mp hAll (crowded 65536)
      (List.mem_singleton_self _)
    rw [card_enableBits_crowded (Nat.le_refl _)] at hCount
    omega

end GenerationPlan

end EventManifest
