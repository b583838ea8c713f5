import EventManifest.Header.Functions
import EventManifest.Header.Macros
import EventManifest.Proofs.Transfer.Sharing

/-!
Templates with equal keys. They can stand in for each other in every call, and they fill the slots
with the same bytes. Their plans are even the same, except for a product of two constants beyond 32
bits: there the factors show, and two templates with one key may have different ones.
-/

namespace EventManifest

/-- Rows of blocks whose lengths agree are equal only block by block. Without the lengths a block
could make up for another one. -/
theorem flatMap_eq_flatMap_iff {α β γ : Type} {f : α → List γ} {g : β → List γ} {as : List α}
    {bs : List β} (hLength : List.Forall₂ (fun a b => (f a).length = (g b).length) as bs) :
    as.flatMap f = bs.flatMap g ↔ List.Forall₂ (fun a b => f a = g b) as bs := by
  induction hLength with
  | nil => simp
  | cons hHead _ ih =>
      rw [List.flatMap_cons, List.flatMap_cons, List.forall₂_cons, ← ih]
      exact ⟨fun h => List.append_inj h hHead, fun ⟨hFirst, hRest⟩ => by rw [hFirst, hRest]⟩

theorem flatMap_eq_flatMap {α β γ : Type} {f : α → List γ} {g : β → List γ} {as : List α}
    {bs : List β} (h : List.Forall₂ (fun a b => f a = g b) as bs) :
    as.flatMap f = bs.flatMap g :=
  (flatMap_eq_flatMap_iff (h.imp fun _ _ hSame => congrArg List.length hSame)).mpr h

namespace Transfer

/-- Transfers come from shapes one by one, each with its own position. -/
theorem ofProperties_eq_mapM (properties : List Property) :
    ofProperties properties =
      properties.zipIdx.mapM fun p =>
        (Shape.resolve properties p.2 p.1).map fun s => ofShape p.2 s :=
  Outcome.map_mapM_zipIdx _ (fun s => ofShape s.2 s.1) properties 0

/-- The transfers of two templates are related exactly if they are so at every place. Both templates
are known to have transfers. -/
theorem forall₂_iff_of_ofProperties {R : Transfer → Transfer → Prop}
    {properties others : List Property} {transfers transfers' : List Transfer}
    (h : ofProperties properties = .ok transfers) (h' : ofProperties others = .ok transfers') :
    List.Forall₂ R transfers transfers' ↔
      properties.length = others.length ∧
        ∀ i p q, properties[i]? = some p → others[i]? = some q →
          ∃ s t, Shape.resolve properties i p = .ok s ∧ Shape.resolve others i q = .ok t ∧
            R (ofShape i s) (ofShape i t) := by
  rw [ofProperties_eq_mapM] at h h'
  rw [Outcome.forall₂_iff_of_mapM_zipIdx h h']
  simp only [Outcome.map_eq_ok_iff]
  constructor
  · rintro ⟨hLength, hEach⟩
    refine ⟨hLength, fun i p q hp hq => ?_⟩
    obtain ⟨_, _, ⟨s, hs, rfl⟩, ⟨t, ht, rfl⟩, hR⟩ := hEach i p q hp hq
    exact ⟨s, t, hs, ht, hR⟩
  · rintro ⟨hLength, hEach⟩
    refine ⟨hLength, fun i p q hp hq => ?_⟩
    obtain ⟨s, t, hs, ht, hR⟩ := hEach i p q hp hq
    exact ⟨_, _, ⟨s, hs, rfl⟩, ⟨t, ht, rfl⟩, hR⟩

end Transfer

namespace Template

/-- What has a key can be planned, since both come from the same shapes. The transfers are more than
the key tells. -/
theorem ofProperties_of_keyOf {properties : List Property} {key : String}
    (hKey : keyOf properties = .ok key) :
    ∃ transfers, Transfer.ofProperties properties = .ok transfers := by
  obtain ⟨shapes, hShapes, _⟩ := keyOf_eq_ok_iff.mp hKey
  rw [Transfer.ofProperties, hShapes]
  exact ⟨_, rfl⟩

section SameKey

variable {properties others : List Property} {key : String}
  (hKey : keyOf properties = .ok key) (hKey' : keyOf others = .ok key)

include hKey hKey'

/-- Templates with one key have equal signatures at every place. Their names and types need not
agree. -/
theorem places_of_keyOf :
    properties.length = others.length ∧
      ∀ i p q, properties[i]? = some p → others[i]? = some q →
        ∃ s t, Shape.resolve properties i p = .ok s ∧ Shape.resolve others i q = .ok t ∧
          s.fragment = t.fragment := by
  obtain ⟨shapes, hShapes, _⟩ := keyOf_eq_ok_iff.mp hKey
  obtain ⟨shapes', hShapes', _⟩ := keyOf_eq_ok_iff.mp hKey'
  exact (Shape.forall₂_iff_of_resolveAll hShapes hShapes').mp
    (fragments_eq_of_keyOf hKey hKey' hShapes hShapes')

variable {transfers transfers' : List Transfer}
  (hTransfers : Transfer.ofProperties properties = .ok transfers)
  (hTransfers' : Transfer.ofProperties others = .ok transfers')

include hTransfers hTransfers'

/-- What equal signatures have in common, the transfers of the templates have in common. It is
enough to look at two shapes with one signature. -/
theorem forall₂_transfers_of_keyOf {R : Transfer → Transfer → Prop}
    (hR : ∀ {s t : Shape}, s.Accepted → t.Accepted → s.fragment = t.fragment →
      ∀ index, R (.ofShape index s) (.ofShape index t)) :
    List.Forall₂ R transfers transfers' := by
  obtain ⟨hLength, hEach⟩ := places_of_keyOf hKey hKey'
  refine (Transfer.forall₂_iff_of_ofProperties hTransfers hTransfers').mpr
    ⟨hLength, fun i p q hp hq => ?_⟩
  obtain ⟨s, t, hs, ht, hFragment⟩ := hEach i p q hp hq
  exact ⟨s, t, hs, ht,
    hR (Shape.accepted_of_resolve hs) (Shape.accepted_of_resolve ht) hFragment i⟩

/-- Whatever calls one template can call the other. The declared types of the parameters may differ;
how they are passed may not. -/
theorem callSides_eq_of_keyOf :
    (transfers.flatMap Transfer.parameters).map Parameter.callSide =
      (transfers'.flatMap Transfer.parameters).map Parameter.callSide := by
  rw [List.map_flatMap, List.map_flatMap]
  exact flatMap_eq_flatMap
    (forall₂_transfers_of_keyOf hKey hKey' hTransfers hTransfers' Transfer.callSide_ofShape_eq)

/-- Both templates fill as many slots with the same bytes, for all values of the parameters. The
texts that compute a size may still differ. -/
theorem evaluate_layoutOf_eq_of_keyOf (v : Valuation) :
    (layoutOf transfers).map (Slot.evaluate v) = (layoutOf transfers').map (Slot.evaluate v) := by
  rw [layoutOf, layoutOf, List.map_flatMap, List.map_flatMap]
  exact flatMap_eq_flatMap
    (forall₂_transfers_of_keyOf hKey hKey' hTransfers hTransfers' fun hs ht hFragment index =>
      Transfer.evaluate_slots_ofShape_eq hs ht hFragment index v)

end SameKey

end Template

/-- A constant count and a constant length with a product that does not fit 32 bits, as the author
wrote them. -/
def Property.IsOversized (p : Property) : Prop :=
  ∃ c l : UInt32, p.count = some (.fixed c) ∧ p.length = some (.fixed l) ∧
    UInt32.size ≤ c.toNat * l.toNat

/-- Factors that do not fit are constants, and those are resolved to themselves. -/
theorem Shape.isOversized_iff_of_resolve {scope : List Property} {index : Nat} {p : Property}
    {s : Shape} (h : resolve scope index p = .ok s) : s.IsOversized ↔ p.IsOversized := by
  obtain ⟨hCount, hLength, _, _⟩ := resolve_eq_ok_iff.mp h
  simp only [IsOversized, Property.IsOversized, eq_fixed_iff_of_resolveOptional hCount,
    eq_fixed_iff_of_resolveOptional hLength]

/-- Two templates agree in the factors of every product that does not fit 32 bits. -/
def Template.SameFactors (properties others : List Property) : Prop :=
  ∀ (i : Nat) (p q : Property), properties[i]? = some p → others[i]? = some q →
    p.IsOversized → p.count = q.count ∧ p.length = q.length

namespace TemplatePlan

/-- The plan of a template has no other way to fail than its transfers. -/
theorem ofProperties_eq_ok_iff {key : String} {properties : List Property} {t : TemplatePlan} :
    ofProperties key properties = .ok t ↔
      ∃ transfers, Transfer.ofProperties properties = .ok transfers ∧
        ofTransfers key transfers = t := by
  simp only [ofProperties, Outcome.bind_eq_ok_iff, Outcome.pure_eq_ok_iff]

/-- What the generated function of a template is made of. -/
def templateSide (t : TemplatePlan) :
    List (Nat × ParameterRole × NativeType × Access) × List Slot × Nat :=
  (t.parameters.map Parameter.templateSide, t.slots, t.slotCount)

end TemplatePlan

namespace Header

/-- The declaration of a parameter does not depend on its type in the wrapper. So templates of
different types can share it. -/
theorem templateParameter_eq {p q : Parameter} (h : p.templateSide = q.templateSide) :
    templateParameter p = templateParameter q := by
  simp only [Parameter.templateSide, Prod.mk.injEq] at h
  obtain ⟨hProperty, hRole, hType, hAccess⟩ := h
  simp only [templateParameter, Parameter.name, hProperty, hRole, hType, hAccess]

theorem map_templateParameter_eq {ps qs : List Parameter}
    (h : ps.map Parameter.templateSide = qs.map Parameter.templateSide) :
    ps.map templateParameter = qs.map templateParameter := by
  rw [← List.forall₂_eq_eq_eq, List.forall₂_map_left_iff, List.forall₂_map_right_iff] at h ⊢
  exact h.imp fun _ _ hSide => templateParameter_eq hSide

variable {t u : TemplatePlan}

/-- The key and the template side make up all the text of a template's function, in both dialects.
Nothing else of the plan is read there. -/
theorem templateLines_eq (hKey : t.key = u.key) (hSide : t.templateSide = u.templateSide) :
    Functions.templateLines t = Functions.templateLines u ∧
      Macros.templateLines t = Macros.templateLines u := by
  simp only [TemplatePlan.templateSide, Prod.mk.injEq] at hSide
  obtain ⟨hParameters, hSlots, hCount⟩ := hSide
  have hDeclared := map_templateParameter_eq hParameters
  constructor
  · simp only [Functions.templateLines, Functions.templateGuard, Functions.functionHead,
      Functions.functionParameters, hKey, hSlots, hCount, hDeclared]
  · simp only [Macros.templateLines, Macros.functionHead, Macros.functionParameters, hKey, hSlots,
      hCount, hDeclared]

end Header

namespace Template

section SameKey

variable {properties others : List Property} {key : String} {transfers transfers' : List Transfer}
  (hKey : keyOf properties = .ok key) (hKey' : keyOf others = .ok key)
  (hTransfers : Transfer.ofProperties properties = .ok transfers)
  (hTransfers' : Transfer.ofProperties others = .ok transfers')

include hKey hKey' hTransfers hTransfers'

/-- Templates with one key have the same slots only if they do so at every place. The key tells how
many slots each place has. -/
theorem slots_eq_of_layoutOf_eq (h : layoutOf transfers = layoutOf transfers') :
    List.Forall₂ (fun t t' => t.slots = t'.slots) transfers transfers' := by
  let v : Valuation := ⟨fun _ => 0, fun _ => 0, fun _ => 0⟩
  have hLengths : List.Forall₂ (fun t t' => t.slots.length = t'.slots.length)
      transfers transfers' := by
    refine forall₂_transfers_of_keyOf hKey hKey' hTransfers hTransfers'
      fun hs ht hFragment index => ?_
    have hSlots := Transfer.evaluate_slots_ofShape_eq hs ht hFragment index v
    simpa using congrArg List.length hSlots
  exact (flatMap_eq_flatMap_iff hLengths).mp h

/-- Factors that show are the same in both templates. These are the only constants that the text of
a slot has and the key does not tell. -/
theorem sameFactors_of_layoutOf_eq (h : layoutOf transfers = layoutOf transfers') :
    SameFactors properties others := by
  intro i p q hp hq hSize
  obtain ⟨s, t, hs, ht, hSlots⟩ := ((Transfer.forall₂_iff_of_ofProperties hTransfers
    hTransfers').mp (slots_eq_of_layoutOf_eq hKey hKey' hTransfers hTransfers' h)).2 i p q hp hq
  obtain ⟨s', t', hs', ht', hFragment⟩ := (places_of_keyOf hKey hKey').2 i p q hp hq
  cases hs.symm.trans hs'
  cases ht.symm.trans ht'
  obtain ⟨inType, c, l, c', l', hAccepts, _, rfl, rfl, hConstants⟩ :=
    Transfer.ofShape_of_isOversized (Shape.accepted_of_resolve hs) (Shape.accepted_of_resolve ht)
      hFragment ((Shape.isOversized_iff_of_resolve hs).mpr hSize)
  obtain ⟨note, hRow⟩ := Transfer.slots_ofConstants i hAccepts c l
  obtain ⟨note', hRow'⟩ := Transfer.slots_ofConstants i hAccepts c' l'
  rw [(hConstants i).1, (hConstants i).2, hRow, hRow'] at hSlots
  obtain ⟨hCount, hLength, _⟩ : c = c' ∧ l = l' ∧ note = note' := by
    simpa [UInt32.toNat_inj, and_assoc] using hSlots
  obtain ⟨hpCount, hpLength, _, _⟩ := Shape.resolve_eq_ok_iff.mp hs
  obtain ⟨hqCount, hqLength, _, _⟩ := Shape.resolve_eq_ok_iff.mp ht
  rw [(Shape.eq_fixed_iff_of_resolveOptional hpCount).mp rfl,
    (Shape.eq_fixed_iff_of_resolveOptional hpLength).mp rfl,
    (Shape.eq_fixed_iff_of_resolveOptional hqCount).mp rfl,
    (Shape.eq_fixed_iff_of_resolveOptional hqLength).mp rfl, hCount, hLength]
  exact ⟨rfl, rfl⟩

/-- Apart from factors that show, templates with one key differ in nothing that their functions are
made of. -/
theorem exemplars_eq_of_sameFactors (hFactors : SameFactors properties others) :
    List.Forall₂ (fun t t' => t.exemplar = t'.exemplar) transfers transfers' := by
  obtain ⟨hLength, hEach⟩ := places_of_keyOf hKey hKey'
  refine (Transfer.forall₂_iff_of_ofProperties hTransfers hTransfers').mpr
    ⟨hLength, fun i p q hp hq => ?_⟩
  obtain ⟨s, t, hs, ht, hFragment⟩ := hEach i p q hp hq
  refine ⟨s, t, hs, ht, Transfer.exemplar_ofShape_eq hFragment (fun hSize => ?_) i⟩
  obtain ⟨hCount, hLength⟩ :=
    hFactors i p q hp hq ((Shape.isOversized_iff_of_resolve hs).mp hSize)
  obtain ⟨c, l, hsCount, hsLength, _⟩ := hSize
  obtain ⟨hpCount, hpLength, _, _⟩ := Shape.resolve_eq_ok_iff.mp hs
  obtain ⟨hqCount, hqLength, _, _⟩ := Shape.resolve_eq_ok_iff.mp ht
  constructor
  · rw [hsCount, eq_comm, Shape.eq_fixed_iff_of_resolveOptional hqCount, ← hCount,
      ← Shape.eq_fixed_iff_of_resolveOptional hpCount, hsCount]
  · rw [hsLength, eq_comm, Shape.eq_fixed_iff_of_resolveOptional hqLength, ← hLength,
      ← Shape.eq_fixed_iff_of_resolveOptional hpLength, hsLength]

end SameKey

end Template

namespace TemplatePlan

/-- What a function is made of comes from the exemplars of the transfers. -/
theorem templateSide_ofTransfers_eq {key : String} {transfers transfers' : List Transfer}
    (h : List.Forall₂ (fun t t' => t.exemplar = t'.exemplar) transfers transfers') :
    (ofTransfers key transfers).templateSide = (ofTransfers key transfers').templateSide := by
  have hSlots : layoutOf transfers = layoutOf transfers' :=
    flatMap_eq_flatMap <| h.imp fun t t' hSame => by
      rw [← Transfer.slots_exemplar, hSame, Transfer.slots_exemplar]
  have hParameters : (transfers.flatMap Transfer.parameters).map Parameter.templateSide =
      (transfers'.flatMap Transfer.parameters).map Parameter.templateSide := by
    rw [List.map_flatMap, List.map_flatMap]
    exact flatMap_eq_flatMap <| h.imp fun t t' hSame => by
      rw [← Transfer.templateSide_exemplar, hSame, Transfer.templateSide_exemplar]
  simp only [templateSide, ofTransfers, hSlots, hParameters]

/-- When it does not matter which of two templates with one key is kept. Both can be planned, and
their plans have the same template side exactly if they agree in every constant count and length
whose product exceeds 32 bits. The same template side gives the same generated function. -/
theorem templateSide_eq_iff {properties others : List Property} {key : String}
    (hKey : Template.keyOf properties = .ok key) (hKey' : Template.keyOf others = .ok key) :
    ∃ plan plan', ofProperties key properties = .ok plan ∧ ofProperties key others = .ok plan' ∧
      (plan.templateSide = plan'.templateSide ↔ Template.SameFactors properties others) ∧
      (plan.templateSide = plan'.templateSide →
        Header.Functions.templateLines plan = Header.Functions.templateLines plan' ∧
          Header.Macros.templateLines plan = Header.Macros.templateLines plan') := by
  obtain ⟨transfers, hTransfers⟩ := Template.ofProperties_of_keyOf hKey
  obtain ⟨transfers', hTransfers'⟩ := Template.ofProperties_of_keyOf hKey'
  refine ⟨ofTransfers key transfers, ofTransfers key transfers', ?_, ?_, ⟨?_, ?_⟩, ?_⟩
  · exact ofProperties_eq_ok_iff.mpr ⟨transfers, hTransfers, rfl⟩
  · exact ofProperties_eq_ok_iff.mpr ⟨transfers', hTransfers', rfl⟩
  · intro hSide
    have hSlots : layoutOf transfers = layoutOf transfers' := congrArg (·.2.1) hSide
    exact Template.sameFactors_of_layoutOf_eq hKey hKey' hTransfers hTransfers' hSlots
  · intro hFactors
    exact templateSide_ofTransfers_eq
      (Template.exemplars_eq_of_sameFactors hKey hKey' hTransfers hTransfers' hFactors)
  · exact Header.templateLines_eq rfl

/-- Blocks of bytes show that the condition can fail: both templates have one key, and their plans
have different factors. -/
theorem templateSide_blocksOf_ne :
    Template.keyOf (Template.blocksOf 65536 65536) = .ok "b4294967296" ∧
      Template.keyOf (Template.blocksOf 32768 131072) = .ok "b4294967296" ∧
      ∃ plan plan', ofProperties "b4294967296" (Template.blocksOf 65536 65536) = .ok plan ∧
        ofProperties "b4294967296" (Template.blocksOf 32768 131072) = .ok plan' ∧
        plan.templateSide ≠ plan'.templateSide := by
  have hKey : Template.keyOf (Template.blocksOf 65536 65536) = .ok "b4294967296" := rfl
  have hKey' : Template.keyOf (Template.blocksOf 32768 131072) = .ok "b4294967296" := rfl
  obtain ⟨plan, plan', hPlan, hPlan', hIff, _⟩ := templateSide_eq_iff hKey hKey'
  refine ⟨hKey, hKey', plan, plan', hPlan, hPlan', fun hSide => ?_⟩
  obtain ⟨hCount, _⟩ := hIff.mp hSide 0 _ _ rfl rfl ⟨65536, 65536, rfl, rfl, by decide⟩
  exact absurd hCount (by decide)

end TemplatePlan

end EventManifest
