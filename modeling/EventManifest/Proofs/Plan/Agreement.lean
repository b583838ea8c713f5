import EventManifest.Proofs.Plan.Existence
import EventManifest.Proofs.Shape.Validity

/-!
Keys and transfers agree. The key of a template is written from the shapes as they are declared, the
transfers from the folded ones. Both are refused for the first invalid property, and the folded
shapes have the signatures that make up the key. So what has passed as keys is not refused when
events and templates are planned.
-/

namespace EventManifest

/-- The defect of the first invalid property of a template. -/
def Template.FirstRefused (properties : List Property) (defect : Defect) : Prop :=
  ∃ (i : Nat) (p : Property), properties[i]? = some p ∧ p.Refused properties i defect ∧
    ∀ j < i, ∀ q : Property, properties[j]? = some q → q.IsValid properties j

namespace Shape

/-- A template is refused for its first invalid property. All properties before it are valid, and
none behind it is looked at. -/
theorem resolveAll_eq_error_iff {properties : List Property} {defect : Defect} :
    resolveAll properties = .error defect ↔ Template.FirstRefused properties defect := by
  rw [resolveAll, Outcome.mapM_zipIdx_eq_error_iff]
  simp only [Nat.zero_add, resolve_eq_error_iff, exists_resolve_iff]
  rfl

/-- Folding keeps the signature. A product that fits 32 bits is the same in 32 bits, and any other
one is not folded. -/
theorem signatureChars_folded (s : Shape) : s.folded.signatureChars = s.signatureChars := by
  rw [folded]
  split
  · rename_i c l hCount hLength
    split
    · rename_i hFits
      have hProduct : (c * l).toNat = c.toNat * l.toNat := by
        rw [UInt32.toNat_mul]
        exact Nat.mod_eq_of_lt hFits
      simp [signatureChars, hCount, hLength, hProduct]
    · rfl
  · rfl

end Shape

namespace Template

/-- The key is made up of the signatures of the transfers, and there is none where there are no
transfers. -/
theorem keyOf_eq_map_ofProperties (properties : List Property) :
    keyOf properties = (Transfer.ofProperties properties).map fun transfers =>
      String.join (transfers.map fun t => t.shape.signature) := by
  have hFolded (s : Shape) : s.folded.signature = s.signature := by
    rw [Shape.signature, Shape.signatureChars_folded, Shape.signature]
  have hKey (shapes : List Shape) : String.ofList (shapes.flatMap Shape.signatureChars) =
      String.join ((shapes.zipIdx.map fun x => Transfer.ofShape x.2 x.1).map fun t =>
        t.shape.signature) := by
    have hSignatures : (shapes.zipIdx.map fun x => Transfer.ofShape x.2 x.1).map
        (fun t => t.shape.signature) = (shapes.zipIdx.map Prod.fst).map Shape.signature := by
      simp only [List.map_map]
      exact List.map_congr_left fun x _ => hFolded x.1
    rw [hSignatures, List.zipIdx_map_fst, ← String.toList_inj]
    simp [List.flatMap_map, Shape.signature]
  rw [keyOf, Transfer.ofProperties]
  cases Shape.resolveAll properties with
  | error defect => rfl
  | ok shapes => exact congrArg Except.ok (hKey shapes)

/-- Transfers are refused for the same defects as keys, in the same order. -/
theorem ofProperties_eq_error_iff {properties : List Property} {defect : Defect} :
    Transfer.ofProperties properties = .error defect ↔ FirstRefused properties defect := by
  rw [Transfer.ofProperties, Outcome.bind_eq_error_iff, Shape.resolveAll_eq_error_iff]
  refine or_iff_left ?_
  rintro ⟨_, _, hPure⟩
  cases hPure

end Template

/-- Keys and transfers of a template agree, whatever its properties: both are refused for the first
invalid property, and else the key is made up of the signatures of the transfers. Hence the traits
and the keys are all for which planning a provider can fail, and where each provider is planned the
templates are so too, without any further report. -/
theorem keys_agree_with_transfers :
    (∀ properties, Template.keyOf properties =
      (Transfer.ofProperties properties).map fun transfers =>
        String.join (transfers.map fun t => t.shape.signature)) ∧
    (∀ properties defect,
      (Template.keyOf properties = .error defect ↔ Template.FirstRefused properties defect) ∧
        (Transfer.ofProperties properties = .error defect ↔
          Template.FirstRefused properties defect)) ∧
    (∀ (p : Provider) (table : SymbolTable) (traits : Option (List UInt8))
      (grouped : ProviderTemplates), Traits.ofProvider p = .ok traits →
        ProviderTemplates.ofEvents p.events = .ok grouped →
          (∀ e ∈ p.events, e.notLogged = false →
            ∃ transfers, Transfer.ofProperties e.properties = .ok transfers) ∧
          ∃ planned, ProviderPlan.build p table = .ok planned) ∧
    ∀ (pairs : List (Provider × SymbolTable)) (planned : List PlannedProvider),
      GenerationPlan.allOk (GenerationPlan.outcomes pairs) = some planned →
        ∃ templates,
          GenerationPlan.planTemplates (GenerationPlan.mergedTemplates planned) = .ok templates ∧
          (GenerationPlan.buildAll pairs).plan =
            some ⟨planned.map PlannedProvider.plan, templates⟩ ∧
          (GenerationPlan.buildAll pairs).diagnostics =
            (GenerationPlan.outcomes pairs).flatMap GenerationPlan.reports := by
  refine ⟨Template.keyOf_eq_map_ofProperties, fun properties defect => ⟨?_, ?_⟩, ?_, ?_⟩
  · rw [Template.keyOf_eq_map_ofProperties, Outcome.map_eq_error_iff,
      Template.ofProperties_eq_error_iff]
  · exact Template.ofProperties_eq_error_iff
  · intro p table traits grouped hTraits hGrouped
    refine ⟨fun e he hLogged => ?_, ProviderPlan.exists_build_of_ofEvents hTraits hGrouped table⟩
    obtain ⟨key, hKey⟩ := ProviderTemplates.exists_keyOf_of_ofEvents hGrouped he hLogged
    exact Template.ofProperties_of_keyOf hKey
  · intro pairs planned hPlanned
    obtain ⟨templates, hTemplates, hPlan⟩ := GenerationPlan.plan_buildAll_of_allOk hPlanned
    exact ⟨templates, hTemplates, hPlan, GenerationPlan.diagnostics_buildAll pairs⟩

/-- Binary data without a length, twice. -/
def unmeasured : List Property :=
  [.ofType "A" .uint8, .ofType "B" .binary, .ofType "C" .binary]

/-- The first of two defects is reported, and blocks beyond 32 bits, which are not folded, are
planned with any table. -/
theorem keys_agree_with_transfers_blocks :
    Template.FirstRefused unmeasured (.invalidCardinality "B" "Binary requires a length") ∧
      (∃ transfers, Transfer.ofProperties (Template.blocksOf 65536 65536) = .ok transfers ∧
        String.join (transfers.map fun t => t.shape.signature) = "b4294967296") ∧
      ∀ table, ∃ planned templates,
        ProviderPlan.build (GenerationPlan.blocksProvider "P" 65536 65536) table = .ok planned ∧
        GenerationPlan.planTemplates (GenerationPlan.mergedTemplates [planned]) =
          .ok templates := by
  obtain ⟨hKeys, hRefused, hProvider, hTemplates⟩ := keys_agree_with_transfers
  refine ⟨(hRefused unmeasured _).1.mp (by decide), ?_, fun table => ?_⟩
  · have hKey := hKeys (Template.blocksOf 65536 65536)
    rw [show Template.keyOf (Template.blocksOf 65536 65536) = .ok "b4294967296" from rfl, eq_comm,
      Outcome.map_eq_ok_iff] at hKey
    exact hKey
  · obtain ⟨planned, hPlanned⟩ :=
      (hProvider (GenerationPlan.blocksProvider "P" 65536 65536) table none _ rfl rfl).2
    have hAll : GenerationPlan.allOk (GenerationPlan.outcomes
        [(GenerationPlan.blocksProvider "P" 65536 65536, table)]) = some [planned] := by
      simp [GenerationPlan.outcomes, GenerationPlan.allOk, hPlanned]
    obtain ⟨templates, hMerged, _⟩ := hTemplates _ _ hAll
    exact ⟨planned, templates, hPlanned, hMerged⟩

end EventManifest
