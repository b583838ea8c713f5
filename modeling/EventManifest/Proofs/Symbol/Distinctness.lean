import EventManifest.Proofs.Symbol.Identifier
import EventManifest.Proofs.Symbol.Parameter
import EventManifest.Proofs.Transfer.Scope

/-!
The parameters of a wrapper have different names. Each property is named apart from what stands
before it, the name of its length included, and what comes later keeps apart from it in turn. The
properties may have any names, also such that one is another with a position or `_Len` behind it.
-/

namespace EventManifest.Symbol

/-- What a property reserves is free. This covers the name of its length, not only its own. -/
theorem FirstFree.not_mem {seen : List String} {withLength : Bool} {index : Nat}
    {name chosen r : String} (h : FirstFree seen withLength index name chosen)
    (hr : r ∈ reserved withLength chosen) : r ∉ seen := by
  obtain ⟨_, _, hFree, _⟩ := h
  intro hSeen
  have hTaken := isTaken_iff.mpr ⟨r, hr, hSeen⟩
  rw [hFree] at hTaken
  cases hTaken

theorem lengthName_ne (name : String) : lengthName name ≠ name := by
  intro hSame
  have hLength := congrArg String.length hSame
  rw [lengthName, String.length_append] at hLength
  have hSuffix : "_Len".length = 4 := rfl
  omega

theorem nodup_reserved (withLength : Bool) (name : String) : (reserved withLength name).Nodup := by
  cases withLength with
  | false => exact List.nodup_singleton name
  | true => simp [reserved, lengthName_ne]

/-- Naming keeps all that is reserved apart from each other and from what was in use before. By
induction over the properties, with the names in use growing from step to step. -/
theorem nodup_reservedNames (seen : List String) (index : Nat)
    (properties : List (String × Bool)) :
    (reservedNames properties (parameterNamesFrom seen index properties)).Nodup ∧
      ∀ r ∈ reservedNames properties (parameterNamesFrom seen index properties), r ∉ seen := by
  induction properties generalizing seen index with
  | nil => simp [reservedNames]
  | cons p properties ih =>
      obtain ⟨written, withLength⟩ := p
      rw [parameterNamesFrom]
      have hFirst := firstFree_freshName seen withLength index (sanitize written)
      generalize freshName seen withLength index (2 * seen.length + 1) (sanitize written) = chosen
        at hFirst
      -- What comes later is apart from the new name because that counts as in use for it.
      obtain ⟨hNodup, hLater⟩ := ih (reserved withLength chosen ++ seen) (index + 1)
      simp only [List.mem_append, not_or] at hLater
      simp only [reservedNames, List.zipWith_cons_cons, List.flatten_cons]
      constructor
      · rw [List.nodup_append]
        refine ⟨nodup_reserved withLength chosen, hNodup, ?_⟩
        rintro r hr s hs rfl
        exact (hLater r hs).1 hr
      · intro r hr
        rcases List.mem_append.mp hr with hOwn | hRest
        · exact hFirst.not_mem hOwn
        · exact (hLater r hRest).2

/-- However many attempts it takes, an identifier remains one. The fuel has no part in this. -/
theorem isIdentifier_freshName {seen : List String} {withLength : Bool} {index fuel : Nat}
    {name : String} (h : isIdentifier name = true) :
    isIdentifier (freshName seen withLength index fuel name) = true := by
  induction fuel generalizing name with
  | zero => exact h
  | succ fuel ih =>
      rw [freshName]
      split
      · refine ih (isIdentifier_append h ?_)
        rw [isWord_append, isWord_toString]
        rfl
      · exact h

/-- Every property gets an identifier, whatever its own name is. -/
theorem isIdentifier_of_mem_parameterNamesFrom {seen : List String} {index : Nat}
    {properties : List (String × Bool)} {name : String}
    (h : name ∈ parameterNamesFrom seen index properties) : isIdentifier name = true := by
  induction properties generalizing seen index with
  | nil => cases h
  | cons p properties ih =>
      rw [parameterNamesFrom, List.mem_cons] at h
      rcases h with rfl | h
      · exact isIdentifier_freshName (isIdentifier_sanitize _)
      · exact ih h

theorem isIdentifier_of_mem_reserved {withLength : Bool} {name r : String}
    (hName : isIdentifier name = true) (h : r ∈ reserved withLength name) :
    isIdentifier r = true := by
  have hLength : isIdentifier (lengthName name) = true := isIdentifier_append hName (by decide)
  cases withLength with
  | false => rwa [List.mem_singleton.mp h]
  | true =>
      rcases List.mem_pair.mp h with rfl | rfl
      · exact hLength
      · exact hName

/-- The parameters of a property have the names that it reserves, in the same order: a length stands
before its data. -/
theorem map_name_parameters {t : Transfer} {names : List String} {name : String}
    (hName : names[t.index]? = some name) :
    t.parameters.map (Parameter.name (.named names)) = reserved t.needsLength name := by
  have hGet : names.getD t.index "" = name := by
    rw [List.getD_eq_getElem?_getD, hName, Option.getD_some]
  have hData : t.dataParameter.name (.named names) = name := hGet
  have hLength : t.lengthParameter.name (.named names) = lengthName name :=
    congrArg lengthName hGet
  rw [Transfer.parameters, reserved, apply_ite (List.map _)]
  simp only [List.map_cons, List.map_nil, hData, hLength]

/-- The names of the parameters that properties take in a wrapper. -/
def wrapperNames (names : List String) (transfers : List Transfer) : List String :=
  (transfers.flatMap Transfer.parameters).map (Parameter.name (.named names))

section Wrapper

variable {properties : List Property} {transfers : List Transfer}
  (h : Transfer.ofProperties properties = .ok transfers)

include h

/-- They are what the properties reserve, also for the first few of them. So what a property must
keep clear of can be said in terms of the wrapper alone. -/
theorem wrapperNames_take (i : Nat) :
    wrapperNames (parameterNames properties transfers) (transfers.take i) =
      reservedNames
        ((List.zipWith (fun p t => (p.name, t.needsLength)) properties transfers).take i)
        (parameterNames properties transfers) := by
  obtain ⟨hLength, hEach⟩ := Transfer.places_of_ofProperties h
  rw [wrapperNames, reservedNames, List.map_flatMap, List.flatMap_def]
  refine congrArg List.flatten (List.ext_getElem ?_ fun j hj hj' => ?_)
  · simp only [List.length_map, List.length_take, List.length_zipWith, length_parameterNames,
      hLength]
    omega
  · have hBound : j < properties.length := by
      simp only [List.length_map, List.length_take, hLength] at hj
      omega
    obtain ⟨s, _, hTransfer⟩ := hEach j _ (List.getElem?_eq_getElem hBound)
    obtain ⟨_, hSame⟩ := List.getElem?_eq_some_iff.mp hTransfer
    have hNames : j < (parameterNames properties transfers).length := by
      rwa [length_parameterNames]
    simp only [List.getElem_map, List.getElem_take, List.getElem_zipWith, hSame]
    exact map_name_parameters (List.getElem?_eq_getElem hNames)

/-- The case of all properties. -/
theorem wrapperNames_eq :
    wrapperNames (parameterNames properties transfers) transfers =
      reservedNames (List.zipWith (fun p t => (p.name, t.needsLength)) properties transfers)
        (parameterNames properties transfers) := by
  have hAll := wrapperNames_take h transfers.length
  rwa [List.take_length, List.take_of_length_le (by simp)] at hAll

/-- A property gets the first of its attempts that is apart from the parameters before it. Later
properties have no influence on its name. -/
theorem firstFree_parameterNames {i : Nat} {p : Property} (hp : properties[i]? = some p) :
    ∃ t name, transfers[i]? = some t ∧ (parameterNames properties transfers)[i]? = some name ∧
      FirstFree (wrapperNames (parameterNames properties transfers) (transfers.take i))
        t.needsLength i (sanitize p.name) name := by
  obtain ⟨hLength, hEach⟩ := Transfer.places_of_ofProperties h
  obtain ⟨s, _, hTransfer⟩ := hEach i p hp
  have hEntry : (List.zipWith (fun (p : Property) (t : Transfer) => (p.name, t.needsLength))
      properties transfers)[i]? = some (p.name, (Transfer.ofShape i s).needsLength) :=
    List.getElem?_zipWith_eq_some.mpr ⟨p, _, hp, hTransfer, rfl⟩
  obtain ⟨name, hName, hFirst⟩ := firstFree_parameterNamesFrom hEntry [] 0
  rw [← parameterNames_eq hLength] at hName hFirst
  rw [List.append_nil, Nat.zero_add, ← wrapperNames_take h] at hFirst
  exact ⟨_, name, hTransfer, hName, hFirst⟩

/-- The names of lengths are identifiers too. -/
theorem isIdentifier_of_mem_wrapperNames {r : String}
    (hr : r ∈ wrapperNames (parameterNames properties transfers) transfers) :
    isIdentifier r = true := by
  rw [wrapperNames_eq h] at hr
  obtain ⟨block, hBlock, hOwn⟩ := List.mem_flatten.mp hr
  obtain ⟨j, hj⟩ := List.mem_iff_getElem?.mp hBlock
  obtain ⟨p, name, _, hName, rfl⟩ := List.getElem?_zipWith_eq_some.mp hj
  have hIdentifier := isIdentifier_of_mem_parameterNamesFrom (List.mem_of_getElem? hName)
  exact isIdentifier_of_mem_reserved hIdentifier hOwn

end Wrapper

/-- The names of a wrapper's parameters, as their properties get them. -/
structure NamesApart (properties : List Property) (transfers : List Transfer) : Prop where
  /-- The attempts at the name of a property come to an end, with the first that is free. -/
  settled : ∀ (i : Nat) (p : Property), properties[i]? = some p →
    ∃ t name, transfers[i]? = some t ∧ (parameterNames properties transfers)[i]? = some name ∧
      FirstFree (wrapperNames (parameterNames properties transfers) (transfers.take i))
        t.needsLength i (sanitize p.name) name
  identifiers : (∀ name ∈ parameterNames properties transfers, isIdentifier name = true) ∧
    ∀ name ∈ wrapperNames (parameterNames properties transfers) transfers,
      isIdentifier name = true
  nodup : (wrapperNames (parameterNames properties transfers) transfers).Nodup

/-- Whatever the properties of a template are called, the parameters of a wrapper have different
names, and all of them are identifiers. -/
theorem namesApart_of_ofProperties {properties : List Property} {transfers : List Transfer}
    (h : Transfer.ofProperties properties = .ok transfers) : NamesApart properties transfers where
  settled _ _ hp := firstFree_parameterNames h hp
  identifiers :=
    ⟨fun _ hName => isIdentifier_of_mem_parameterNamesFrom hName,
      fun _ hName => isIdentifier_of_mem_wrapperNames h hName⟩
  nodup := by
    rw [wrapperNames_eq h, parameterNames_eq (Transfer.places_of_ofProperties h).1]
    exact (nodup_reservedNames [] 0 _).1

/-- Names that are attempts at each other, with a length among them. -/
def entangledNames : List Property :=
  [.ofType "X" .uint8, .ofType "X_2" .uint8, .ofType "X" .countedBinary,
    .ofType "X_2_2_Len" .uint8, .ofType "2" .sid]

/-- The third property needs two more attempts, and the fourth meets the length beside it. The digit
of the last one gives way to two underscores, an identifier like any other. -/
theorem namesApart_entangledNames :
    ∃ transfers, Transfer.ofProperties entangledNames = .ok transfers ∧
      wrapperNames (parameterNames entangledNames transfers) transfers =
        ["X", "X_2", "X_2_2_Len", "X_2_2", "X_2_2_Len_3", "__"] ∧
      NamesApart entangledNames transfers := by
  have hPlanned : Transfer.ofProperties entangledNames = .ok _ := rfl
  exact ⟨_, hPlanned, by decide, namesApart_of_ofProperties hPlanned⟩

end EventManifest.Symbol
