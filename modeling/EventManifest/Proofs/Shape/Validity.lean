import EventManifest.Proofs.Shape.Resolution

/-!
Which counts and lengths are valid. A constant is at least one, and a name belongs to an earlier
property; strings may have a length, binary data has one, and nothing else does. The shapes that
resolve are exactly the valid ones. Of several defects the count's is reported before the length's,
and both before those of the type.
-/

namespace EventManifest

open Template

namespace Cardinality

/-- Whether a count or length may stand at a place of a template. -/
def IsValid (properties : List Property) (index : Nat) : Cardinality → Prop
  | fixed value => 1 ≤ value
  | ref target => ∃ j < index, ∃ p, properties[j]? = some p ∧ p.name = target

/-- Why a count or length is refused at a place of a template. -/
inductive Refused (properties : List Property) (index : Nat) (owner what : String) :
    Cardinality → Defect → Prop where
  | zero : Refused properties index owner what (.fixed 0)
      (.invalidCardinality owner s!"fixed {what} must be at least 1")
  | dangling {target : String} (hNone : ∀ p ∈ properties, p.name ≠ target) :
      Refused properties index owner what (.ref target) (.danglingReference owner target)
  | forward {target : String} {j : Nat} (hFirst : FirstNamed properties target j)
      (hLate : index ≤ j) :
      Refused properties index owner what (.ref target) (.forwardReference owner target)

variable {properties : List Property} {index : Nat}

/-- A name that some earlier property has is first had by an earlier property. So it is enough to
look for any earlier property, although the first one counts. -/
theorem exists_denotes_iff {cardinality : Cardinality} :
    (∃ bound, cardinality.Denotes properties index bound) ↔
      cardinality.IsValid properties index := by
  cases cardinality with
  | fixed value =>
      constructor
      · rintro ⟨bound, h⟩
        cases h with
        | fixed hValue => exact hValue
      · intro hValue
        exact ⟨_, .fixed hValue⟩
  | ref target =>
      constructor
      · rintro ⟨bound, h⟩
        cases h with
        | ref hFirst hLess => exact ⟨_, hLess, hFirst.1⟩
      · rintro ⟨j, hLess, p, hp, hName⟩
        cases hFound : properties.findIdx? fun p => p.name == target with
        | none =>
            have hOther := List.findIdx?_eq_none_iff.mp hFound p (List.mem_of_getElem? hp)
            simp [hName] at hOther
        | some first =>
            have hFirst := Shape.findIdx?_eq_some_iff_firstNamed.mp hFound
            have hLeast : first ≤ j := by
              by_contra hLater
              exact hFirst.2 j (by omega) p hp hName
            exact ⟨_, .ref hFirst (by omega)⟩

end Cardinality

namespace Shape

variable {scope : List Property} {index : Nat} {owner what : String} {defect : Defect}

theorem findIdx?_eq_none_iff_forall_ne {target : String} :
    (scope.findIdx? fun p => p.name == target) = none ↔ ∀ p ∈ scope, p.name ≠ target := by
  simp [List.findIdx?_eq_none_iff]

/-- A name dangles exactly if no property has it, neither an earlier one nor a later one. -/
theorem resolveBound_ref_eq_dangling_iff {target : String} :
    resolveBound scope index owner what (.ref target) = .error (.danglingReference owner target) ↔
      ∀ p ∈ scope, p.name ≠ target := by
  rw [resolveBound, ← findIdx?_eq_none_iff_forall_ne]
  cases scope.findIdx? fun p => p.name == target with
  | none => simp
  | some position => by_cases hLess : position < index <;> simp [hLess]

/-- A name points forward exactly if the first property that has it does not come earlier. A
property that names itself is among these. -/
theorem resolveBound_ref_eq_forward_iff {target : String} :
    resolveBound scope index owner what (.ref target) = .error (.forwardReference owner target) ↔
      ∃ j, FirstNamed scope target j ∧ index ≤ j := by
  simp only [resolveBound, ← findIdx?_eq_some_iff_firstNamed]
  cases scope.findIdx? fun p => p.name == target with
  | none => simp
  | some position =>
      by_cases hLess : position < index
      · simp [hLess]
      · simp [hLess, Nat.le_of_not_lt hLess]

/-- A name is refused for no third reason. The two reasons exclude each other. -/
theorem resolveBound_ref_eq_error {target : String}
    (h : resolveBound scope index owner what (.ref target) = .error defect) :
    defect = .danglingReference owner target ∨ defect = .forwardReference owner target := by
  rw [resolveBound] at h
  split at h
  · cases h
    exact .inl rfl
  · split at h
    · cases h
    · cases h
      exact .inr rfl

/-- The defects of a count or length, and nothing else, are reported. Each names the owner. -/
theorem resolveBound_eq_error_iff {cardinality : Cardinality} :
    resolveBound scope index owner what cardinality = .error defect ↔
      cardinality.Refused scope index owner what defect := by
  constructor
  · intro h
    cases cardinality with
    | fixed value =>
        rw [resolveBound] at h
        split at h
        · rename_i hZero
          cases h
          exact hZero ▸ .zero
        · cases h
    | ref target =>
        rcases resolveBound_ref_eq_error h with rfl | rfl
        · exact .dangling (resolveBound_ref_eq_dangling_iff.mp h)
        · obtain ⟨j, hFirst, hLate⟩ := resolveBound_ref_eq_forward_iff.mp h
          exact .forward hFirst hLate
  · intro h
    cases h with
    | zero => rfl
    | dangling hNone => exact resolveBound_ref_eq_dangling_iff.mpr hNone
    | forward hFirst hLate => exact resolveBound_ref_eq_forward_iff.mpr ⟨_, hFirst, hLate⟩

/-- A count or length that is missing stays missing, and any other is resolved to what it stands
for. -/
theorem resolveOptional_eq_ok_iff {cardinality : Option Cardinality} {bound : Option Bound} :
    resolveOptional scope index owner what cardinality = .ok bound ↔
      Option.Rel (Cardinality.Denotes scope index) cardinality bound := by
  cases cardinality with
  | none => cases bound <;> simp [resolveOptional]
  | some cardinality =>
      rw [resolveOptional, Outcome.map_eq_ok_iff]
      simp only [resolveBound_eq_ok_iff]
      cases bound <;> simp

/-- What is missing cannot be refused here. That binary data need a length is checked later. -/
theorem resolveOptional_eq_error_iff {cardinality : Option Cardinality} :
    resolveOptional scope index owner what cardinality = .error defect ↔
      ∃ c ∈ cardinality, c.Refused scope index owner what defect := by
  cases cardinality with
  | none => simp [resolveOptional]
  | some c => simp [resolveOptional, Outcome.map_eq_error_iff, resolveBound_eq_error_iff]

end Shape

/-- The types whose values may have a length of their own. -/
def InType.lengthTakers : List InType :=
  [.unicodeString, .ansiString, .binary]

/-- The types that accept a length, as a list of their own. -/
theorem InType.acceptsLength_iff {inType : InType} :
    inType.acceptsLength = true ↔ inType ∈ lengthTakers := by
  cases inType <;> decide

namespace Property

/-- Whether the count and length of a property are in order at a place of a template. -/
structure IsValid (properties : List Property) (index : Nat) (p : Property) : Prop where
  count : ∀ c ∈ p.count, c.IsValid properties index
  length : ∀ c ∈ p.length, c.IsValid properties index
  of_length : p.length.isSome → ∃ inType ∈ InType.lengthTakers, p.category = .data inType
  of_binary : p.category = .data .binary → p.length.isSome

/-- The defect for which a property is refused at a place of a template. Each case is reached only
where the ones before it are not. -/
inductive Refused (properties : List Property) (index : Nat) (p : Property) : Defect → Prop where
  | count {c : Cardinality} {defect : Defect} (hCount : p.count = some c)
      (hRefused : c.Refused properties index p.name "count" defect) :
      Refused properties index p defect
  | length {c : Cardinality} {defect : Defect} (hCount : ∀ c ∈ p.count, c.IsValid properties index)
      (hLength : p.length = some c) (hRefused : c.Refused properties index p.name "length" defect) :
      Refused properties index p defect
  | lengthNotTaken {inType : InType} (hCount : ∀ c ∈ p.count, c.IsValid properties index)
      (hLength : ∀ c ∈ p.length, c.IsValid properties index) (hCategory : p.category = .data inType)
      (hSome : p.length.isSome) (hOther : inType ∉ InType.lengthTakers) :
      Refused properties index p
        (.invalidCardinality p.name (inType.title ++ " does not take a length"))
  | lengthMissing (hCount : ∀ c ∈ p.count, c.IsValid properties index)
      (hCategory : p.category = .data .binary) (hNone : p.length = none) :
      Refused properties index p (.invalidCardinality p.name "Binary requires a length")

end Property

namespace Shape

variable {properties : List Property} {index : Nat} {p : Property}

/-- The two defects of a type and a length that do not go together. They exclude each other, since
binary data take a length. -/
theorem checkLength_eq_error_iff {owner : String} {category : Category} {length : Option Bound}
    {defect : Defect} :
    checkLength owner category length = .error defect ↔
      (∃ inType : InType, category = .data inType ∧ inType ∉ InType.lengthTakers ∧ length.isSome ∧
        .invalidCardinality owner (inType.title ++ " does not take a length") = defect) ∨
      (category = .data .binary ∧ length = none ∧
        .invalidCardinality owner "Binary requires a length" = defect) := by
  simp only [← InType.acceptsLength_iff]
  cases category with
  | struct => simp [checkLength]
  | data inType =>
      cases length with
      | none =>
          by_cases hBinary : inType = .binary
          · simp [checkLength, hBinary]
          · simp [checkLength, hBinary]
      | some bound => cases hAccepts : inType.acceptsLength <;> simp [checkLength, hAccepts]

theorem exists_resolveOptional_iff {owner what : String} {cardinality : Option Cardinality} :
    (∃ bound, resolveOptional properties index owner what cardinality = .ok bound) ↔
      ∀ c ∈ cardinality, c.IsValid properties index := by
  simp only [resolveOptional_eq_ok_iff]
  cases cardinality with
  | none => exact ⟨fun _ => by simp, fun _ => ⟨none, .none⟩⟩
  | some c =>
      have hOnly : (∀ d ∈ some c, d.IsValid properties index) ↔ c.IsValid properties index := by
        simp
      rw [hOnly, ← Cardinality.exists_denotes_iff]
      constructor
      · rintro ⟨_, hRel⟩
        cases hRel with
        | some hDenotes => exact ⟨_, hDenotes⟩
      · rintro ⟨bound, hDenotes⟩
        exact ⟨some bound, .some hDenotes⟩

theorem isSome_of_resolveOptional {owner what : String} {cardinality : Option Cardinality}
    {bound : Option Bound}
    (h : resolveOptional properties index owner what cardinality = .ok bound) :
    bound.isSome = cardinality.isSome := by
  rw [← Option.not_isNone, ← Option.not_isNone, isNone_of_resolveOptional h]

/-- A property has a shape exactly if its count and length are in order. Of the other properties,
only the names of earlier ones have a part in this. -/
theorem exists_resolve_iff :
    (∃ s, resolve properties index p = .ok s) ↔ p.IsValid properties index := by
  simp only [resolve_eq_ok_iff]
  constructor
  · rintro ⟨s, hCount, hLength, hCheck, hCategory⟩
    have hShape : resolve properties index p = .ok s :=
      resolve_eq_ok_iff.mpr ⟨hCount, hLength, hCheck, hCategory⟩
    have hAccepted := accepted_of_resolve hShape
    refine ⟨exists_resolveOptional_iff.mp ⟨_, hCount⟩, exists_resolveOptional_iff.mp ⟨_, hLength⟩,
      fun hGiven => ?_, fun hBinary => ?_⟩
    · rw [← isSome_of_resolveOptional hLength] at hGiven
      obtain ⟨inType, hType, hAccepts⟩ := hAccepted.of_length hGiven
      exact ⟨inType, InType.acceptsLength_iff.mp hAccepts, hCategory ▸ hType⟩
    · rw [← isSome_of_resolveOptional hLength]
      exact hAccepted.of_binary (hCategory.trans hBinary)
  · intro h
    obtain ⟨count, hCount⟩ := exists_resolveOptional_iff.mpr h.count
    obtain ⟨length, hLength⟩ := exists_resolveOptional_iff.mpr h.length
    have hSome := isSome_of_resolveOptional hLength
    refine ⟨⟨p.category, count, length⟩, hCount, hLength, ?_, rfl⟩
    rw [checkLength_eq_ok_iff, hSome]
    · refine ⟨fun hGiven => ?_, h.of_binary⟩
      obtain ⟨inType, hTaker, hType⟩ := h.of_length hGiven
      exact ⟨inType, hType, InType.acceptsLength_iff.mpr hTaker⟩
    · intro hStruct
      simpa [Property.length_eq_none_of_struct hStruct] using hSome

/-- A property is refused with the first of its defects, in the order count, length, type. The
others are not reported. -/
theorem resolve_eq_error_iff {defect : Defect} :
    resolve properties index p = .error defect ↔ p.Refused properties index defect := by
  simp only [resolve, Outcome.bind_eq_error_iff]
  constructor
  · rintro (hCount | ⟨count, hCount, hLength | ⟨length, hLength, hCheck | ⟨_, _, hPure⟩⟩⟩)
    · obtain ⟨c, hc, hRefused⟩ := resolveOptional_eq_error_iff.mp hCount
      exact .count hc hRefused
    · obtain ⟨c, hc, hRefused⟩ := resolveOptional_eq_error_iff.mp hLength
      exact .length (exists_resolveOptional_iff.mp ⟨_, hCount⟩) hc hRefused
    · have hValidCount := exists_resolveOptional_iff.mp ⟨_, hCount⟩
      have hValidLength := exists_resolveOptional_iff.mp ⟨_, hLength⟩
      rcases checkLength_eq_error_iff.mp hCheck with
        ⟨inType, hType, hOther, hSome, rfl⟩ | ⟨hType, rfl, rfl⟩
      · rw [isSome_of_resolveOptional hLength] at hSome
        exact .lengthNotTaken hValidCount hValidLength hType hSome hOther
      · have hNone := isNone_of_resolveOptional hLength
        exact .lengthMissing hValidCount hType (by simpa using hNone.symm)
    · cases hPure
  · intro h
    cases h with
    | count hCount hRefused =>
        exact .inl (resolveOptional_eq_error_iff.mpr ⟨_, hCount, hRefused⟩)
    | length hCount hLength hRefused =>
        obtain ⟨count, hResolved⟩ := exists_resolveOptional_iff.mpr hCount
        exact .inr ⟨count, hResolved,
          .inl (resolveOptional_eq_error_iff.mpr ⟨_, hLength, hRefused⟩)⟩
    | lengthNotTaken hCount hLength hCategory hSome hOther =>
        obtain ⟨count, hResolved⟩ := exists_resolveOptional_iff.mpr hCount
        obtain ⟨length, hBound⟩ := exists_resolveOptional_iff.mpr hLength
        rw [← isSome_of_resolveOptional hBound] at hSome
        exact .inr ⟨count, hResolved, .inr ⟨length, hBound,
          .inl (checkLength_eq_error_iff.mpr (.inl ⟨_, hCategory, hOther, hSome, rfl⟩))⟩⟩
    | lengthMissing hCount hCategory hNone =>
        obtain ⟨count, hResolved⟩ := exists_resolveOptional_iff.mpr hCount
        exact .inr ⟨count, hResolved, .inr ⟨none, by simp [hNone, resolveOptional],
          .inl (checkLength_eq_error_iff.mpr (.inr ⟨hCategory, rfl, rfl⟩))⟩⟩

/-- What becomes of the count and length of a property, wherever it is judged. It has a shape
exactly if both are in order, and the shape has what they stand for. Else the first defect is
reported, in the order count, length, type. A name dangles exactly if nothing has it, and points
forward exactly if nothing before the property does. -/
theorem resolve_settles_cardinalities (properties : List Property) (index : Nat) (p : Property) :
    ((∃ s, resolve properties index p = .ok s) ↔ p.IsValid properties index) ∧
      (∀ s, resolve properties index p = .ok s →
        s.category = p.category ∧
          Option.Rel (Cardinality.Denotes properties index) p.count s.count ∧
          Option.Rel (Cardinality.Denotes properties index) p.length s.length) ∧
      (∀ defect, resolve properties index p = .error defect ↔
        p.Refused properties index defect) ∧
      ∀ owner what target,
        (resolveBound properties index owner what (.ref target) =
            .error (.danglingReference owner target) ↔ ∀ q ∈ properties, q.name ≠ target) ∧
          (resolveBound properties index owner what (.ref target) =
            .error (.forwardReference owner target) ↔
              ∃ j, FirstNamed properties target j ∧ index ≤ j) := by
  refine ⟨exists_resolve_iff, fun s h => ?_, fun _ => resolve_eq_error_iff, fun _ _ _ =>
    ⟨resolveBound_ref_eq_dangling_iff, resolveBound_ref_eq_forward_iff⟩⟩
  obtain ⟨hCount, hLength, _, hCategory⟩ := resolve_eq_ok_iff.mp h
  exact ⟨hCategory, resolveOptional_eq_ok_iff.mp hCount, resolveOptional_eq_ok_iff.mp hLength⟩

/-- A block whose count is carried by an earlier property of the same name. -/
def namesake : Property :=
  (Property.ofType "N" .binary |>.withCount (.ref "N")).withLength (.fixed 4)

/-- A count by a later property, a length of zero, and a type that takes no length. -/
def threefold : Property :=
  (Property.ofType "S" .sid |>.withCount (.ref "T")).withLength (.fixed 0)

def repeatedNames : List Property :=
  [.ofType "N" .uint8, namesake, threefold, .ofType "T" .uint8]

/-- The first property of a name counts, and the first defect of a property. The third property has
three of them, and is refused for its count. -/
theorem resolve_settles_repeatedNames :
    repeatedNames[1]? = some namesake ∧ namesake.IsValid repeatedNames 1 ∧
      (∃ s, resolve repeatedNames 1 namesake = .ok s ∧
        Option.Rel (Cardinality.Denotes repeatedNames 1) (some (.ref "N")) s.count) ∧
      repeatedNames[2]? = some threefold ∧
      threefold.Refused repeatedNames 2 (.forwardReference "S" "T") := by
  obtain ⟨hAccepts, hShape, _, _⟩ := resolve_settles_cardinalities repeatedNames 1 namesake
  obtain ⟨_, _, hRefuses, _⟩ := resolve_settles_cardinalities repeatedNames 2 threefold
  have hResolved : resolve repeatedNames 1 namesake =
      .ok ⟨.data .binary, some (.param 0), some (.fixed 4)⟩ := by decide
  exact ⟨rfl, hAccepts.mp ⟨_, hResolved⟩, ⟨_, hResolved, (hShape _ hResolved).2.1⟩, rfl,
    (hRefuses _).mp (by decide)⟩

end Shape

end EventManifest
