import EventManifest.Proofs.Outcome
import EventManifest.Shape.Signature

/-!
What is known of a shape that has been resolved. The statements here say when resolution succeeds
and what it then yields; the choice among several defects is not their subject.
-/

namespace EventManifest

/-- The first place at which a property of a template has a name. -/
def Template.FirstNamed (properties : List Property) (name : String) (j : Nat) : Prop :=
  (∃ p, properties[j]? = some p ∧ p.name = name) ∧
    ∀ k < j, ∀ p, properties[k]? = some p → p.name ≠ name

theorem Property.length_eq_none_of_struct {p : Property} (h : p.category = .struct) :
    p.length = none := by
  cases p with
  | data property => cases h
  | struct name count members => rfl

namespace Cardinality

/-- What a count or length stands for at a place of a template: a constant for itself, and a name
for the first property that has it, which is an earlier one. -/
inductive Denotes (properties : List Property) (index : Nat) : Cardinality → Bound → Prop where
  | fixed {value : UInt32} (hValue : 1 ≤ value) :
      Denotes properties index (.fixed value) (.fixed value)
  | ref {target : String} {j : Nat} (hFirst : Template.FirstNamed properties target j)
      (hLess : j < index) : Denotes properties index (.ref target) (.param j)

variable {properties : List Property} {index : Nat} {bound : Bound}

/-- A constant stands for itself, at any place. Zero stands for nothing. -/
theorem denotes_fixed_iff {value : UInt32} :
    (fixed value).Denotes properties index bound ↔ value ≠ 0 ∧ bound = .fixed value := by
  have hOne : 1 ≤ value ↔ value ≠ 0 := by
    rw [UInt32.le_iff_toNat_le, ← UInt32.toNat_inj.ne]
    exact Nat.one_le_iff_ne_zero
  rw [← hOne]
  constructor
  · intro h
    cases h with
    | fixed hValue => exact ⟨hValue, rfl⟩
  · rintro ⟨hValue, rfl⟩
    exact .fixed hValue

/-- A name stands for the first property that has it, and only if that one comes earlier. A later
property of the same name is never meant. -/
theorem denotes_ref_iff {target : String} :
    (ref target).Denotes properties index bound ↔
      ∃ j, Template.FirstNamed properties target j ∧ j < index ∧ bound = .param j := by
  constructor
  · intro h
    cases h with
    | ref hFirst hLess => exact ⟨_, hFirst, hLess, rfl⟩
  · rintro ⟨j, hFirst, hLess, rfl⟩
    exact .ref hFirst hLess

end Cardinality

namespace Shape

/-- The promise of resolution about lengths: only strings and binary data have one, and binary data
always does. -/
structure Accepted (s : Shape) : Prop where
  of_length : s.length.isSome → ∃ inType : InType, s.category = .data inType ∧ inType.acceptsLength
  of_binary : s.category = .data .binary → s.length.isSome

theorem findIdx?_eq_some_iff_firstNamed {properties : List Property} {target : String}
    {j : Nat} :
    (properties.findIdx? fun p => p.name == target) = some j ↔
      Template.FirstNamed properties target j := by
  rw [List.findIdx?_eq_some_iff_getElem]
  constructor
  · rintro ⟨hj, hName, hEarlier⟩
    refine ⟨⟨_, List.getElem?_eq_getElem hj, by simpa using hName⟩, fun k hk p hp => ?_⟩
    obtain ⟨_, rfl⟩ := List.getElem?_eq_some_iff.mp hp
    simpa using hEarlier k hk
  · rintro ⟨⟨p, hp, hName⟩, hEarlier⟩
    obtain ⟨hj, rfl⟩ := List.getElem?_eq_some_iff.mp hp
    refine ⟨hj, by simpa using hName, fun k hk => ?_⟩
    simpa using hEarlier k hk _ (List.getElem?_eq_getElem (by omega))

/-- A count or length is resolved to what it stands for. The names of its owner and its role have no
part in this; they are there for the message. -/
theorem resolveBound_eq_ok_iff {scope : List Property} {index : Nat} {owner what : String}
    {cardinality : Cardinality} {bound : Bound} :
    resolveBound scope index owner what cardinality = .ok bound ↔
      cardinality.Denotes scope index bound := by
  cases cardinality with
  | fixed value =>
      rw [resolveBound, Cardinality.denotes_fixed_iff]
      split
      · rename_i hZero
        simp [hZero]
      · rename_i hSome
        simp [hSome, eq_comm]
  | ref target =>
      rw [Cardinality.denotes_ref_iff, resolveBound]
      simp only [← findIdx?_eq_some_iff_firstNamed]
      cases scope.findIdx? fun p => p.name == target with
      | none => simp
      | some position =>
          by_cases hLess : position < index
          · simp [hLess, eq_comm]
          · simp [hLess]

/-- Constants are resolved to themselves, and nothing else is resolved to a constant. In particular
the value of a counting property is never guessed. -/
theorem eq_fixed_iff_of_resolveBound {scope : List Property} {index : Nat} {owner what : String}
    {cardinality : Cardinality} {bound : Bound} {value : UInt32}
    (h : resolveBound scope index owner what cardinality = .ok bound) :
    bound = .fixed value ↔ cardinality = .fixed value := by
  cases resolveBound_eq_ok_iff.mp h <;> simp

/-- The same for a count or length that may be missing. -/
theorem eq_fixed_iff_of_resolveOptional {scope : List Property} {index : Nat}
    {owner what : String} {cardinality : Option Cardinality} {bound : Option Bound}
    {value : UInt32} (h : resolveOptional scope index owner what cardinality = .ok bound) :
    bound = some (.fixed value) ↔ cardinality = some (.fixed value) := by
  cases cardinality with
  | none =>
      cases h
      simp
  | some cardinality =>
      obtain ⟨resolved, hResolved, rfl⟩ := Outcome.map_eq_ok_iff.mp h
      simpa using eq_fixed_iff_of_resolveBound hResolved

/-- No count or length is made up, and none is lost. -/
theorem isNone_of_resolveOptional {scope : List Property} {index : Nat}
    {owner what : String} {cardinality : Option Cardinality} {bound : Option Bound}
    (h : resolveOptional scope index owner what cardinality = .ok bound) :
    bound.isNone = cardinality.isNone := by
  cases cardinality with
  | none =>
      cases h
      rfl
  | some cardinality =>
      obtain ⟨resolved, _, rfl⟩ := Outcome.map_eq_ok_iff.mp h
      rfl

/-- A shape by the three steps that lead to it. The length is checked against the type last, when
the count and the length are known to stand for something. -/
theorem resolve_eq_ok_iff {scope : List Property} {index : Nat} {p : Property} {s : Shape} :
    resolve scope index p = .ok s ↔
      resolveOptional scope index p.name "count" p.count = .ok s.count ∧
        resolveOptional scope index p.name "length" p.length = .ok s.length ∧
        checkLength p.name s.category s.length = .ok () ∧ s.category = p.category := by
  obtain ⟨category, count, length⟩ := s
  simp only [resolve, Outcome.bind_eq_ok_iff, Outcome.pure_eq_ok_iff, Shape.mk.injEq]
  constructor
  · rintro ⟨_, hCount, _, hLength, _, hCheck, rfl, rfl, rfl⟩
    exact ⟨hCount, hLength, hCheck, rfl⟩
  · rintro ⟨hCount, hLength, hCheck, rfl⟩
    exact ⟨count, hCount, length, hLength, (), hCheck, rfl, rfl, rfl⟩

/-- When a length passes the check. That of a structure is not looked at, but there is none. -/
theorem checkLength_eq_ok_iff {owner : String} {category : Category} {length : Option Bound}
    (hStruct : category = .struct → length = none) :
    checkLength owner category length = .ok () ↔
      (length.isSome → ∃ inType : InType, category = .data inType ∧ inType.acceptsLength) ∧
        (category = .data .binary → length.isSome) := by
  cases category with
  | struct => simp [checkLength, hStruct rfl]
  | data inType =>
      cases length with
      | none =>
          by_cases hBinary : inType = .binary
          · simp [checkLength, hBinary]
          · simp [checkLength, hBinary]
      | some bound => cases hAccepts : inType.acceptsLength <;> simp [checkLength, hAccepts]

/-- Resolution keeps its promise about lengths, whatever the other properties of the template
are. -/
theorem accepted_of_resolve {scope : List Property} {index : Nat} {p : Property} {s : Shape}
    (h : resolve scope index p = .ok s) : s.Accepted := by
  obtain ⟨_, hLength, hCheck, hCategory⟩ := resolve_eq_ok_iff.mp h
  have hStruct (hKind : s.category = .struct) : s.length = none := by
    rw [← Option.isNone_iff_eq_none, isNone_of_resolveOptional hLength,
      Property.length_eq_none_of_struct (hCategory ▸ hKind)]
    rfl
  obtain ⟨hTakes, hNeeds⟩ := (checkLength_eq_ok_iff hStruct).mp hCheck
  exact ⟨hTakes, hNeeds⟩

/-- The shapes of two templates are related exactly if they are so at every place. Each property is
resolved among those of its own template. -/
theorem forall₂_iff_of_resolveAll {R : Shape → Shape → Prop} {properties others : List Property}
    {shapes shapes' : List Shape} (hShapes : resolveAll properties = .ok shapes)
    (hShapes' : resolveAll others = .ok shapes') :
    List.Forall₂ R shapes shapes' ↔
      properties.length = others.length ∧
        ∀ i p q, properties[i]? = some p → others[i]? = some q →
          ∃ s t, resolve properties i p = .ok s ∧ resolve others i q = .ok t ∧ R s t :=
  Outcome.forall₂_iff_of_mapM_zipIdx hShapes hShapes'

end Shape

namespace Template

/-- A key is written exactly where all shapes resolve. It is the row of their signatures, with
nothing between them. -/
theorem keyOf_eq_ok_iff {properties : List Property} {key : String} :
    keyOf properties = .ok key ↔
      ∃ shapes, Shape.resolveAll properties = .ok shapes ∧
        String.ofList (shapes.flatMap Shape.signatureChars) = key := by
  simp only [keyOf, Outcome.bind_eq_ok_iff, Outcome.pure_eq_ok_iff]

end Template

end EventManifest
