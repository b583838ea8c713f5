import EventManifest.Proofs.Shape.Validity
import EventManifest.Proofs.Template.Sharing
import Mathlib.Data.Set.Function
import Mathlib.Logic.Equiv.Basic

/-!
Templates under other names. Names only serve to find the properties that counts and lengths refer
to, and of the types only the letters matter. So a template whose names are changed one for one, and
whose types are changed within their letters, has the same key and the same template side, or is
refused at the same place for the same cause.
-/

namespace EventManifest

/-- A count or length that refers to the same property under its other name. -/
def Cardinality.rename (ρ : String → String) : Cardinality → Cardinality
  | fixed value => fixed value
  | ref target => ref (ρ target)

/-- A property under another name. Its type may be another one of the same letter; what only serves
decoders may be anything. -/
structure Property.RenamedBy (ρ : String → String) (p q : Property) : Prop where
  name : q.name = ρ p.name
  count : q.count = p.count.map (Cardinality.rename ρ)
  length : q.length = p.length.map (Cardinality.rename ρ)
  letter : q.category.letter = p.category.letter

instance (ρ : String → String) : DecidableRel (Property.RenamedBy ρ) := fun p q =>
  decidable_of_iff
    (q.name = ρ p.name ∧ q.count = p.count.map (Cardinality.rename ρ) ∧
      q.length = p.length.map (Cardinality.rename ρ) ∧ q.category.letter = p.category.letter)
    ⟨fun ⟨hName, hCount, hLength, hLetter⟩ => ⟨hName, hCount, hLength, hLetter⟩,
      fun h => ⟨h.name, h.count, h.length, h.letter⟩⟩

/-- The names that occur in a template: those of its properties, and those to which counts and
lengths refer. -/
def Template.names (properties : List Property) : Set String :=
  {name | ∃ p ∈ properties,
    p.name = name ∨ p.count = some (.ref name) ∨ p.length = some (.ref name)}

/-- The same defect under other names. What is wrong with a cardinality may be said of another
type. -/
inductive Defect.RenamedBy (ρ : String → String) : Defect → Defect → Prop where
  | cardinality {name detail detail' : String} :
      RenamedBy ρ (.invalidCardinality name detail) (.invalidCardinality (ρ name) detail')
  | dangling {name target : String} :
      RenamedBy ρ (.danglingReference name target) (.danglingReference (ρ name) (ρ target))
  | forward {name target : String} :
      RenamedBy ρ (.forwardReference name target) (.forwardReference (ρ name) (ρ target))

/-- Renaming may change the words of a message, but not its code. -/
theorem Defect.RenamedBy.code_eq {ρ : String → String} {defect defect' : Defect}
    (h : defect.RenamedBy ρ defect') : defect'.code = defect.code := by
  cases h <;> rfl

namespace Category

/-- The letters tell structures from data, although they do not tell all types apart. -/
theorem eq_struct_iff_letter {c : Category} : c = .struct ↔ c.letter = 'v' := by
  cases c with
  | struct => decide
  | data inType => cases inType <;> decide

/-- Whether a type takes a length shows in its letter. So a change of type within a letter cannot
make a length wrong. -/
theorem acceptsLength_iff_letter {inType : InType} :
    inType.acceptsLength = true ↔ (data inType).letter ∈ ['z', 's', 'b'] := by
  cases inType <;> decide

/-- Binary data have a letter of their own. -/
theorem eq_binary_iff_letter {inType : InType} :
    inType = .binary ↔ (data inType).letter = 'b' := by
  cases inType <;> decide

end Category

namespace Shape

/-- Shapes that differ in their types only, and there only within a letter. -/
structure SameButType (s t : Shape) : Prop where
  letter : t.category.letter = s.category.letter
  count : t.count = s.count
  length : t.length = s.length

/-- What a signature tells has no part of a type but the letter. -/
theorem SameButType.fragment_eq {s t : Shape} (h : s.SameButType t) : s.fragment = t.fragment := by
  rw [fragment_eq_iff, h.letter, form, form, h.count, h.length]
  exact ⟨rfl, rfl⟩

open Outcome

section Renamed

variable {ρ : String → String} {properties others : List Property}
  (hEach : List.Forall₂ (Property.RenamedBy ρ) properties others)

include hEach

/-- A changed name is first found where the name was. Only the target has to be kept apart; other
names may fall together. -/
theorem findIdx?_renamed {target : String}
    (hTarget : ∀ p ∈ properties, ρ p.name = ρ target → p.name = target) :
    (others.findIdx? fun q => q.name == ρ target) =
      properties.findIdx? fun p => p.name == target := by
  induction hEach with
  | nil => rfl
  | @cons p q properties others hHead _ ih =>
      rw [List.forall_mem_cons] at hTarget
      have hSame : (q.name == ρ target) = (p.name == target) := by
        rw [hHead.name, Bool.eq_iff_iff, beq_iff_eq, beq_iff_eq]
        exact ⟨hTarget.1, congrArg ρ⟩
      rw [List.findIdx?_cons, List.findIdx?_cons, hSame, ih hTarget.2]

variable (hInjective : Set.InjOn ρ (Template.names properties))

include hInjective

/-- A renamed count or length stands for the same place, or is refused for the same reason under
other names. -/
theorem resolveBound_renamed (index : Nat) (owner what : String) {c : Cardinality}
    (hNames : ∀ target, c = .ref target → target ∈ Template.names properties) :
    Corresponds (Defect.RenamedBy ρ) (· = ·) (resolveBound properties index owner what c)
      (resolveBound others index (ρ owner) what (c.rename ρ)) := by
  cases c with
  | fixed value =>
      rw [Cardinality.rename, resolveBound, resolveBound]
      split
      · exact .error .cardinality
      · exact .ok rfl
  | ref target =>
      have hFound := findIdx?_renamed hEach fun p hp hSame =>
        hInjective ⟨p, hp, .inl rfl⟩ (hNames target rfl) hSame
      rw [Cardinality.rename, resolveBound, resolveBound, hFound]
      cases properties.findIdx? fun p => p.name == target with
      | none => exact .error .dangling
      | some position =>
          dsimp only
          split
          · exact .ok rfl
          · exact .error .forward

theorem resolveOptional_renamed (index : Nat) (owner what : String) {c : Option Cardinality}
    (hNames : ∀ target, c = some (.ref target) → target ∈ Template.names properties) :
    Corresponds (Defect.RenamedBy ρ) (· = ·) (resolveOptional properties index owner what c)
      (resolveOptional others index (ρ owner) what (c.map (Cardinality.rename ρ))) := by
  cases c with
  | none => exact .ok rfl
  | some c =>
      have hBound := resolveBound_renamed hEach hInjective index owner what (c := c)
        fun target hTarget => hNames target (congrArg some hTarget)
      exact hBound.map fun _ _ hSame => congrArg some hSame

end Renamed

/-- Whether a type takes a length depends on its letter. The message may name another type. -/
theorem checkLength_renamed (ρ : String → String) (owner : String) {c c' : Category}
    (hLetter : c'.letter = c.letter) (length : Option Bound) :
    Corresponds (Defect.RenamedBy ρ) (fun _ _ => True) (checkLength owner c length)
      (checkLength (ρ owner) c' length) := by
  cases c with
  | struct =>
      obtain rfl : c' = .struct := Category.eq_struct_iff_letter.mpr hLetter
      exact .ok trivial
  | data inType =>
      cases c' with
      | struct => cases Category.eq_struct_iff_letter.mpr hLetter.symm
      | data inType' =>
          have hAccepts : inType'.acceptsLength = inType.acceptsLength := by
            rw [Bool.eq_iff_iff, Category.acceptsLength_iff_letter,
              Category.acceptsLength_iff_letter, hLetter]
          have hBinary : inType' = .binary ↔ inType = .binary := by
            rw [Category.eq_binary_iff_letter, Category.eq_binary_iff_letter, hLetter]
          simp only [checkLength, hAccepts, hBinary]
          split
          · exact .error .cardinality
          · split
            · exact .error .cardinality
            · exact .ok trivial

section Renamed

variable {ρ : String → String} {properties others : List Property}
  (hEach : List.Forall₂ (Property.RenamedBy ρ) properties others)
  (hInjective : Set.InjOn ρ (Template.names properties))

include hEach hInjective

/-- One property of a renamed template. The renaming has to keep all names of the template apart,
and nothing is asked of it elsewhere. -/
theorem resolve_renamed {i : Nat} {p q : Property} (hp : properties[i]? = some p)
    (hq : others[i]? = some q) :
    Corresponds (Defect.RenamedBy ρ) SameButType (resolve properties i p) (resolve others i q) := by
  have hMem : p ∈ properties := List.mem_of_getElem? hp
  have hRenamed : p.RenamedBy ρ q := by
    obtain ⟨hi, rfl⟩ := List.getElem?_eq_some_iff.mp hp
    obtain ⟨hi', rfl⟩ := List.getElem?_eq_some_iff.mp hq
    exact hEach.get hi hi'
  simp only [resolve, hRenamed.name, hRenamed.count, hRenamed.length]
  apply (resolveOptional_renamed hEach hInjective i p.name "count"
    fun target hTarget => ⟨p, hMem, .inr (.inl hTarget)⟩).bind
  rintro count _ rfl
  apply (resolveOptional_renamed hEach hInjective i p.name "length"
    fun target hTarget => ⟨p, hMem, .inr (.inr hTarget)⟩).bind
  rintro length _ rfl
  apply (checkLength_renamed ρ p.name hRenamed.letter length).bind
  rintro _ _ _
  exact .ok ⟨hRenamed.letter, rfl, rfl⟩

/-- Where one of the templates has shapes the other has them too, and they differ in the types
only. -/
theorem exists_resolveAll_renamed {shapes : List Shape} (h : resolveAll properties = .ok shapes) :
    ∃ shapes', resolveAll others = .ok shapes' ∧ List.Forall₂ SameButType shapes shapes' := by
  have hPlace (i : Nat) (p q : Property) (hp : properties[i]? = some p) (hq : others[i]? = some q) :
      ∃ s t, resolve properties i p = .ok s ∧ resolve others i q = .ok t ∧ s.SameButType t := by
    obtain ⟨s, _, hs⟩ := (mapM_zipIdx_eq_ok_iff.mp h).2 i p hp
    obtain ⟨t, ht, hSame⟩ := (resolve_renamed hEach hInjective hp hq).exists_ok hs
    exact ⟨s, t, hs, ht, hSame⟩
  cases hOthers : resolveAll others with
  | ok shapes' =>
      exact ⟨shapes', rfl, (forall₂_iff_of_resolveAll h hOthers).mpr ⟨hEach.length_eq, hPlace⟩⟩
  | error defect =>
      obtain ⟨i, q, hq, hRefused, _⟩ := mapM_zipIdx_eq_error_iff.mp hOthers
      obtain ⟨hi, _⟩ := List.getElem?_eq_some_iff.mp hq
      have hp := List.getElem?_eq_getElem (l := properties) (hEach.length_eq.symm ▸ hi)
      obtain ⟨_, t, _, ht, _⟩ := hPlace i _ q hp hq
      rw [Nat.zero_add] at hRefused
      cases ht.symm.trans hRefused

end Renamed

end Shape

namespace Template

/-- The place of the first property that is refused, and why it is. -/
def RefusedAt (properties : List Property) (i : Nat) (defect : Defect) : Prop :=
  ∃ p, properties[i]? = some p ∧ Shape.resolve properties i p = .error defect ∧
    ∀ j < i, ∀ q, properties[j]? = some q → ∃ s, Shape.resolve properties j q = .ok s

/-- A template without a key has a first property that is refused. The properties behind it are not
looked at. -/
theorem keyOf_eq_error_iff {properties : List Property} {defect : Defect} :
    keyOf properties = .error defect ↔ ∃ i, RefusedAt properties i defect := by
  have hShapes : keyOf properties = .error defect ↔
      Shape.resolveAll properties = .error defect := by
    rw [keyOf, Outcome.bind_eq_error_iff]
    refine or_iff_left ?_
    rintro ⟨_, _, hPure⟩
    cases hPure
  rw [hShapes, Shape.resolveAll, Outcome.mapM_zipIdx_eq_error_iff]
  simp only [Nat.zero_add]
  rfl

section Renamed

variable {ρ : String → String} {properties others : List Property}
  (hEach : List.Forall₂ (Property.RenamedBy ρ) properties others)
  (hInjective : Set.InjOn ρ (names properties))

include hEach hInjective

/-- Renaming keeps the key. -/
theorem keyOf_renamed {key : String} (h : keyOf properties = .ok key) :
    keyOf others = .ok key := by
  obtain ⟨shapes, hShapes, rfl⟩ := keyOf_eq_ok_iff.mp h
  obtain ⟨shapes', hShapes', hSame⟩ :=
    Shape.exists_resolveAll_renamed hEach hInjective hShapes
  have hRow : shapes.flatMap Shape.signatureChars = shapes'.flatMap Shape.signatureChars :=
    Shape.flatMap_signatureChars_eq_iff.mpr (hSame.imp fun _ _ hType => hType.fragment_eq)
  exact keyOf_eq_ok_iff.mpr ⟨shapes', hShapes', congrArg String.ofList hRow.symm⟩

/-- Renaming keeps the place of the first defect too, and what is wrong there. -/
theorem refusedAt_renamed {i : Nat} {defect : Defect} (h : RefusedAt properties i defect) :
    ∃ defect', RefusedAt others i defect' ∧ defect.RenamedBy ρ defect' := by
  obtain ⟨p, hp, hRefused, hEarlier⟩ := h
  obtain ⟨hi, _⟩ := List.getElem?_eq_some_iff.mp hp
  have hq := List.getElem?_eq_getElem (l := others) (hEach.length_eq ▸ hi)
  obtain ⟨defect', hDefect', hKind⟩ :=
    (Shape.resolve_renamed hEach hInjective hp hq).exists_error hRefused
  refine ⟨defect', ⟨_, hq, hDefect', fun j hj q' hq' => ?_⟩, hKind⟩
  have hp' := List.getElem?_eq_getElem (l := properties) (Nat.lt_trans hj hi)
  obtain ⟨s, hs⟩ := hEarlier j hj _ hp'
  obtain ⟨t, ht, _⟩ := (Shape.resolve_renamed hEach hInjective hp' hq').exists_ok hs
  exact ⟨t, ht⟩

end Renamed

/-- Constants have no names, so the factors of a product stay. Hence the templates agree in more
than their keys. -/
theorem sameFactors_renamed {ρ : String → String} {properties others : List Property}
    (hEach : List.Forall₂ (Property.RenamedBy ρ) properties others) :
    SameFactors properties others := by
  intro i p q hp hq hSize
  obtain ⟨c, l, hCount, hLength, _⟩ := hSize
  obtain ⟨hi, rfl⟩ := List.getElem?_eq_some_iff.mp hp
  obtain ⟨hi', rfl⟩ := List.getElem?_eq_some_iff.mp hq
  have hRenamed := hEach.get hi hi'
  simp only [List.get_eq_getElem] at hRenamed
  rw [hRenamed.count, hRenamed.length, hCount, hLength]
  exact ⟨rfl, rfl⟩

/-- Neither names nor signs matter to a template. Let its names be changed one for one and its types
within their letters. Then it has the same key as before or none, as before. If it has none, the
same property is refused, with the same defect under the other names. If it has one, its plan has
the same template side: the same parameters, slots and number of slots. -/
theorem alike_of_renamed {ρ : String → String} {properties others : List Property}
    (hEach : List.Forall₂ (Property.RenamedBy ρ) properties others)
    (hInjective : Set.InjOn ρ (names properties)) :
    (∀ key, keyOf properties = .ok key ↔ keyOf others = .ok key) ∧
    (∀ defect, keyOf properties = .error defect →
      ∃ i defect', RefusedAt properties i defect ∧ RefusedAt others i defect' ∧
        keyOf others = .error defect' ∧ defect.RenamedBy ρ defect' ∧
        defect'.code = defect.code) ∧
    ∀ key, keyOf properties = .ok key →
      ∃ plan plan', TemplatePlan.ofProperties key properties = .ok plan ∧
        TemplatePlan.ofProperties key others = .ok plan' ∧
        plan.templateSide = plan'.templateSide := by
  have hRefused (defect : Defect) (h : keyOf properties = .error defect) :
      ∃ i defect', RefusedAt properties i defect ∧ RefusedAt others i defect' ∧
        keyOf others = .error defect' ∧ defect.RenamedBy ρ defect' ∧
        defect'.code = defect.code := by
    obtain ⟨i, hAt⟩ := keyOf_eq_error_iff.mp h
    obtain ⟨defect', hAt', hKind⟩ := refusedAt_renamed hEach hInjective hAt
    exact ⟨i, defect', hAt, hAt', keyOf_eq_error_iff.mpr ⟨i, hAt'⟩, hKind, hKind.code_eq⟩
  refine ⟨fun key => ⟨keyOf_renamed hEach hInjective, fun hKey' => ?_⟩, hRefused,
    fun key hKey => ?_⟩
  · cases hKey : keyOf properties with
    | ok other => rw [← hKey', keyOf_renamed hEach hInjective hKey]
    | error defect =>
        obtain ⟨_, _, _, _, hError, _⟩ := hRefused defect hKey
        cases hKey'.symm.trans hError
  · have hKey' := keyOf_renamed hEach hInjective hKey
    obtain ⟨transfers, hTransfers⟩ := ofProperties_of_keyOf hKey
    obtain ⟨transfers', hTransfers'⟩ := ofProperties_of_keyOf hKey'
    refine ⟨_, _, TemplatePlan.ofProperties_eq_ok_iff.mpr ⟨transfers, hTransfers, rfl⟩,
      TemplatePlan.ofProperties_eq_ok_iff.mpr ⟨transfers', hTransfers', rfl⟩, ?_⟩
    exact TemplatePlan.templateSide_ofTransfers_eq (exemplars_eq_of_sameFactors hKey hKey'
      hTransfers hTransfers' (sameFactors_renamed hEach))

/-- Strings and numbers, counted by the first of two properties of one name. -/
def counted (name other : String) (count number : InType) : List Property :=
  [.ofType name count, .ofType name number,
    .withLength (.fixed 8) (.withCount (.ref name) (.ofType other .unicodeString)),
    .withCount (.ref name) (.ofType "V" number)]

/-- A count by a later property. -/
def countedLate (name other : String) (number : InType) : List Property :=
  [.ofType "V" .sid, .withCount (.ref other) (.ofType name number), .ofType other number]

/-- Two names change places, and the signs of the numbers change too. The late count is refused
under its new name. -/
theorem alike_of_renamed_counted :
    List.Forall₂ (Property.RenamedBy (Equiv.swap "N" "S")) (counted "N" "S" .uint16 .int64)
        (counted "S" "N" .int16 .hexInt64) ∧
      Set.InjOn (Equiv.swap "N" "S") (names (counted "N" "S" .uint16 .int64)) ∧
      keyOf (counted "N" "S" .uint16 .int64) = .ok "hxZ8R0XR0" ∧
      keyOf (counted "S" "N" .int16 .hexInt64) = .ok "hxZ8R0XR0" ∧
      keyOf (countedLate "N" "S" .int32) = .error (.forwardReference "N" "S") ∧
      ∃ i defect, RefusedAt (countedLate "N" "S" .int32) i (.forwardReference "N" "S") ∧
        RefusedAt (countedLate "S" "N" .uint32) i defect ∧
        (Defect.forwardReference "N" "S").RenamedBy (Equiv.swap "N" "S") defect := by
  have hInjective (properties : List Property) :
      Set.InjOn (Equiv.swap "N" "S") (names properties) := (Equiv.injective _).injOn
  have hCounted : List.Forall₂ (Property.RenamedBy (Equiv.swap "N" "S"))
      (counted "N" "S" .uint16 .int64) (counted "S" "N" .int16 .hexInt64) := by decide
  have hLate : List.Forall₂ (Property.RenamedBy (Equiv.swap "N" "S"))
      (countedLate "N" "S" .int32) (countedLate "S" "N" .uint32) := by decide
  have hKey : keyOf (counted "N" "S" .uint16 .int64) = .ok "hxZ8R0XR0" := by decide
  have hError : keyOf (countedLate "N" "S" .int32) = .error (.forwardReference "N" "S") := by
    decide
  obtain ⟨i, defect, hAt, hAt', _, hDefect, _⟩ :=
    (alike_of_renamed hLate (hInjective _)).2.1 _ hError
  exact ⟨hCounted, hInjective _, hKey, ((alike_of_renamed hCounted (hInjective _)).1 _).mp hKey,
    hError, i, defect, hAt, hAt', hDefect⟩

end Template

end EventManifest
