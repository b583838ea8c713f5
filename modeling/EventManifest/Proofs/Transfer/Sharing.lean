import EventManifest.Proofs.Shape.Signature
import EventManifest.Template.Layout

/-!
Properties with equal signatures travel alike. All that a template makes of a property depends on
its type only by the letter, and on its count and length only by their form, with one exception: a
product of two constants beyond 32 bits is not folded, and then its factors show. The number of
bytes is the same even so.
-/

namespace EventManifest

namespace Category

/-- The type that stands for all types with a letter: the unsigned one among numbers. -/
def ofLetter : Char → Category
  | 'c' => .data .uint8
  | 'h' => .data .uint16
  | 'd' => .data .uint32
  | 'x' => .data .uint64
  | 'f' => .data .float
  | 'g' => .data .double
  | 't' => .data .boolean
  | 'z' => .data .unicodeString
  | 's' => .data .ansiString
  | 'w' => .data .countedUnicodeString
  | 'a' => .data .countedAnsiString
  | 'b' => .data .binary
  | 'e' => .data .countedBinary
  | 'j' => .data .guid
  | 'm' => .data .fileTime
  | 'y' => .data .systemTime
  | 'k' => .data .sid
  | 'p' => .data .pointer
  | _ => .struct

/-- A type whose values may have a length has its letter for itself. Only numbers share letters. -/
theorem ofLetter_letter_of_acceptsLength {inType : InType} (h : inType.acceptsLength) :
    ofLetter (Category.data inType).letter = .data inType := by
  cases inType with
  | unicodeString => rfl
  | ansiString => rfl
  | binary => rfl
  | _ => cases h

end Category

/-- What the template sees of a parameter. The type in the wrapper is left out. -/
def Parameter.templateSide (p : Parameter) : Nat × ParameterRole × NativeType × Access :=
  (p.property, p.role, p.templateType, p.access)

/-- What the call of a template has to match. -/
def Parameter.callSide (p : Parameter) : Nat × ParameterRole × NativeType :=
  (p.property, p.role, p.templateType)

namespace Transfer

/-- The same transfer for the type that stands for its letter. -/
def exemplar (t : Transfer) : Transfer :=
  { t with shape := { t.shape with category := .ofLetter t.shape.category.letter } }

/-- The slots of a property depend on its type by the letter alone. -/
theorem slots_exemplar (t : Transfer) : t.exemplar.slots = t.slots := by
  obtain ⟨index, category, count, length⟩ := t
  cases category with
  | struct => rfl
  | data inType => cases inType <;> rfl

/-- Only the types in the wrapper tell the types of a letter apart. The template takes all of them
alike. -/
theorem templateSide_exemplar (t : Transfer) :
    t.exemplar.parameters.map Parameter.templateSide =
      t.parameters.map Parameter.templateSide := by
  obtain ⟨index, category, count, length⟩ := t
  cases category with
  | struct => rfl
  | data inType => cases count <;> cases inType <;> rfl

end Transfer

namespace Shape

/-- A constant count and a constant length with a product that does not fit 32 bits. -/
def IsOversized (s : Shape) : Prop :=
  ∃ c l : UInt32, s.count = some (.fixed c) ∧ s.length = some (.fixed l) ∧
    UInt32.size ≤ c.toNat * l.toNat

/-- Only a product can be a constant beyond 32 bits, so the form tells it. Which factors it has is
lost. -/
theorem isOversized_iff_form {s : Shape} :
    s.IsOversized ↔ ∃ n, s.form.length = some (.constant n) ∧ UInt32.size ≤ n := by
  obtain ⟨category, count, length⟩ := s
  rcases count with _ | c | c <;> rcases length with _ | l | l <;>
    simp [IsOversized, form, Bound.form, UInt32.toNat_lt_size]

/-- Hence equal forms are oversized together. -/
theorem isOversized_iff_of_form_eq {s t : Shape} (h : s.form = t.form) :
    s.IsOversized ↔ t.IsOversized := by
  rw [isOversized_iff_form, isOversized_iff_form, h]

end Shape

/-- The count or length of a form, for constants of 32 bits. -/
def Bound.ofForm : FormBound → Bound
  | .constant value => .fixed (.ofNat value)
  | .position index => .param index

namespace Shape

theorem category_folded (s : Shape) : s.folded.category = s.category := by
  rw [folded]
  split
  · split <;> rfl
  · rfl

/-- Up to 32 bits, folding leaves just what the form tells. So shapes with equal forms are folded to
equal bounds. -/
theorem folded_of_not_isOversized {s : Shape} (h : ¬ s.IsOversized) :
    s.folded = ⟨s.category, s.form.count.map .ofForm, s.form.length.map .ofForm⟩ := by
  obtain ⟨category, count, length⟩ := s
  rcases count with _ | c | c <;> rcases length with _ | l | l <;>
    simp_all [IsOversized, folded, form, Bound.form, Bound.ofForm]

/-- A product that does not fit is left in its factors. -/
theorem folded_of_isOversized {s : Shape} (h : s.IsOversized) : s.folded = s := by
  obtain ⟨c, l, hCount, hLength, hSize⟩ := h
  simp [folded, hCount, hLength, Nat.not_lt.mpr hSize]

/-- Folding does not touch a type that takes no length. Its count alone is no product. -/
theorem folded_of_not_acceptsLength {s : Shape} (hs : s.Accepted)
    (h : ∀ inType : InType, s.category = .data inType → inType.acceptsLength = false) :
    s.folded = s := by
  have hLength : s.length = none := by
    by_contra hSome
    obtain ⟨inType, hCategory, hAccepts⟩ := hs.of_length (Option.isSome_iff_ne_none.mpr hSome)
    rw [h inType hCategory] at hAccepts
    cases hAccepts
  simp [folded, hLength]

end Shape

/-- Numbers for all that the size of a slot depends on at run time. -/
structure Valuation where
  arg : Nat → Nat
  lengthArg : Nat → Nat
  elementSize : ElementType → Nat

def Operand.evaluate (v : Valuation) : Operand → Nat
  | literal value => value
  | arg index => v.arg index
  | lengthArg index => v.lengthArg index

/-- The bytes of a scaled size: the product of its factors and the size of the element. Sizes of
other forms are kept as they are written. -/
def SizeExpr.evaluate (v : Valuation) : SizeExpr → Nat ⊕ SizeExpr
  | scaled element factors =>
      .inl (factors.foldr (fun factor n => factor.evaluate v * n) (v.elementSize element))
  | other => .inr other

/-- What a slot amounts to at run time. Notes for the caller are left out. -/
def Slot.evaluate (v : Valuation) (s : Slot) : Nat × PointerExpr × (Nat ⊕ SizeExpr) :=
  (s.property, s.pointer, s.size.evaluate v)

namespace Transfer

/-- A constant number of values of a constant length, where folding has left both. -/
def ofConstants (index : Nat) (inType : InType) (c l : UInt32) : Transfer :=
  ⟨index, .data inType, some (.fixed c), some (.fixed l)⟩

/-- Both constants go into the one slot as factors. The note may depend on them, and is left
open. -/
theorem slots_ofConstants (index : Nat) {inType : InType} (h : inType.acceptsLength)
    (c l : UInt32) :
    ∃ note, (ofConstants index inType c l).slots =
      [⟨index, .value (.arg index),
        .scaled (ofConstants index inType 0 0).elementType
          [.literal c.toNat, .literal l.toNat], note⟩] := by
  cases inType with
  | unicodeString => exact ⟨_, rfl⟩
  | ansiString => exact ⟨_, rfl⟩
  | binary => exact ⟨_, rfl⟩
  | _ => cases h

/-- The constants do not show in a call. -/
theorem callSide_ofConstants (index : Nat) {inType : InType} (h : inType.acceptsLength)
    (c l : UInt32) :
    (ofConstants index inType c l).parameters.map Parameter.callSide =
      (ofConstants index inType 0 0).parameters.map Parameter.callSide := by
  cases inType with
  | unicodeString => rfl
  | ansiString => rfl
  | binary => rfl
  | _ => cases h

/-- Where a product is not folded, an equal signature comes from an equal product of the same type.
The factors may differ. -/
theorem ofShape_of_isOversized {s t : Shape} (hs : s.Accepted) (ht : t.Accepted)
    (hFragment : s.fragment = t.fragment) (hSize : s.IsOversized) :
    ∃ (inType : InType) (c l c' l' : UInt32),
      inType.acceptsLength ∧ c.toNat * l.toNat = c'.toNat * l'.toNat ∧
        s = ⟨.data inType, some (.fixed c), some (.fixed l)⟩ ∧
        t = ⟨.data inType, some (.fixed c'), some (.fixed l')⟩ ∧
        ∀ index, ofShape index s = ofConstants index inType c l ∧
          ofShape index t = ofConstants index inType c' l' := by
  obtain ⟨hLetter, hForm⟩ := Shape.fragment_eq_iff.mp hFragment
  have hSize' := (Shape.isOversized_iff_of_form_eq hForm).mp hSize
  have hFolded := Shape.folded_of_isOversized hSize
  have hFolded' := Shape.folded_of_isOversized hSize'
  obtain ⟨c, l, hCount, hLength, _⟩ := hSize
  obtain ⟨c', l', hCount', hLength', _⟩ := hSize'
  obtain ⟨inType, hCategory, hAccepts⟩ := hs.of_length (by simp [hLength])
  obtain ⟨other, hCategory', hAccepts'⟩ := ht.of_length (by simp [hLength'])
  have hType : Category.data inType = .data other := by
    rw [← Category.ofLetter_letter_of_acceptsLength hAccepts,
      ← Category.ofLetter_letter_of_acceptsLength hAccepts', ← hCategory, ← hCategory', hLetter]
  obtain ⟨category, count, length⟩ := s
  obtain ⟨category', count', length'⟩ := t
  subst hCategory hCategory' hCount hLength hCount' hLength'
  cases hType
  refine ⟨inType, c, l, c', l', hAccepts, ?_, rfl, rfl, fun index => ⟨?_, ?_⟩⟩
  · simpa [Shape.form] using hForm
  · rw [ofShape, hFolded, ofConstants]
  · rw [ofShape, hFolded', ofConstants]

/-- Equal signatures give transfers that differ in nothing a template shows, unless a product is not
folded and has other factors. -/
theorem exemplar_ofShape_eq {s t : Shape} (hFragment : s.fragment = t.fragment)
    (hFactors : s.IsOversized → s.count = t.count ∧ s.length = t.length) (index : Nat) :
    (ofShape index s).exemplar = (ofShape index t).exemplar := by
  obtain ⟨hLetter, hForm⟩ := Shape.fragment_eq_iff.mp hFragment
  by_cases hSize : s.IsOversized
  · have hSize' := (Shape.isOversized_iff_of_form_eq hForm).mp hSize
    obtain ⟨hCount, hLength⟩ := hFactors hSize
    simp [ofShape, exemplar, Shape.folded_of_isOversized hSize,
      Shape.folded_of_isOversized hSize', hLetter, hCount, hLength]
  · have hSize' : ¬ t.IsOversized := mt (Shape.isOversized_iff_of_form_eq hForm).mpr hSize
    simp [ofShape, exemplar, Shape.folded_of_not_isOversized hSize,
      Shape.folded_of_not_isOversized hSize', hLetter, hForm]

/-- A call that fits one shape fits every shape with the same signature. The promises about its
arguments are left out, since they may have other factors. -/
theorem callSide_ofShape_eq {s t : Shape} (hs : s.Accepted) (ht : t.Accepted)
    (hFragment : s.fragment = t.fragment) (index : Nat) :
    (ofShape index s).parameters.map Parameter.callSide =
      (ofShape index t).parameters.map Parameter.callSide := by
  by_cases hSize : s.IsOversized
  · obtain ⟨inType, c, l, c', l', hAccepts, _, _, _, hTransfers⟩ :=
      ofShape_of_isOversized hs ht hFragment hSize
    rw [(hTransfers index).1, (hTransfers index).2, callSide_ofConstants index hAccepts c l,
      callSide_ofConstants index hAccepts c' l']
  · have hSides := congrArg (fun t => t.parameters.map Parameter.templateSide)
      (exemplar_ofShape_eq hFragment (fun h => absurd h hSize) index)
    simp only [templateSide_exemplar] at hSides
    have hCalls := congrArg (List.map fun side => (side.1, side.2.1, side.2.2.1)) hSides
    rw [List.map_map, List.map_map] at hCalls
    exact hCalls

/-- Equal signatures fill as many slots with as many bytes, whatever the numbers at run time.
Factors may differ, but not their products. -/
theorem evaluate_slots_ofShape_eq {s t : Shape} (hs : s.Accepted) (ht : t.Accepted)
    (hFragment : s.fragment = t.fragment) (index : Nat) (v : Valuation) :
    (ofShape index s).slots.map (Slot.evaluate v) =
      (ofShape index t).slots.map (Slot.evaluate v) := by
  by_cases hSize : s.IsOversized
  · obtain ⟨inType, c, l, c', l', hAccepts, hProduct, _, _, hTransfers⟩ :=
      ofShape_of_isOversized hs ht hFragment hSize
    obtain ⟨note, hSlots⟩ := slots_ofConstants index hAccepts c l
    obtain ⟨note', hSlots'⟩ := slots_ofConstants index hAccepts c' l'
    rw [(hTransfers index).1, (hTransfers index).2, hSlots, hSlots']
    simp [Slot.evaluate, SizeExpr.evaluate, Operand.evaluate, ← Nat.mul_assoc, hProduct]
  · rw [← slots_exemplar, ← slots_exemplar (ofShape index t),
      exemplar_ofShape_eq hFragment fun h => absurd h hSize]

end Transfer

end EventManifest
