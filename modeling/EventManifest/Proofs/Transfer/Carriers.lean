import EventManifest.Proofs.Shape.Validity
import EventManifest.Proofs.Transfer.Access

/-!
What carries the counts and lengths of a template. A reference is settled by its name alone: it
means the first property of that name, whatever the type of that property. So the argument of any
property can become a factor of a size. The products in a template are products of integers exactly
if its references mean integers, and nothing in the planning of a template sees to that.
-/

namespace EventManifest

/-- Whole numbers, in whatever base they are shown. Truth values are not among them. -/
def InType.isInteger : InType → Bool
  | int8 | uint8 | int16 | uint16 | int32 | uint32 | int64 | uint64 | hexInt32 | hexInt64 => true
  | _ => false

def Category.isInteger : Category → Bool
  | data inType => inType.isInteger
  | struct => false

def ElementType.isInteger : ElementType → Bool
  | uint8 | uint16 | uint32 | uint64 | int8 | int16 | int32 | int64 | byte | ushort => true
  | _ => false

def NativeType.isInteger : NativeType → Bool
  | value element => element.isInteger
  | ushort | ulong => true
  | pointer _ | pointers | untyped | sid | text _ => false

/-- The operands by which a size is multiplied out. -/
def SizeExpr.factors : SizeExpr → List Operand
  | scaled _ factors => factors
  | bytes operand => [operand]
  | terminatedString _ _ | sid _ => []

namespace Property

/-- A single whole number. -/
def isScalarInteger (p : Property) : Bool :=
  p.category.isInteger && p.count.isNone

/-- Whether the size of the data is a product of what is declared. All other data have their length
passed beside them, or found in memory. -/
def hasProductSize (p : Property) : Bool :=
  match p.category.transferKind with
  | .primitive | .fixedRecord | .pointer | .binary => true
  | .string _ => p.length.isSome
  | .struct | .sid | .countedString _ | .countedBinary => false

/-- The place of a template that carries the count or the length of a property. -/
def IsCarriedAt (properties : List Property) (p : Property) (j : Nat) : Prop :=
  ∃ target, (p.count = some (.ref target) ∨ p.length = some (.ref target)) ∧
    Template.FirstNamed properties target j

end Property

namespace Template

/-- Every count or length that enters a product is carried by a single integer. -/
def CountByIntegers (properties : List Property) : Prop :=
  ∀ p ∈ properties, p.hasProductSize = true → ∀ j, p.IsCarriedAt properties j →
    ∃ carrier, properties[j]? = some carrier ∧ carrier.isScalarInteger = true

/-- A name is first had in one place. -/
theorem FirstNamed.unique {properties : List Property} {name : String} {j k : Nat}
    (hj : FirstNamed properties name j) (hk : FirstNamed properties name k) : j = k := by
  rw [← Shape.findIdx?_eq_some_iff_firstNamed] at hj hk
  exact Option.some.inj (hj.symm.trans hk)

/-- Later properties do not change what a name means, even if they have the same name. -/
theorem FirstNamed.append {properties : List Property} {name : String} {j : Nat}
    (h : FirstNamed properties name j) (more : List Property) :
    FirstNamed (properties ++ more) name j := by
  rw [← Shape.findIdx?_eq_some_iff_firstNamed] at h ⊢
  rw [List.findIdx?_append, h]
  rfl

end Template

namespace Shape

section Resolution

variable {properties : List Property} {index : Nat} {p : Property} {s : Shape}

/-- Nor do they change a shape. What was refused may be accepted with them, so only successes carry
over. -/
theorem resolve_append (h : resolve properties index p = .ok s) (more : List Property) :
    resolve (properties ++ more) index p = .ok s := by
  have hMore {cardinality : Cardinality} {bound : Bound}
      (hDenotes : cardinality.Denotes properties index bound) :
      cardinality.Denotes (properties ++ more) index bound := by
    cases hDenotes with
    | fixed hValue => exact .fixed hValue
    | ref hFirst hLess => exact .ref (hFirst.append more) hLess
  have hOptional {owner what : String} {cardinality : Option Cardinality} {bound : Option Bound}
      (hResolved : resolveOptional properties index owner what cardinality = .ok bound) :
      resolveOptional (properties ++ more) index owner what cardinality = .ok bound := by
    rw [resolveOptional_eq_ok_iff] at hResolved ⊢
    cases hResolved with
    | none => exact .none
    | some hDenotes => exact .some (hMore hDenotes)
  obtain ⟨hCount, hLength, hCheck, hCategory⟩ := resolve_eq_ok_iff.mp h
  exact resolve_eq_ok_iff.mpr ⟨hOptional hCount, hOptional hLength, hCheck, hCategory⟩

/-- A position comes from a name, and is the first place where the name is had. -/
theorem eq_param_iff_of_resolveOptional {owner what : String} {cardinality : Option Cardinality}
    {bound : Option Bound} {j : Nat}
    (h : resolveOptional properties index owner what cardinality = .ok bound) :
    bound = some (.param j) ↔
      ∃ target, cardinality = some (.ref target) ∧ Template.FirstNamed properties target j := by
  rw [resolveOptional_eq_ok_iff] at h
  cases h with
  | none => simp
  | some hDenotes =>
      cases hDenotes with
      | fixed hValue => simp
      | @ref target k hFirst hLess =>
          constructor
          · intro hParam
            cases hParam
            exact ⟨target, rfl, hFirst⟩
          · rintro ⟨_, hTarget, hSecond⟩
            cases hTarget
            rw [hFirst.unique hSecond]

/-- The positions in a shape are those that carry its count or its length. The type of the carrier
is not asked for. -/
theorem isCarriedAt_iff (h : resolve properties index p = .ok s) (j : Nat) :
    p.IsCarriedAt properties j ↔ s.count = some (.param j) ∨ s.length = some (.param j) := by
  obtain ⟨hCount, hLength, _, _⟩ := resolve_eq_ok_iff.mp h
  rw [eq_param_iff_of_resolveOptional hCount, eq_param_iff_of_resolveOptional hLength,
    ← exists_or]
  simp only [Property.IsCarriedAt, or_and_right]

end Resolution

/-- Integers take no length, so there is nothing to fold. -/
theorem folded_of_isInteger {s : Shape} (hs : s.Accepted) (hInteger : s.category.isInteger = true) :
    s.folded = s := by
  refine folded_of_not_acceptsLength hs fun inType hCategory => ?_
  rw [hCategory] at hInteger
  cases inType <;> simp_all [InType.acceptsLength, Category.isInteger, InType.isInteger]

end Shape

namespace Transfer

/-- The factors in the sizes of a property's slots and in the promises about its parameters. -/
def factors (t : Transfer) : List Operand :=
  t.slots.flatMap (·.size.factors) ++ t.parameters.flatMap (·.access.extent.operands)

/-- The promise about the data counts by the factors of their size. So an argument that enters one
of them enters both. -/
theorem DataForm.operands_eq_factors {t : Transfer} {access : Access} {type : NativeType}
    {pointer : PointerExpr} {size : SizeExpr} (h : t.DataForm access type pointer size) :
    access.extent.operands = size.factors := by
  cases h <;> rfl

theorem mem_factors_iff {t : Transfer} {operand : Operand} :
    operand ∈ t.factors ↔ operand ∈ t.dataSize.factors := by
  have hSlots : t.slots.flatMap (·.size.factors) = t.dataSize.factors := by
    rw [slots, lengthSlot]
    split <;> simp [SizeExpr.factors]
  have hParameters : t.parameters.flatMap (·.access.extent.operands) = t.dataSize.factors := by
    rw [← t.dataForm.operands_eq_factors, parameters]
    split <;> simp [dataParameter, lengthParameter, Access.single, Extent.operands]
  rw [factors, hSlots, hParameters, List.mem_append, or_self]

/-- Folding multiplies constants only, and leaves every argument where it was. -/
theorem arg_mem_countAndLength_iff {index j : Nat} {s : Shape} :
    .arg j ∈ (ofShape index s).countAndLength ↔
      s.count = some (.param j) ∨ s.length = some (.param j) := by
  have hBound {bound : Option Bound} :
      .arg j ∈ (bound.map Operand.ofBound).toList ↔ bound = some (.param j) := by
    rcases bound with _ | value | k <;> simp [Operand.ofBound, eq_comm]
  rw [countAndLength, List.mem_append, ← Shape.folded_count_eq_param_iff,
    ← Shape.folded_length_eq_param_iff]
  exact or_congr hBound hBound

section Property

variable {properties : List Property} {index : Nat} {p : Property} {s : Shape}
  (hShape : Shape.resolve properties index p = .ok s)

include hShape

/-- The kind of a transfer is that of the declared type, with a count or without. -/
theorem kind_ofShape : (ofShape index s).kind = p.category.transferKind := by
  obtain ⟨_, _, _, hCategory⟩ := Shape.resolve_eq_ok_iff.mp hShape
  rw [kind, ofShape, Shape.category_folded, hCategory]

theorem isSome_length_ofShape : (ofShape index s).shape.length.isSome = p.length.isSome := by
  obtain ⟨_, hLength, _, _⟩ := Shape.resolve_eq_ok_iff.mp hShape
  rw [ofShape, Shape.isSome_length_folded, Shape.isSome_of_resolveOptional hLength]

/-- Only strings and binary data have a length left. -/
theorem kind_of_isSome_length (h : (ofShape index s).shape.length.isSome = true) :
    (∃ wide, (ofShape index s).kind = .string wide) ∨ (ofShape index s).kind = .binary := by
  rw [ofShape, Shape.isSome_length_folded] at h
  obtain ⟨inType, hCategory, hAccepts⟩ := (Shape.accepted_of_resolve hShape).of_length h
  rw [kind, ofShape, Shape.category_folded, hCategory]
  cases inType <;> simp_all [InType.acceptsLength, Category.transferKind]

/-- A product is over all of the count and the length, as numbers, records and pointers have no
length. -/
theorem arg_mem_factors_dataSize_iff {j : Nat} :
    .arg j ∈ (ofShape index s).dataSize.factors ↔
      p.hasProductSize = true ∧ .arg j ∈ (ofShape index s).countAndLength := by
  have hTakes := kind_of_isSome_length hShape
  rw [Property.hasProductSize, ← kind_ofShape hShape, ← isSome_length_ofShape hShape]
  -- From here on only the kind and the presence of a length matter.
  generalize ofShape index s = t at hTakes ⊢
  cases hKind : t.kind with
  | primitive | fixedRecord | pointer =>
      have hNone : t.length = none := by simpa [hKind, length] using hTakes
      simp [dataSize, hKind, SizeExpr.factors, countAndLength, hNone]
  | binary => simp [dataSize, hKind, SizeExpr.factors]
  | struct | countedString wide | countedBinary => simp [dataSize, hKind, SizeExpr.factors]
  | sid =>
      simp only [dataSize, hKind]
      split <;> simp [SizeExpr.factors]
  | string wide =>
      cases hLength : t.shape.length with
      | none =>
          simp only [dataSize, hKind, hLength]
          split <;> simp [SizeExpr.factors]
      | some bound => simp [dataSize, hKind, needsLength, hLength, SizeExpr.factors]

/-- The arguments in the products of a property are those that carry its count or its length, if its
size is a product at all. -/
theorem arg_mem_factors_iff {j : Nat} :
    .arg j ∈ (ofShape index s).factors ↔
      p.hasProductSize = true ∧ p.IsCarriedAt properties j := by
  rw [mem_factors_iff, arg_mem_factors_dataSize_iff hShape, arg_mem_countAndLength_iff,
    Shape.isCarriedAt_iff hShape]

/-- Carriers come earlier. Their types play no part. -/
theorem lt_of_isCarriedAt {j : Nat} (h : p.IsCarriedAt properties j) : j < index := by
  obtain ⟨hCount, hLength, _, _⟩ := Shape.resolve_eq_ok_iff.mp hShape
  rcases (Shape.isCarriedAt_iff hShape j).mp h with hParam | hParam
  · exact Shape.lt_of_resolveOptional (hParam ▸ hCount)
  · exact Shape.lt_of_resolveOptional (hParam ▸ hLength)

end Property

/-- An integer is passed exactly where a single one is declared, in both signatures. An array of
integers is passed by a pointer. -/
theorem isInteger_dataTypes (t : Transfer) :
    t.dataTypes.1.isInteger = (t.shape.category.isInteger && t.shape.count.isNone) ∧
      t.dataTypes.2.isInteger = (t.shape.category.isInteger && t.shape.count.isNone) := by
  obtain ⟨index, category, count, length⟩ := t
  cases category with
  | struct => exact ⟨rfl, rfl⟩
  | data inType => cases inType <;> cases count <;> cases length <;> exact ⟨rfl, rfl⟩

theorem isInteger_dataTypes_ofShape {properties : List Property} {index : Nat} {p : Property}
    {s : Shape} (hShape : Shape.resolve properties index p = .ok s) :
    (ofShape index s).dataTypes.1.isInteger = p.isScalarInteger ∧
      (ofShape index s).dataTypes.2.isInteger = p.isScalarInteger := by
  obtain ⟨hCount, _, _, hCategory⟩ := Shape.resolve_eq_ok_iff.mp hShape
  have hSame : (s.category.isInteger && s.folded.count.isNone) = p.isScalarInteger := by
    rw [Property.isScalarInteger, ← hCategory, ← Shape.isNone_of_resolveOptional hCount]
    cases hInteger : s.category.isInteger with
    | false => rfl
    | true => rw [Shape.folded_of_isInteger (Shape.accepted_of_resolve hShape) hInteger]
  rw [← hSame, ← Shape.category_folded]
  exact (ofShape index s).isInteger_dataTypes

/-- A valid property can be put behind a template, and the rest travels as before. It may refer to
anything in the template. -/
theorem ofProperties_concat {properties : List Property} {transfers : List Transfer}
    (h : ofProperties properties = .ok transfers) {p : Property} {s : Shape}
    (hShape : Shape.resolve (properties ++ [p]) properties.length p = .ok s) :
    ofProperties (properties ++ [p]) = .ok (transfers ++ [ofShape properties.length s]) := by
  obtain ⟨hLength, hEach⟩ := places_of_ofProperties h
  rw [ofProperties_eq_mapM, Outcome.mapM_zipIdx_eq_ok_iff]
  refine ⟨by simp [hLength], fun i q hq => ?_⟩
  by_cases hi : i < properties.length
  · rw [List.getElem?_append_left hi] at hq
    obtain ⟨s', hs', hTransfer⟩ := hEach i q hq
    refine ⟨_, ?_, Outcome.map_eq_ok_iff.mpr ⟨s', Shape.resolve_append hs' [p], rfl⟩⟩
    rwa [List.getElem?_append_left (hLength ▸ hi)]
  · -- The only other place is the last one.
    obtain ⟨rfl, rfl⟩ : i = properties.length ∧ p = q := by
      have hLast := (List.getElem?_eq_some_iff.mp hq).1
      rw [List.length_append, List.length_singleton] at hLast
      obtain rfl : i = properties.length := by omega
      simpa using hq
    refine ⟨_, ?_, Outcome.map_eq_ok_iff.mpr ⟨s, hShape, rfl⟩⟩
    rw [← hLength, List.getElem?_concat_length]

/-- Every property that is the first of its name can carry the count of an array behind it. Its type
is not asked for. -/
theorem exists_array_carriedBy {properties : List Property} {transfers : List Transfer}
    (h : ofProperties properties = .ok transfers) {target : String} {j : Nat}
    (hFirst : Template.FirstNamed properties target j) (name : String) :
    ∃ array,
      ofProperties (properties ++ [.withCount (.ref target) (.ofType name .uint32)]) =
          .ok (transfers ++ [array]) ∧
        .arg j ∈ array.factors := by
  obtain ⟨p, hp, _⟩ := hFirst.1
  obtain ⟨hLess, _⟩ := List.getElem?_eq_some_iff.mp hp
  have hShape : Shape.resolve (properties ++ [.withCount (.ref target) (.ofType name .uint32)])
      properties.length (.withCount (.ref target) (.ofType name .uint32)) =
        .ok ⟨.data .uint32, some (.param j), none⟩ := by
    refine Shape.resolve_eq_ok_iff.mpr ⟨?_, rfl, rfl, rfl⟩
    exact Shape.resolveOptional_eq_ok_iff.mpr (.some (.ref (hFirst.append _) hLess))
  refine ⟨_, ofProperties_concat h hShape, (arg_mem_factors_iff hShape).mpr ⟨rfl, ?_⟩⟩
  exact ⟨target, .inl rfl, hFirst.append _⟩

/-- Every argument in a product is passed as an integer, to the template and to the wrapper. -/
def MultiplyIntegers (transfers : List Transfer) : Prop :=
  ∀ t ∈ transfers, ∀ j, .arg j ∈ t.factors → ∃ carrier, transfers[j]? = some carrier ∧
    carrier.dataParameter.templateType.isInteger = true ∧
    carrier.dataParameter.eventType.isInteger = true

/-- The templates whose references go by names alone. -/
structure CarriedByName (properties : List Property) (transfers : List Transfer) : Prop where
  /-- The arguments in the products of a property are those that carry its count or its length. -/
  factors : ∀ (i : Nat) (p : Property) (t : Transfer), properties[i]? = some p →
    transfers[i]? = some t →
      ∀ j, .arg j ∈ t.factors ↔ p.hasProductSize = true ∧ p.IsCarriedAt properties j
  /-- They belong to earlier properties. -/
  earlier : ∀ (i : Nat) (t : Transfer), transfers[i]? = some t → ∀ j, .arg j ∈ t.factors → j < i
  /-- Single integers are passed as integers, and nothing else is. -/
  passed : ∀ (i : Nat) (p : Property) (t : Transfer), properties[i]? = some p →
    transfers[i]? = some t →
      t.dataParameter.templateType.isInteger = p.isScalarInteger ∧
        t.dataParameter.eventType.isInteger = p.isScalarInteger
  /-- The products are over integers exactly if the names in them mean single integers. -/
  integers : MultiplyIntegers transfers ↔ Template.CountByIntegers properties
  /-- Whatever has a name can carry the count of a further array. -/
  anyCarrier : ∀ (target : String) (j : Nat), Template.FirstNamed properties target j →
    ∀ name, ∃ array,
      ofProperties (properties ++ [.withCount (.ref target) (.ofType name .uint32)]) =
          .ok (transfers ++ [array]) ∧
        .arg j ∈ array.factors

section Template

variable {properties : List Property} {transfers : List Transfer}
  (h : ofProperties properties = .ok transfers)

include h

/-- The transfer at a place comes from the property at that place. -/
theorem exists_shape {i : Nat} {p : Property} {t : Transfer} (hp : properties[i]? = some p)
    (ht : transfers[i]? = some t) :
    ∃ s, Shape.resolve properties i p = .ok s ∧ t = ofShape i s := by
  obtain ⟨s, hShape, hTransfer⟩ := (places_of_ofProperties h).2 i p hp
  exact ⟨s, hShape, Option.some.inj (ht.symm.trans hTransfer)⟩

theorem exists_property {i : Nat} {t : Transfer} (ht : transfers[i]? = some t) :
    ∃ p, properties[i]? = some p := by
  obtain ⟨hi, _⟩ := List.getElem?_eq_some_iff.mp ht
  exact ⟨_, List.getElem?_eq_getElem ((places_of_ofProperties h).1 ▸ hi)⟩

/-- Whether a property is passed as an integer can be read off its declaration. -/
theorem isInteger_dataParameter {i : Nat} {p : Property} {t : Transfer}
    (hp : properties[i]? = some p) (ht : transfers[i]? = some t) :
    t.dataParameter.templateType.isInteger = p.isScalarInteger ∧
      t.dataParameter.eventType.isInteger = p.isScalarInteger := by
  obtain ⟨s, hShape, rfl⟩ := exists_shape h hp ht
  exact isInteger_dataTypes_ofShape hShape

/-- Transfers and properties stand at the same places, so both sides speak of the same carriers.
Neither side is claimed to hold. -/
theorem multiplyIntegers_iff :
    MultiplyIntegers transfers ↔ Template.CountByIntegers properties := by
  constructor
  · intro hIntegers p hp hProduct j hCarried
    obtain ⟨i, hi⟩ := List.getElem?_of_mem hp
    obtain ⟨s, hShape, hTransfer⟩ := (places_of_ofProperties h).2 i p hi
    have hFactor := (arg_mem_factors_iff hShape).mpr ⟨hProduct, hCarried⟩
    obtain ⟨carrier, hCarrier, hInteger, _⟩ :=
      hIntegers _ (List.mem_of_getElem? hTransfer) j hFactor
    obtain ⟨q, hq⟩ := exists_property h hCarrier
    exact ⟨q, hq, (isInteger_dataParameter h hq hCarrier).1.symm.trans hInteger⟩
  · intro hIntegers t ht j hFactor
    obtain ⟨i, hi⟩ := List.getElem?_of_mem ht
    obtain ⟨p, hp⟩ := exists_property h hi
    obtain ⟨s, hShape, rfl⟩ := exists_shape h hp hi
    obtain ⟨hProduct, hCarried⟩ := (arg_mem_factors_iff hShape).mp hFactor
    obtain ⟨q, hq, hInteger⟩ := hIntegers p (List.mem_of_getElem? hp) hProduct j hCarried
    obtain ⟨_, _, hCarrier⟩ := (places_of_ofProperties h).2 j q hq
    obtain ⟨hTemplate, hEvent⟩ := isInteger_dataParameter h hq hCarrier
    exact ⟨_, hCarrier, hTemplate.trans hInteger, hEvent.trans hInteger⟩

/-- In every template that can be planned, counts and lengths are carried by whatever property has
the name. -/
theorem carriedByName_of_ofProperties : CarriedByName properties transfers where
  factors := by
    intro i p t hp ht j
    obtain ⟨s, hShape, rfl⟩ := exists_shape h hp ht
    exact arg_mem_factors_iff hShape
  earlier := by
    intro i t ht j hFactor
    obtain ⟨p, hp⟩ := exists_property h ht
    obtain ⟨s, hShape, rfl⟩ := exists_shape h hp ht
    exact lt_of_isCarriedAt hShape ((arg_mem_factors_iff hShape).mp hFactor).2
  passed := fun _ _ _ hp ht => isInteger_dataParameter h hp ht
  integers := multiplyIntegers_iff h
  anyCarrier := fun _ _ hFirst name => exists_array_carriedBy h hFirst name

end Template

/-- Numbers that are counted by a text. -/
def countedByText : List Property :=
  [.ofType "Name" .unicodeString, .withCount (.ref "Name") (.ofType "Values" .uint32)]

/-- Such a template is planned, and the size of the numbers is a multiple of the text. Nothing in
the planning refuses a carrier for its type. -/
theorem text_carries_count :
    ∃ text values, ofProperties countedByText = .ok [text, values] ∧
      values.dataSize = .scaled .uint32 [.arg 0] ∧
      values.dataParameter.access = .elements [.arg 0] ∧
      text.dataParameter.templateType = .text true ∧
      ¬ MultiplyIntegers [text, values] := by
  refine ⟨_, _, rfl, rfl, rfl, rfl, fun hIntegers => ?_⟩
  obtain ⟨_, hCarrier, hInteger, _⟩ :=
    hIntegers _ (List.mem_cons_of_mem _ (List.mem_singleton_self _)) 0 (by decide)
  cases hCarrier
  cases hInteger

/-- Texts whose number is carried by an integer and whose length by an array of weights. -/
def weightedTexts : List Property :=
  [.ofType "Size" .hexInt32, .withCount (.ref "Size") (.ofType "Weights" .double),
    .withLength (.ref "Weights") (.withCount (.ref "Size") (.ofType "Texts" .ansiString)),
    .withCount (.ref "Weights") (.ofType "Parts" .countedBinary)]

/-- The array is multiplied by in the texts, and not in the parts, whose length is passed. Only the
first property is a single integer. -/
theorem carriedByName_weightedTexts :
    ∃ transfers, ofProperties weightedTexts = .ok transfers ∧
      transfers.map (·.dataSize.factors) =
        [[], [.arg 0], [.arg 0, .arg 1], [.lengthArg 3]] ∧
      weightedTexts.map Property.isScalarInteger = [true, false, false, false] ∧
      CarriedByName weightedTexts transfers :=
  ⟨_, rfl, by decide, by decide, carriedByName_of_ofProperties rfl⟩

end Transfer

end EventManifest
