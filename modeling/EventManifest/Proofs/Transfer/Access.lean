import EventManifest.Proofs.Transfer.Scope

/-!
What the slots of a template read. The promise about a parameter, the pointer and the size of its
slot are chosen one by one, but they come together in a few forms only. Hence a slot reads just what
the caller promises, and it never points to an argument that may be null. Sizes are natural numbers
here; that they fit the word of a descriptor is not claimed.
-/

namespace EventManifest

namespace NativeType

/-- The type of the elements that a parameter points to. -/
def pointee? : NativeType → Option ElementType
  | pointer element => some element
  | pointers => some .voidPointer
  | text true => some .wideChar
  | text false => some .narrowChar
  | value _ | untyped | sid | ushort | ulong => none

/-- The type of the parameter itself, as far as slots point to parameters. -/
def own? : NativeType → Option ElementType
  | value element => some element
  | pointer _ | pointers | untyped | sid | text _ => some .voidPointer
  | ushort => some .ushort
  | ulong => none

end NativeType

def Operand.product (v : Valuation) (factors : List Operand) : Nat :=
  factors.foldr (fun factor n => factor.evaluate v * n) 1

/-- The bytes of a size. Those of a string and of a SID are found in memory only. -/
def SizeExpr.bytes? (v : Valuation) : SizeExpr → Option Nat
  | scaled element factors => some (Operand.product v factors * v.elementSize element)
  | bytes operand => some (operand.evaluate v)
  | terminatedString _ _ | sid _ => none

/-- The bytes that may be read behind a parameter, where the promise counts them. -/
def Extent.readable? (v : Valuation) (element : ElementType) : Extent → Option Nat
  | single => none
  | elements factors => some (Operand.product v factors * v.elementSize element)
  | bytes factors => some (Operand.product v factors)

/-- Whether a slot has a null pointer when these arguments are null. Neither a parameter nor the
text in the place of a null string is at the null address. -/
def PointerExpr.isNull (null : Nat → Bool) : PointerExpr → Bool
  | addressOf _ => false
  | value (.arg index) => null index
  | value (.literal _) | value (.lengthArg _) => true
  | stringOrNull _ _ => false

theorem Shape.isSome_length_folded (s : Shape) : s.folded.length.isSome = s.length.isSome := by
  obtain ⟨category, count, length⟩ := s
  rcases count with _ | c | c <;> rcases length with _ | l | l <;> simp only [folded]
  split <;> rfl

namespace Transfer

/-- The forms of a property's data: what is promised about the parameter, its type, and the pointer
and the size of its slot. -/
inductive DataForm (t : Transfer) : Access → NativeType → PointerExpr → SizeExpr → Prop where
  /-- Bytes whose length is passed beside them. -/
  | measured (type : NativeType) :
      DataForm t (.bytes [.lengthArg t.index]) type (.value (.arg t.index))
        (.bytes (.lengthArg t.index))
  /-- A number, or a pointer for its own sake, which may be null. -/
  | itself (optional : Bool) {type : NativeType} (hType : type.own? = some t.elementType) :
      DataForm t ⟨optional, false, .single⟩ type (.addressOf (.arg t.index))
        (.scaled t.elementType [])
  | record :
      DataForm t .single (.pointer t.elementType) (.value (.arg t.index)) (.scaled t.elementType [])
  | array {type : NativeType} {factors : List Operand} (hType : type.pointee? = some t.elementType)
      (hFactors : factors ≠ []) :
      DataForm t (.elements factors) type (.value (.arg t.index)) (.scaled t.elementType factors)
  | sid : DataForm t .single .sid (.value (.arg t.index)) (.sid t.index)
  | terminated (wide : Bool) :
      DataForm t ⟨true, true, .single⟩ (.text wide) (.stringOrNull t.index wide)
        (.terminatedString t.index wide)
  | binary (hKind : t.kind = .binary) :
      DataForm t (.bytes t.countAndLength) .untyped (.value (.arg t.index))
        (.scaled .byte t.countAndLength)

theorem isSome_count (t : Transfer) : t.count.isSome = t.isArray := by
  simp [count, isArray]

/-- A length that is passed belongs to bytes behind a pointer. No parameter of such a property is
taken by its address. -/
theorem dataPointer_of_needsLength {t : Transfer} (h : t.needsLength = true) :
    t.dataPointer = .value (.arg t.index) := by
  cases hKind : t.kind with
  | primitive | fixedRecord | pointer | binary => simp [needsLength, hKind] at h
  | struct | sid | countedString wide | countedBinary => simp only [dataPointer, hKind]
  | string wide =>
      have hArray : t.isArray = true := by simp_all [needsLength, isPacked]
      simp [dataPointer, hKind, hArray]

/-- Every transfer has one of the forms. This is the only place where the types are gone through;
what follows goes by forms. -/
theorem dataForm (t : Transfer) :
    t.DataForm t.dataAccess t.dataTypes.1 t.dataPointer t.dataSize := by
  by_cases hNeeds : t.needsLength = true
  · rw [dataSize_of_needsLength hNeeds, dataAccess_of_needsLength hNeeds,
      dataPointer_of_needsLength hNeeds]
    exact .measured _
  · have hArray := t.isSome_count
    cases hKind : t.kind with
    | struct | countedString wide | countedBinary => simp [needsLength, hKind] at hNeeds
    | primitive =>
        simp only [dataAccess, dataTypes, dataPointer, dataSize, hKind]
        cases hCount : t.count with
        | none =>
            rw [← hArray, hCount]
            exact .itself false rfl
        | some count =>
            rw [← hArray, hCount]
            exact .array rfl (List.cons_ne_nil _ _)
    | fixedRecord =>
        simp only [dataAccess, dataTypes, dataPointer, dataSize, hKind]
        cases hCount : t.count with
        | none => exact .record
        | some count => exact .array rfl (List.cons_ne_nil _ _)
    | pointer =>
        have hElement : t.elementType = .voidPointer := by simp only [elementType, hKind]
        simp only [dataAccess, dataTypes, dataPointer, dataSize, hKind]
        cases hCount : t.count with
        | none =>
            rw [← hArray, hCount]
            exact .itself true (congrArg some hElement.symm)
        | some count =>
            rw [← hArray, hCount]
            exact .array (congrArg some hElement.symm) (List.cons_ne_nil _ _)
    | sid =>
        have hPacked : ¬ t.isPacked = true := by simpa [needsLength, hKind] using hNeeds
        simp only [dataAccess, dataTypes, dataPointer, dataSize, hKind, if_neg hPacked]
        exact .sid
    | binary =>
        have hElement : t.elementType = .byte := by simp only [elementType, hKind]
        simp only [dataAccess, dataTypes, dataPointer, dataSize, hKind, hElement]
        exact .binary hKind
    | string wide =>
        simp only [dataAccess, dataTypes, dataPointer, dataSize, hKind, if_neg hNeeds]
        by_cases hLength : t.shape.length.isSome = true
        · have hElement : (NativeType.text wide).pointee? = some t.elementType := by
            cases wide <;> simp only [elementType, hKind, NativeType.pointee?]
          have hFactors : t.countAndLength ≠ [] := by
            obtain ⟨bound, hBound⟩ := Option.isSome_iff_exists.mp hLength
            simp [countAndLength, length, hBound]
          have hNone : t.shape.length.isNone = false := by simp_all
          rw [if_pos hLength, if_pos hLength, hNone, Bool.and_false, if_neg Bool.false_ne_true]
          exact .array hElement hFactors
        · have hNone : t.shape.length.isNone = true := by simp_all
          have hOne : t.isArray = false := by simp_all [needsLength, isPacked]
          rw [if_neg hLength, if_neg hLength, hNone, hOne]
          exact .terminated wide

namespace DataForm

variable {t : Transfer} {access : Access} {type : NativeType} {pointer : PointerExpr}
  {size : SizeExpr}

/-- The size of a slot is just what may be read behind its parameter, neither less nor more. Sizes
that are found in memory are not covered. -/
theorem bytes?_eq (h : t.DataForm access type pointer size) {v : Valuation}
    (hByte : v.elementSize .byte = 1) {n : Nat}
    (hReadable : access.extent.readable? v t.elementType = some n) : size.bytes? v = some n := by
  cases h with
  | measured type =>
      rw [SizeExpr.bytes?, ← hReadable]
      simp [Access.bytes, Extent.readable?, Operand.product]
  | array hType hFactors => exact hReadable
  | binary hKind =>
      rw [SizeExpr.bytes?, hByte, Nat.mul_one]
      exact hReadable
  | itself optional hType => cases hReadable
  | record => cases hReadable
  | sid => cases hReadable
  | terminated wide => cases hReadable

/-- A promise that counts has something to count by: binary data have a length. Without it the
promise would be about no bytes at all. -/
theorem operands_ne_nil (h : t.DataForm access type pointer size)
    (hBinary : t.kind = .binary → t.shape.length.isSome = true)
    (hCounts : access.extent ≠ .single) : access.extent.operands ≠ [] := by
  cases h with
  | measured type => exact List.cons_ne_nil _ _
  | array hType hFactors => exact hFactors
  | binary hKind =>
      obtain ⟨bound, hBound⟩ := Option.isSome_iff_exists.mp (hBinary hKind)
      simp [Access.bytes, Extent.operands, countAndLength, length, hBound]
  | itself optional hType => exact absurd rfl hCounts
  | record => exact absurd rfl hCounts
  | sid => exact absurd rfl hCounts
  | terminated wide => exact absurd rfl hCounts

/-- Where one element is promised, the slot has one element, a string up to its end, or a SID. -/
theorem size_of_single (h : t.DataForm access type pointer size)
    (hSingle : access.extent = .single) :
    size = .scaled t.elementType [] ∨ (∃ index wide, size = .terminatedString index wide) ∨
      ∃ index, size = .sid index := by
  cases h with
  | measured type => cases hSingle
  | array hType hFactors => cases hSingle
  | binary hKind => cases hSingle
  | itself optional hType => exact .inl rfl
  | record => exact .inl rfl
  | terminated wide => exact .inr (.inl ⟨_, _, rfl⟩)
  | sid => exact .inr (.inr ⟨_, rfl⟩)

/-- An end of the string is promised exactly where the slot looks for one. -/
theorem zeroTerminated_iff (h : t.DataForm access type pointer size) :
    access.zeroTerminated = true ↔ ∃ index wide, size = .terminatedString index wide := by
  cases h <;> simp [Access.single, Access.elements, Access.bytes]

/-- The element of a size is what the pointer points to. Untyped memory is read by bytes. So no slot
counts in elements of a foreign size. -/
theorem pointed_of_scaled (h : t.DataForm access type pointer size) {element : ElementType}
    {factors : List Operand} (hScaled : size = .scaled element factors) :
    (∃ operand, pointer = .addressOf operand ∧ type.own? = some element) ∨
      ∃ operand, pointer = .value operand ∧
        (type.pointee? = some element ∨ type = .untyped ∧ element = .byte) := by
  cases h with
  | measured type => cases hScaled
  | sid => cases hScaled
  | terminated wide => cases hScaled
  | itself optional hType =>
      cases hScaled
      exact .inl ⟨_, rfl, hType⟩
  | record =>
      cases hScaled
      exact .inr ⟨_, rfl, .inl rfl⟩
  | array hType hFactors =>
      cases hScaled
      exact .inr ⟨_, rfl, .inl hType⟩
  | binary hKind =>
      cases hScaled
      exact .inr ⟨_, rfl, .inr ⟨rfl, rfl⟩⟩

/-- What may be null is not pointed to as it is. It is replaced before, or taken by its own
address. -/
theorem ne_value_of_optional (h : t.DataForm access type pointer size)
    (hOptional : access.optional = true) (operand : Operand) : pointer ≠ .value operand := by
  cases h <;> simp_all [Access.single, Access.elements, Access.bytes]

theorem stringOrNull_iff (h : t.DataForm access type pointer size) (index : Nat) (wide : Bool) :
    pointer = .stringOrNull index wide ↔ size = .terminatedString index wide := by
  cases h <;> simp

/-- A slot can have a null pointer only by an argument that must not be null. Optional arguments may
be null at will. -/
theorem isNull_eq_false (h : t.DataForm access type pointer size) {null : Nat → Bool}
    (hRequired : access.optional = false → null t.index = false) :
    pointer.isNull null = false := by
  cases h with
  | itself optional hType => rfl
  | terminated wide => rfl
  | measured type => exact hRequired rfl
  | record => exact hRequired rfl
  | array hType hFactors => exact hRequired rfl
  | sid => exact hRequired rfl
  | binary hKind => exact hRequired rfl

end DataForm

/-- The slot of a property's data reads what is promised about its parameter. -/
structure ReadsPromised (t : Transfer) (v : Valuation) : Prop where
  /-- The data are passed by one parameter. -/
  passed : t.parameters.filter (·.role = .data) = [t.dataParameter]
  /-- They fill the last slot of the property. -/
  slot : t.slots.getLast? = some ⟨t.index, t.dataPointer, t.dataSize, t.packingNote⟩
  /-- Where the promise counts, the slot has as many bytes. -/
  bytes : ∀ n, t.dataParameter.access.extent.readable? v t.elementType = some n →
    t.dataSize.bytes? v = some n
  /-- The promise counts by an operand at least. -/
  operands : t.dataParameter.access.extent ≠ .single →
    t.dataParameter.access.extent.operands ≠ []
  /-- Where it does not count, the slot has one element, a string or a SID. -/
  single : t.dataParameter.access.extent = .single →
    t.dataSize = .scaled t.elementType [] ∨
      (∃ index wide, t.dataSize = .terminatedString index wide) ∨ ∃ index, t.dataSize = .sid index
  terminated : t.dataParameter.access.zeroTerminated = true ↔
    ∃ index wide, t.dataSize = .terminatedString index wide
  /-- The elements of the slot are what its pointer points to. -/
  pointed : ∀ element factors, t.dataSize = .scaled element factors →
    (∃ operand, t.dataPointer = .addressOf operand ∧
      t.dataParameter.templateType.own? = some element) ∨
    ∃ operand, t.dataPointer = .value operand ∧
      (t.dataParameter.templateType.pointee? = some element ∨
        t.dataParameter.templateType = .untyped ∧ element = .byte)
  /-- An argument that may be null does not become the pointer as it is. -/
  optional : t.dataParameter.access.optional = true →
    ∀ operand, t.dataPointer ≠ .value operand
  /-- Pointer and size stand in for the same null string. -/
  standIn : ∀ index wide, t.dataPointer = .stringOrNull index wide ↔
    t.dataSize = .terminatedString index wide

/-- Each property has exactly one parameter for its data. A length is another one. -/
theorem filter_data_parameters (t : Transfer) :
    t.parameters.filter (·.role = .data) = [t.dataParameter] := by
  rw [parameters]
  split <;> rfl

/-- Resolution sees to the length of binary data. A transfer on its own would do without. -/
theorem isSome_length_of_binary {properties : List Property} {transfers : List Transfer}
    (h : ofProperties properties = .ok transfers) {t : Transfer} (ht : t ∈ transfers)
    (hKind : t.kind = .binary) : t.shape.length.isSome = true := by
  obtain ⟨i, p, s, _, hShape, rfl⟩ := exists_of_mem_ofProperties h ht
  have hCategory : s.category = .data .binary := by
    have hFolded : s.category.transferKind = .binary := by
      rw [← Shape.category_folded]
      exact hKind
    revert hFolded
    cases s.category with
    | struct => simp [Category.transferKind]
    | data inType => cases inType <;> simp [Category.transferKind]
  rw [ofShape, Shape.isSome_length_folded]
  exact (Shape.accepted_of_resolve hShape).of_binary hCategory

/-- The same for all slots of a property; the one for a length points to a parameter, which always
has an address. -/
theorem isNull_of_mem_slots {t : Transfer} {slot : Slot} (hSlot : slot ∈ t.slots)
    {null : Nat → Bool}
    (hRequired : t.dataParameter.access.optional = false → null t.index = false) :
    slot.pointer.isNull null = false := by
  rcases List.mem_append.mp hSlot with hLength | hData
  · rw [lengthSlot] at hLength
    split at hLength
    · cases List.mem_singleton.mp hLength
      rfl
    · cases hLength
  · cases List.mem_singleton.mp hData
    exact t.dataForm.isNull_eq_false hRequired

/-- Every slot of a template reads what is promised about its parameter, whatever the numbers at run
time. No slot has a null pointer, if only those arguments are null that may be. -/
theorem slots_read_promised {properties : List Property} {transfers : List Transfer}
    (h : ofProperties properties = .ok transfers) {v : Valuation}
    (hByte : v.elementSize .byte = 1) :
    (∀ t ∈ transfers, t.ReadsPromised v) ∧
      ∀ null : Nat → Bool,
        (∀ p ∈ transfers.flatMap parameters, p.role = .data → p.access.optional = false →
          null p.property = false) →
        ∀ slot ∈ layoutOf transfers, slot.pointer.isNull null = false := by
  constructor
  · intro t ht
    have hForm := t.dataForm
    have hBinary := isSome_length_of_binary h ht
    exact ⟨t.filter_data_parameters, List.getLast?_concat, fun _ => hForm.bytes?_eq hByte,
      hForm.operands_ne_nil hBinary, hForm.size_of_single, hForm.zeroTerminated_iff,
      fun _ _ => hForm.pointed_of_scaled, hForm.ne_value_of_optional, hForm.stringOrNull_iff⟩
  · intro null hNull slot hSlot
    obtain ⟨t, ht, hOwn⟩ := List.mem_flatMap.mp hSlot
    have hData := List.mem_flatMap.mpr ⟨t, ht, mem_parameters_iff.mpr (.inr rfl)⟩
    exact isNull_of_mem_slots hOwn (hNull t.dataParameter hData rfl)

/-- Data of every form, some of it counted by the first property. -/
def countedData : List Property :=
  [.ofType "Count" .uint16, .ofType "Label" .ansiString,
    .withLength (.fixed 8) (.withCount (.ref "Count") (.ofType "Names" .unicodeString)),
    .withLength (.ref "Count") (.withCount (.ref "Count") (.ofType "Blocks" .binary)),
    .ofType "Owner" .sid, .ofType "Object" .pointer, .ofType "Session" .guid,
    .withCount (.fixed 3) (.ofType "Keys" .guid),
    .withCount (.ref "Count") (.ofType "Parts" .countedBinary)]

/-- A call with a count of five and parts of forty bytes, where pointers have eight. -/
def countedCall : Valuation where
  arg _ := 5
  lengthArg _ := 40
  elementSize
    | .byte | .narrowChar => 1
    | .wideChar => 2
    | .guid => 16
    | _ => 8

/-- The label and the object may be null in such a call, and nothing else. The numbers are the bytes
that may be read, where the promise counts them. -/
theorem slots_read_promised_countedData :
    ∃ transfers, ofProperties countedData = .ok transfers ∧
      transfers.map (fun t => t.dataParameter.access.extent.readable? countedCall t.elementType) =
        [none, none, some 80, some 25, none, none, none, some 48, some 40] ∧
      (∀ t ∈ transfers, t.ReadsPromised countedCall) ∧
      ∀ slot ∈ layoutOf transfers, slot.pointer.isNull (fun i => i == 1 || i == 5) = false := by
  have hByte : countedCall.elementSize .byte = 1 := rfl
  have hRead := slots_read_promised (rfl : ofProperties countedData = .ok _) hByte
  exact ⟨_, rfl, by decide, hRead.1, hRead.2 _ (by decide)⟩

end Transfer

end EventManifest
