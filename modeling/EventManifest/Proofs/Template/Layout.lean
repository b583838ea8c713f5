import EventManifest.Proofs.Plan.Limits
import EventManifest.Proofs.Transfer.Scope

/-!
The layout of a template by its properties. Each fills a row of its own: one slot for its data, and
before it one for the length of counted data that is no array. A note for the caller stands at an
array that travels as one block, and then there is no other slot in its row.
-/

namespace EventManifest

/-- Values of which an array travels as one block: structures, SIDs, strings and counted data. -/
def Category.isPackable : Category → Bool
  | .struct | .data .sid | .data .unicodeString | .data .ansiString => true
  | category => category.isCounted

namespace Property

/-- A constant count and a constant length, which are one length in total if that fits 32 bits. -/
def isFolded (p : Property) : Bool :=
  match p.count, p.length with
  | some (.fixed c), some (.fixed l) => c.toNat * l.toNat < UInt32.size
  | _, _ => false

/-- Values are counted, and the count does not go into the length. -/
def isArray (p : Property) : Bool :=
  p.count.isSome && !p.isFolded

def isPackedArray (p : Property) : Bool :=
  p.isArray && p.category.isPackable

/-- Counted data have a slot for their length only where they stand alone. An array of them is
packed by the caller instead. -/
theorem isPackedArray_of_hasLengthSlot {p : Property} (h : p.hasLengthSlot = true) :
    p.isPackedArray = false := by
  have hCount : p.count = none := by simpa using (Bool.and_eq_true_iff.mp h).2
  simp [isPackedArray, isArray, hCount]

end Property

namespace Shape

/-- A resolved count or length tells what was declared. Which name a position came from cannot be
told from the position alone. -/
theorem resolveOptional_cases {scope : List Property} {index : Nat} {owner what : String}
    {cardinality : Option Cardinality} {bound : Option Bound}
    (h : resolveOptional scope index owner what cardinality = .ok bound) :
    cardinality = none ∧ bound = none ∨
      (∃ value, cardinality = some (.fixed value) ∧ bound = some (.fixed value)) ∨
      ∃ target j, cardinality = some (.ref target) ∧ bound = some (.param j) := by
  cases cardinality with
  | none =>
      cases h
      exact Or.inl ⟨rfl, rfl⟩
  | some cardinality =>
      cases cardinality with
      | fixed value =>
          exact Or.inr (Or.inl ⟨value, rfl, (eq_fixed_iff_of_resolveOptional h).mpr rfl⟩)
      | ref target =>
          obtain ⟨j, _, hBound⟩ := exists_param_of_resolveOptional h
          exact Or.inr (Or.inr ⟨target, j, rfl, hBound⟩)

/-- Folding leaves a count exactly to the arrays. A product beyond 32 bits is not folded. -/
theorem isSome_count_folded {scope : List Property} {index : Nat} {p : Property} {s : Shape}
    (h : resolve scope index p = .ok s) : s.folded.count.isSome = p.isArray := by
  obtain ⟨hCount, hLength, _, _⟩ := resolve_eq_ok_iff.mp h
  rw [Property.isArray, Property.isFolded]
  obtain ⟨hCount, hBound⟩ | ⟨c, hCount, hBound⟩ | ⟨_, j, hCount, hBound⟩ :=
    resolveOptional_cases hCount
  · simp [folded, hCount, hBound]
  · -- A constant count goes into a length only if that is a constant too.
    obtain ⟨hLength, hBound'⟩ | ⟨l, hLength, hBound'⟩ | ⟨_, j, hLength, hBound'⟩ :=
      resolveOptional_cases hLength
    · simp [folded, hCount, hBound, hLength, hBound']
    · by_cases hFits : c.toNat * l.toNat < UInt32.size <;>
        simp [folded, hCount, hBound, hLength, hBound', hFits]
    · simp [folded, hCount, hBound, hLength, hBound']
  · simp [folded, hCount, hBound]

end Shape

/-- The slot with the 16 bits of a property's length parameter. -/
def Slot.ofLength (i : Nat) : Slot :=
  ⟨i, .addressOf (.lengthArg i), .scaled .ushort [], none⟩

namespace Transfer

/-- The slots of a property: at most one for a length, and then one for the data. There is no
property without a slot. -/
theorem slots_eq (t : Transfer) :
    t.slots = (if t.hasLengthSlot then [.ofLength t.index] else []) ++
      [⟨t.index, t.dataPointer, t.dataSize, t.packingNote⟩] := by
  rw [slots, lengthSlot]
  split <;> rfl

/-- The slots are as many as the properties are said to fill. The expected number is counted without
the slots. -/
theorem totalSlots_layoutOf (transfers : List Transfer) :
    totalSlots (layoutOf transfers) = expectedSlots transfers := by
  induction transfers with
  | nil => rfl
  | cons t transfers ih =>
      rw [totalSlots, layoutOf] at ih
      rw [totalSlots, layoutOf, List.flatMap_cons, List.length_append, length_slots, expectedSlots,
        List.foldr_cons, ← expectedSlots, ← ih]
      omega

/-- A note stands at the packed arrays only. What it says is not looked at here. -/
theorem isSome_packingNote (t : Transfer) :
    t.packingNote.isSome = (t.isArray && t.shape.category.isPackable) := by
  obtain ⟨index, category, count, length⟩ := t
  cases category with
  | struct => cases count <;> rfl
  | data inType => cases inType <;> cases count <;> cases length <;> rfl

end Transfer

/-- The slots that a property at a position has to fill. -/
structure Property.Fills (p : Property) (i : Nat) (row : List Slot) : Prop where
  /-- One slot points to the data. The length of counted data that is no array goes before it. -/
  slots : ∃ data : Slot, data.property = i ∧ data.pointer.operands = [.arg i] ∧
    row = (if p.hasLengthSlot then [.ofLength i] else []) ++ [data]
  /-- Notes are for arrays that travel as one block. -/
  note : ∀ slot ∈ row, slot.note.isSome = p.isPackedArray
  only : p.isPackedArray = true → row.length = 1

namespace Transfer

/-- The slots of one property, which depend on its shape and position alone. -/
theorem fills_slots_ofShape {scope : List Property} {i : Nat} {p : Property} {s : Shape}
    (h : Shape.resolve scope i p = .ok s) : p.Fills i (ofShape i s).slots := by
  have hRow := slots_eq (ofShape i s)
  rw [hasLengthSlot_ofShape h] at hRow
  have hNote : (ofShape i s).packingNote.isSome = p.isPackedArray := by
    obtain ⟨_, _, _, hCategory⟩ := Shape.resolve_eq_ok_iff.mp h
    rw [isSome_packingNote, isArray, ofShape, Shape.isSome_count_folded h, Shape.category_folded,
      hCategory, Property.isPackedArray]
  refine ⟨⟨_, rfl, operands_dataPointer _, hRow⟩, fun slot hSlot => ?_, fun hPacked => ?_⟩
  · rw [hRow] at hSlot
    rcases List.mem_append.mp hSlot with hLength | hData
    · split at hLength
      · rename_i hHas
        rw [List.mem_singleton.mp hLength, Property.isPackedArray_of_hasLengthSlot hHas]
        rfl
      · cases hLength
    · rw [List.mem_singleton.mp hData]
      exact hNote
  · have hHas : ¬ p.hasLengthSlot = true := fun hHas =>
      Bool.false_ne_true ((Property.isPackedArray_of_hasLengthSlot hHas).symm.trans hPacked)
    rw [hRow, if_neg hHas]
    rfl

/-- The layout of a template consists of the rows of its properties in their order, and it has as
many slots as are expected. -/
theorem layoutOf_eq_flatten_rows {properties : List Property} {transfers : List Transfer}
    (h : ofProperties properties = .ok transfers) :
    totalSlots (layoutOf transfers) = expectedSlots transfers ∧
      ∃ rows : List (List Slot), layoutOf transfers = rows.flatten ∧
        rows.length = properties.length ∧
        ∀ (i : Nat) (p : Property), properties[i]? = some p →
          ∃ row, rows[i]? = some row ∧ p.Fills i row := by
  obtain ⟨hLength, hEach⟩ := places_of_ofProperties h
  refine ⟨totalSlots_layoutOf transfers, transfers.map slots, List.flatMap_def, ?_,
    fun i p hp => ?_⟩
  · rw [List.length_map, hLength]
  · obtain ⟨s, hShape, hTransfer⟩ := hEach i p hp
    refine ⟨(ofShape i s).slots, ?_, fills_slots_ofShape hShape⟩
    rw [List.getElem?_map, hTransfer, Option.map_some]

/-- Counted data alone and in an array, strings with a total length within 32 bits and beyond them,
and a number of structures. -/
def mixedRows : List Property :=
  [.ofType "A" .countedUnicodeString, (Property.ofType "B" .countedBinary).withCount (.fixed 3),
    ((Property.ofType "C" .ansiString).withCount (.fixed 4)).withLength (.fixed 8),
    ((Property.ofType "D" .ansiString).withCount (.fixed 65536)).withLength (.fixed 65536),
    .ofType "E" .uint16, (Property.block "F").withCount (.ref "E")]

/-- The strings that are not folded have a note, and it stands alone in their row. Counted data have
two slots alone, and one in an array. -/
theorem layoutOf_eq_flatten_rows_mixedRows :
    ∃ transfers, ofProperties mixedRows = .ok transfers ∧
      (layoutOf transfers).map (fun slot => (slot.property, slot.note.isSome)) =
        [(0, false), (0, false), (1, true), (2, false), (3, true), (4, false), (5, true)] ∧
      totalSlots (layoutOf transfers) = expectedSlots transfers ∧
      ∃ rows : List (List Slot), layoutOf transfers = rows.flatten ∧
        ∃ row, rows[3]? = some row ∧ row.length = 1 := by
  obtain ⟨transfers, hTransfers⟩ : ∃ transfers, ofProperties mixedRows = .ok transfers := ⟨_, rfl⟩
  obtain ⟨hTotal, rows, hRows, _, hEach⟩ := layoutOf_eq_flatten_rows hTransfers
  obtain ⟨row, hRow, hFills⟩ := hEach 3 _ rfl
  refine ⟨transfers, hTransfers, ?_, hTotal, rows, hRows, row, hRow, hFills.only (by decide)⟩
  cases hTransfers
  rfl

end Transfer

end EventManifest
