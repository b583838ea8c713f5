import EventManifest.Proofs.Template.Sharing
import EventManifest.Symbol.Parameter

/-!
Scoping of templates. Every operand of a generated expression is a constant or a parameter of the
template, a count or length is carried by an earlier property, and every parameter is used by the
slots of its own property. Whether the carrier of a count holds a number is not asked here.
-/

namespace EventManifest

namespace PointerExpr

def operands : PointerExpr → List Operand
  | addressOf operand => [operand]
  | value operand => [operand]
  | stringOrNull index _ => [.arg index]

end PointerExpr

namespace SizeExpr

def operands : SizeExpr → List Operand
  | scaled _ factors => factors
  | bytes operand => [operand]
  | terminatedString index _ => [.arg index]
  | sid index => [.arg index]

end SizeExpr

def Extent.operands : Extent → List Operand
  | single => []
  | elements factors => factors
  | bytes factors => factors

def PackingNote.operands : PackingNote → List Operand
  | chunks count => [count]
  | equalStrings count length => [count, length]
  | terminatedStrings count => [count]
  | sids count => [count]
  | structs count => [count]

/-- The operands of the bytes a slot points to. -/
def Slot.operands (s : Slot) : List Operand :=
  s.pointer.operands ++ s.size.operands

/-- The operands of what a slot tells its caller. -/
def Slot.noteOperands (s : Slot) : List Operand :=
  s.note.toList.flatMap PackingNote.operands

/-- The operand by which expressions refer to a parameter. -/
def Parameter.operand (p : Parameter) : Operand :=
  match p.role with
  | .length => .lengthArg p.property
  | .data => .arg p.property

/-- A constant, or the data of a property before a position. -/
inductive Operand.Precedes (index : Nat) : Operand → Prop where
  | literal (value : Nat) : Precedes index (.literal value)
  | arg {j : Nat} (hLess : j < index) : Precedes index (.arg j)

/-- An operand that a template with so many properties and these parameters can use. A length needs
a parameter of its own. -/
inductive Operand.InScope (count : Nat) (parameters : List Parameter) : Operand → Prop where
  | literal (value : Nat) : InScope count parameters (.literal value)
  | arg {j : Nat} (hLess : j < count) : InScope count parameters (.arg j)
  | lengthArg {p : Parameter} (hMem : p ∈ parameters) (hRole : p.role = .length) :
      InScope count parameters (.lengthArg p.property)

namespace Shape

/-- Constants stay constants, and a name becomes the position of an earlier property. Which of
several namesakes it is does not matter for the scope. -/
theorem resolveBound_eq_ok {scope : List Property} {index : Nat} {owner what : String}
    {cardinality : Cardinality} {bound : Bound}
    (h : resolveBound scope index owner what cardinality = .ok bound) :
    (∃ value, cardinality = .fixed value ∧ bound = .fixed value) ∨
      ∃ target j, cardinality = .ref target ∧ bound = .param j ∧ j < index := by
  cases resolveBound_eq_ok_iff.mp h with
  | fixed _ => exact Or.inl ⟨_, rfl, rfl⟩
  | ref _ hLess => exact Or.inr ⟨_, _, rfl, rfl, hLess⟩

/-- No count or length refers to its own property or to a later one. -/
theorem lt_of_resolveOptional {scope : List Property} {index : Nat} {owner what : String}
    {cardinality : Option Cardinality} {j : Nat}
    (h : resolveOptional scope index owner what cardinality = .ok (some (.param j))) :
    j < index := by
  cases cardinality with
  | none => cases h
  | some cardinality =>
      obtain ⟨bound, hBound, hParam⟩ := Outcome.map_eq_ok_iff.mp h
      cases hParam
      obtain ⟨_, _, hFixed⟩ | ⟨_, _, _, hParam, hLess⟩ := resolveBound_eq_ok hBound
      · cases hFixed
      · cases hParam
        exact hLess

theorem exists_param_of_resolveOptional {scope : List Property} {index : Nat}
    {owner what target : String} {bound : Option Bound}
    (h : resolveOptional scope index owner what (some (.ref target)) = .ok bound) :
    ∃ j < index, bound = some (.param j) := by
  obtain ⟨resolved, hResolved, rfl⟩ := Outcome.map_eq_ok_iff.mp h
  obtain ⟨_, hFixed, _⟩ | ⟨_, j, _, rfl, hLess⟩ := resolveBound_eq_ok hResolved
  · cases hFixed
  · exact ⟨j, hLess, rfl⟩

/-- Folding touches constants only. Positions pass through it in both directions. -/
theorem folded_count_eq_param_iff {s : Shape} {j : Nat} :
    s.folded.count = some (.param j) ↔ s.count = some (.param j) := by
  obtain ⟨category, count, length⟩ := s
  rcases count with _ | c | c <;> rcases length with _ | l | l <;> simp only [folded]
  split <;> simp

theorem folded_length_eq_param_iff {s : Shape} {j : Nat} :
    s.folded.length = some (.param j) ↔ s.length = some (.param j) := by
  obtain ⟨category, count, length⟩ := s
  rcases count with _ | c | c <;> rcases length with _ | l | l <;> simp only [folded]
  split <;> simp

end Shape

namespace Transfer

/-- The operands that a property can bring in: its own parameters, its count and its length. -/
inductive Mentions (t : Transfer) : Operand → Prop where
  | data : Mentions t (.arg t.index)
  | length (hNeeds : t.needsLength = true) : Mentions t (.lengthArg t.index)
  | factor {operand : Operand} (hMem : operand ∈ t.countAndLength) : Mentions t operand

/-- The pointer of a slot refers to the data of its own property, whatever the form is. -/
theorem operands_dataPointer (t : Transfer) : t.dataPointer.operands = [.arg t.index] := by
  cases hKind : t.kind with
  | primitive | pointer | string wide =>
      simp only [dataPointer, hKind]
      split <;> rfl
  | fixedRecord | struct | sid | countedString wide | binary | countedBinary =>
      simp only [dataPointer, hKind, PointerExpr.operands]

/-- A property has its data as a parameter, and a length only where one is needed. -/
theorem mem_parameters_iff {t : Transfer} {p : Parameter} :
    p ∈ t.parameters ↔ t.needsLength = true ∧ p = t.lengthParameter ∨ p = t.dataParameter := by
  by_cases hNeeds : t.needsLength = true <;> simp [parameters, hNeeds]

/-- Parameters know their property. -/
theorem property_of_mem_parameters {t : Transfer} {p : Parameter} (h : p ∈ t.parameters) :
    p.property = t.index := by
  rcases mem_parameters_iff.mp h with ⟨_, rfl⟩ | rfl <;> rfl

/-- A slot for a length has a parameter to be filled from. The converse fails for structures and
packed arrays, whose length goes into the size alone. -/
theorem needsLength_of_hasLengthSlot {t : Transfer} (h : t.hasLengthSlot = true) :
    t.needsLength = true := by
  cases hKind : t.kind with
  | countedString wide | countedBinary => simp [needsLength, hKind]
  | _ => simp [hasLengthSlot, hKind] at h

/-- A length that is passed is the size of the data. Count and declared length have no part in it
then. -/
theorem dataSize_of_needsLength {t : Transfer} (h : t.needsLength = true) :
    t.dataSize = .bytes (.lengthArg t.index) := by
  cases hKind : t.kind with
  | primitive | fixedRecord | pointer | binary => simp [needsLength, hKind] at h
  | struct | countedString wide | countedBinary => simp only [dataSize, hKind]
  | sid =>
      have hPacked : t.isPacked = true := by simpa [needsLength, hKind] using h
      simp only [dataSize, hKind, if_pos hPacked]
  | string wide => simp only [dataSize, hKind, if_pos h]

/-- It is also what may be read. The size and the promise agree there by the same operand. -/
theorem dataAccess_of_needsLength {t : Transfer} (h : t.needsLength = true) :
    t.dataAccess = .bytes [.lengthArg t.index] := by
  cases hKind : t.kind with
  | primitive | fixedRecord | pointer | binary => simp [needsLength, hKind] at h
  | struct | countedString wide | countedBinary => simp only [dataAccess, hKind]
  | sid =>
      have hPacked : t.isPacked = true := by simpa [needsLength, hKind] using h
      simp only [dataAccess, hKind, if_pos hPacked]
  | string wide => simp only [dataAccess, hKind, if_pos h]

section Mentions

variable {t : Transfer} {operand : Operand}

theorem Mentions.of_mem_count (h : operand ∈ t.count.toList) : t.Mentions operand :=
  .factor (List.mem_append_left _ h)

theorem Mentions.of_mem_length (hNeeds : t.needsLength = true)
    (h : operand ∈ [Operand.lengthArg t.index]) : t.Mentions operand := by
  rw [List.mem_singleton.mp h]
  exact .length hNeeds

theorem Mentions.of_mem_data (h : operand ∈ [Operand.arg t.index]) : t.Mentions operand := by
  rw [List.mem_singleton.mp h]
  exact .data

/-- A size brings in no other operands than those the property may mention. -/
theorem mentions_of_mem_dataSize (h : operand ∈ t.dataSize.operands) : t.Mentions operand := by
  by_cases hNeeds : t.needsLength = true
  · rw [dataSize_of_needsLength hNeeds] at h
    exact .of_mem_length hNeeds h
  · cases hKind : t.kind with
    | struct | countedString wide | countedBinary => simp [needsLength, hKind] at hNeeds
    | primitive | fixedRecord | pointer =>
        simp only [dataSize, hKind] at h
        exact .of_mem_count h
    | binary =>
        simp only [dataSize, hKind] at h
        exact .factor h
    | sid =>
        have hPacked : ¬ t.isPacked = true := by simpa [needsLength, hKind] using hNeeds
        simp only [dataSize, hKind, if_neg hPacked] at h
        exact .of_mem_data h
    | string wide =>
        simp only [dataSize, hKind, if_neg hNeeds] at h
        split at h
        · exact .factor h
        · exact .of_mem_data h

/-- The promise about the data has the same cases as its size. The two are separate definitions,
which is why both are gone through. -/
theorem mentions_of_mem_dataAccess (h : operand ∈ t.dataAccess.extent.operands) :
    t.Mentions operand := by
  by_cases hNeeds : t.needsLength = true
  · rw [dataAccess_of_needsLength hNeeds] at h
    exact .of_mem_length hNeeds h
  · cases hKind : t.kind with
    | struct | countedString wide | countedBinary => simp [needsLength, hKind] at hNeeds
    | primitive | fixedRecord | pointer =>
        simp only [dataAccess, hKind] at h
        split at h
        · rename_i count hCount
          exact .of_mem_count (by rwa [hCount])
        · cases h
    | binary =>
        simp only [dataAccess, hKind] at h
        exact .factor h
    | sid =>
        have hPacked : ¬ t.isPacked = true := by simpa [needsLength, hKind] using hNeeds
        simp only [dataAccess, hKind, if_neg hPacked] at h
        cases h
    | string wide =>
        simp only [dataAccess, hKind, if_neg hNeeds] at h
        split at h
        · exact .factor h
        · cases h

/-- A note tells counts and lengths, and nothing of other properties' data. -/
theorem mem_countAndLength_of_packingNote {note : PackingNote} (hNote : t.packingNote = some note)
    (h : operand ∈ note.operands) : operand ∈ t.countAndLength := by
  simp only [packingNote] at hNote
  split at hNote
  · cases hNote
  · rename_i count hCount
    have hFirst (hMem : operand ∈ [count]) : operand ∈ t.countAndLength :=
      List.mem_append_left _ (by rwa [hCount])
    cases hKind : t.kind with
    | primitive | fixedRecord | pointer | binary => simp [hKind] at hNote
    | struct | sid | countedString wide | countedBinary =>
        simp only [hKind] at hNote
        cases hNote
        exact hFirst h
    | string wide =>
        simp only [hKind] at hNote
        split at hNote
        · rename_i length hLength
          cases hNote
          rw [countAndLength, hCount, hLength]
          exact h
        · cases hNote
          exact hFirst h

/-- All that a slot is written with, its note included. -/
theorem mentions_of_mem_slots {slot : Slot} (hSlot : slot ∈ t.slots)
    (h : operand ∈ slot.operands ++ slot.noteOperands) : t.Mentions operand := by
  rcases List.mem_append.mp hSlot with hLength | hData
  · rw [lengthSlot] at hLength
    split at hLength
    · rename_i hHas
      cases List.mem_singleton.mp hLength
      exact .of_mem_length (needsLength_of_hasLengthSlot hHas) h
    · cases hLength
  · cases List.mem_singleton.mp hData
    rcases List.mem_append.mp h with hBytes | hNote
    · rcases List.mem_append.mp hBytes with hPointer | hSize
      · exact .of_mem_data (t.operands_dataPointer ▸ hPointer)
      · exact mentions_of_mem_dataSize hSize
    · obtain ⟨note, hSome, hMem⟩ := List.mem_flatMap.mp hNote
      exact .factor (mem_countAndLength_of_packingNote (Option.mem_toList.mp hSome) hMem)

/-- The promises about parameters, which stand in the signature, mention nothing else. -/
theorem mentions_of_mem_access {p : Parameter} (hp : p ∈ t.parameters)
    (h : operand ∈ p.access.extent.operands) : t.Mentions operand := by
  rcases mem_parameters_iff.mp hp with ⟨_, rfl⟩ | rfl
  · cases h
  · exact mentions_of_mem_dataAccess h

/-- A property uses each of its parameters in a slot of its own. No parameter is passed in vain. -/
theorem exists_slot_of_mem_parameters {p : Parameter} (hp : p ∈ t.parameters) :
    ∃ slot ∈ t.slots, slot.property = p.property ∧ p.operand ∈ slot.operands := by
  refine ⟨⟨t.index, t.dataPointer, t.dataSize, t.packingNote⟩,
    List.mem_append_right _ (List.mem_singleton_self _), ?_⟩
  rcases mem_parameters_iff.mp hp with ⟨hNeeds, rfl⟩ | rfl
  · refine ⟨rfl, List.mem_append_right _ ?_⟩
    rw [dataSize_of_needsLength hNeeds]
    exact List.mem_singleton_self _
  · refine ⟨rfl, List.mem_append_left _ ?_⟩
    rw [operands_dataPointer]
    exact List.mem_singleton_self _

end Mentions

section Resolved

variable {scope : List Property} {index : Nat} {owner what : String}
  {resolved folded : Option Bound}
  (hFolded : ∀ j, folded = some (.param j) ↔ resolved = some (.param j))

include hFolded

/-- What is resolved at a place precedes it, and folding keeps this. -/
theorem precedes_of_resolveOptional {cardinality : Option Cardinality}
    (hResolved : Shape.resolveOptional scope index owner what cardinality = .ok resolved)
    {operand : Operand} (h : operand ∈ (folded.map Operand.ofBound).toList) :
    operand.Precedes index := by
  obtain ⟨bound, hSome, rfl⟩ := Option.map_eq_some_iff.mp (Option.mem_toList.mp h)
  cases bound with
  | fixed value => exact .literal _
  | param j => exact .arg (Shape.lt_of_resolveOptional ((hFolded j).mp hSome ▸ hResolved))

theorem exists_arg_of_resolveOptional {target : String}
    (hResolved : Shape.resolveOptional scope index owner what (some (.ref target)) = .ok resolved) :
    ∃ j < index, folded.map Operand.ofBound = some (.arg j) := by
  obtain ⟨j, hLess, hParam⟩ := Shape.exists_param_of_resolveOptional hResolved
  refine ⟨j, hLess, ?_⟩
  rw [(hFolded j).mpr hParam]
  rfl

end Resolved

section Shape

variable {scope : List Property} {index : Nat} {p : Property} {s : Shape}
  (hShape : Shape.resolve scope index p = .ok s)

include hShape

/-- Counts and lengths come from earlier properties. Namesakes that come later are not meant. -/
theorem precedes_of_mem_countAndLength {operand : Operand}
    (h : operand ∈ (ofShape index s).countAndLength) : operand.Precedes index := by
  obtain ⟨hCount, hLength, _, _⟩ := Shape.resolve_eq_ok_iff.mp hShape
  rcases List.mem_append.mp h with hMem | hMem
  · exact precedes_of_resolveOptional (fun _ => Shape.folded_count_eq_param_iff) hCount hMem
  · exact precedes_of_resolveOptional (fun _ => Shape.folded_length_eq_param_iff) hLength hMem

/-- A count by name is left in the transfer as an argument; it is never folded away. -/
theorem exists_count_of_ref {target : String} (hRef : p.count = some (.ref target)) :
    ∃ j < index, (ofShape index s).count = some (.arg j) := by
  obtain ⟨hCount, _, _, _⟩ := Shape.resolve_eq_ok_iff.mp hShape
  rw [hRef] at hCount
  exact exists_arg_of_resolveOptional (fun _ => Shape.folded_count_eq_param_iff) hCount

/-- So is a length. -/
theorem exists_length_of_ref {target : String} (hRef : p.length = some (.ref target)) :
    ∃ j < index, (ofShape index s).length = some (.arg j) := by
  obtain ⟨_, hLength, _, _⟩ := Shape.resolve_eq_ok_iff.mp hShape
  rw [hRef] at hLength
  exact exists_arg_of_resolveOptional (fun _ => Shape.folded_length_eq_param_iff) hLength

end Shape

/-- Transfers are parallel to properties. Each carries its position, by which expressions refer to
it. -/
theorem places_of_ofProperties {properties : List Property} {transfers : List Transfer}
    (h : ofProperties properties = .ok transfers) :
    transfers.length = properties.length ∧
      ∀ i p, properties[i]? = some p →
        ∃ s, Shape.resolve properties i p = .ok s ∧ transfers[i]? = some (ofShape i s) := by
  rw [ofProperties_eq_mapM] at h
  obtain ⟨hLength, hEach⟩ := Outcome.mapM_zipIdx_eq_ok_iff.mp h
  refine ⟨hLength, fun i p hp => ?_⟩
  obtain ⟨t, ht, hOk⟩ := hEach i p hp
  obtain ⟨s, hs, rfl⟩ := Outcome.map_eq_ok_iff.mp hOk
  exact ⟨s, hs, ht⟩

/-- The same for a transfer whose place is not known. -/
theorem exists_of_mem_ofProperties {properties : List Property} {transfers : List Transfer}
    (h : ofProperties properties = .ok transfers) {t : Transfer} (ht : t ∈ transfers) :
    ∃ i p s, i < properties.length ∧ Shape.resolve properties i p = .ok s ∧ t = ofShape i s := by
  obtain ⟨hLength, hEach⟩ := places_of_ofProperties h
  obtain ⟨i, hi, rfl⟩ := List.getElem_of_mem ht
  rw [hLength] at hi
  obtain ⟨s, hs, hTransfer⟩ := hEach i _ (List.getElem?_eq_getElem hi)
  obtain ⟨_, hSame⟩ := List.getElem?_eq_some_iff.mp hTransfer
  exact ⟨i, _, s, hi, hs, hSame⟩

/-- What a property brings in is in the scope of its template. A length is in scope only where the
template has a parameter for it. -/
theorem inScope_of_mentions {properties : List Property} {transfers : List Transfer}
    (h : ofProperties properties = .ok transfers) {t : Transfer} (ht : t ∈ transfers)
    {operand : Operand} (hMentions : t.Mentions operand) :
    operand.InScope properties.length (transfers.flatMap parameters) := by
  obtain ⟨i, p, s, hi, hShape, rfl⟩ := exists_of_mem_ofProperties h ht
  cases hMentions with
  | data => exact .arg hi
  | length hNeeds =>
      have hMem := mem_parameters_iff.mpr (Or.inl ⟨hNeeds, rfl⟩)
      exact .lengthArg (List.mem_flatMap.mpr ⟨_, ht, hMem⟩) rfl
  | factor hMem =>
      cases precedes_of_mem_countAndLength hShape hMem with
      | literal value => exact .literal value
      | arg hLess => exact .arg (Nat.lt_trans hLess hi)

end Transfer

namespace Symbol

theorem length_parameterNamesFrom (seen : List String) (index : Nat)
    (properties : List (String × Bool)) :
    (parameterNamesFrom seen index properties).length = properties.length := by
  induction properties generalizing seen index with
  | nil => rfl
  | cons p properties ih =>
      rw [parameterNamesFrom, List.length_cons, ih, List.length_cons]

/-- There is a name for each property, also without transfers. -/
theorem length_parameterNames (properties : List Property) (transfers : List Transfer) :
    (parameterNames properties transfers).length = properties.length := by
  rw [parameterNames, length_parameterNamesFrom, List.length_map, List.length_zipIdx]

end Symbol

/-- The spelling of an operand, which fails where there is no name. -/
def Operand.spell? (names : List String) : Operand → Option String
  | literal value => some s!"{value}"
  | arg index => names[index]?
  | lengthArg index => names[index]?.map Symbol.lengthName

namespace Transfer

/-- The templates whose expressions are well scoped and use what they are given. -/
structure WellScoped (properties : List Property) (transfers : List Transfer) : Prop where
  /-- Slots and their notes refer to parameters of the template. -/
  slots : ∀ slot ∈ layoutOf transfers, ∀ operand ∈ slot.operands ++ slot.noteOperands,
    operand.InScope properties.length (transfers.flatMap parameters)
  /-- So do the promises about the parameters. -/
  access : ∀ p ∈ transfers.flatMap parameters, ∀ operand ∈ p.access.extent.operands,
    operand.InScope properties.length (transfers.flatMap parameters)
  /-- What a count or length names is the data of an earlier property. -/
  references : ∀ (i : Nat) (p : Property) (t : Transfer), properties[i]? = some p →
    transfers[i]? = some t →
      (∀ target, p.count = some (.ref target) → ∃ j < i, t.count = some (.arg j)) ∧
      (∀ target, p.length = some (.ref target) → ∃ j < i, t.length = some (.arg j)) ∧
      ∀ operand ∈ t.countAndLength, operand.Precedes i
  /-- Every parameter is used by a slot of its own property. -/
  used : ∀ p ∈ transfers.flatMap parameters, ∃ slot ∈ layoutOf transfers,
    slot.property = p.property ∧ p.operand ∈ slot.operands
  /-- The names of a wrapper's parameters suffice for all operands in scope. -/
  spelled : ∀ operand : Operand,
    operand.InScope properties.length (transfers.flatMap parameters) →
      operand.spell? (Symbol.parameterNames properties transfers) =
        some (operand.spell (.named (Symbol.parameterNames properties transfers)))
  /-- They suffice for the parameters themselves. -/
  named : ∀ p ∈ transfers.flatMap parameters,
    p.operand.spell? (Symbol.parameterNames properties transfers) =
      some (p.name (.named (Symbol.parameterNames properties transfers)))

/-- The parameters of a template belong to its properties. -/
theorem property_lt_of_mem_parameters {properties : List Property} {transfers : List Transfer}
    (h : ofProperties properties = .ok transfers) {p : Parameter}
    (hp : p ∈ transfers.flatMap parameters) : p.property < properties.length := by
  obtain ⟨t, ht, hMem⟩ := List.mem_flatMap.mp hp
  obtain ⟨i, _, s, hi, _, rfl⟩ := exists_of_mem_ofProperties h ht
  rw [property_of_mem_parameters hMem]
  exact hi

/-- Whatever is in scope has a name. Spelling has a default for other operands, and this shows that
it never comes to that. -/
theorem spell?_eq_some {properties : List Property} {transfers : List Transfer}
    (h : ofProperties properties = .ok transfers) {operand : Operand}
    (hScope : operand.InScope properties.length (transfers.flatMap parameters)) :
    operand.spell? (Symbol.parameterNames properties transfers) =
      some (operand.spell (.named (Symbol.parameterNames properties transfers))) := by
  have hName {j : Nat} (hj : j < properties.length) :
      (Symbol.parameterNames properties transfers)[j]? =
        some ((Symbol.parameterNames properties transfers).getD j "") := by
    rw [← Symbol.length_parameterNames properties transfers] at hj
    rw [List.getD_eq_getElem?_getD, List.getElem?_eq_getElem hj]
    rfl
  cases hScope with
  | literal value => rfl
  | arg hLess => exact hName hLess
  | lengthArg hMem _ =>
      rw [Operand.spell?, hName (property_lt_of_mem_parameters h hMem)]
      rfl

/-- Every parameter can be referred to. -/
theorem inScope_operand {properties : List Property} {transfers : List Transfer}
    (h : ofProperties properties = .ok transfers) {p : Parameter}
    (hp : p ∈ transfers.flatMap parameters) :
    p.operand.InScope properties.length (transfers.flatMap parameters) := by
  cases hRole : p.role with
  | length =>
      rw [Parameter.operand, hRole]
      exact .lengthArg hp hRole
  | data =>
      rw [Parameter.operand, hRole]
      exact .arg (property_lt_of_mem_parameters h hp)

/-- Every template that can be planned is well scoped, whatever its properties are called. That the
names differ is shown elsewhere. -/
theorem wellScoped_of_ofProperties {properties : List Property} {transfers : List Transfer}
    (h : ofProperties properties = .ok transfers) : WellScoped properties transfers where
  slots := by
    intro slot hSlot operand hMem
    obtain ⟨t, ht, hOwn⟩ := List.mem_flatMap.mp hSlot
    exact inScope_of_mentions h ht (mentions_of_mem_slots hOwn hMem)
  access := by
    intro p hp operand hMem
    obtain ⟨t, ht, hOwn⟩ := List.mem_flatMap.mp hp
    exact inScope_of_mentions h ht (mentions_of_mem_access hOwn hMem)
  references := by
    intro i p t hp ht
    obtain ⟨s, hShape, hTransfer⟩ := (places_of_ofProperties h).2 i p hp
    cases ht.symm.trans hTransfer
    exact ⟨fun _ => exists_count_of_ref hShape, fun _ => exists_length_of_ref hShape,
      fun _ => precedes_of_mem_countAndLength hShape⟩
  used := by
    intro p hp
    obtain ⟨t, ht, hOwn⟩ := List.mem_flatMap.mp hp
    obtain ⟨slot, hSlot, hUsed⟩ := exists_slot_of_mem_parameters hOwn
    exact ⟨slot, List.mem_flatMap.mpr ⟨t, ht, hSlot⟩, hUsed⟩
  spelled := fun _ hScope => spell?_eq_some h hScope
  named := by
    intro p hp
    rw [spell?_eq_some h (inScope_operand h hp)]
    cases hRole : p.role <;> simp only [Parameter.operand, Parameter.name, hRole, Operand.spell]

/-- Two properties of one name, which an array of counted strings and a block of bytes refer to. -/
def sharedCarrier : List Property :=
  [.ofType "N" .uint16, .ofType "N" .uint32,
    .withCount (.ref "N") (.ofType "Names" .countedUnicodeString),
    .withLength (.ref "N") (.withCount (.fixed 2) (.ofType "Blocks" .binary))]

/-- Both references mean the first property of the name, though the second one is nearer. The array
of strings takes a length, and the blocks do not. -/
theorem wellScoped_sharedCarrier :
    ∃ transfers, ofProperties sharedCarrier = .ok transfers ∧
      transfers.map countAndLength = [[], [], [.arg 0], [.literal 2, .arg 0]] ∧
      (transfers.flatMap parameters).map Parameter.operand =
        [.arg 0, .arg 1, .lengthArg 2, .arg 2, .arg 3] ∧
      WellScoped sharedCarrier transfers := by
  refine ⟨_, rfl, ?_, ?_, wellScoped_of_ofProperties rfl⟩
  · decide
  · decide

end Transfer

end EventManifest
