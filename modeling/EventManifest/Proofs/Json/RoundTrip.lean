import EventManifest.Proofs.Json.Printing

/-!
Codecs that lose nothing. Whatever a faithful codec has read, it writes in a form that fits the same
room and is read as the same value. How the value stood in the text does not matter: text with
escapes, arrays in place of objects and members of no interest are all written in one way.
-/

namespace EventManifest.Json

variable {α β : Type}

/-- A value that is not lost when it is written and read in some room. -/
structure Codec.Restores (c : Codec Tree α) (room : Nat) (a : α) : Prop where
  fits : (c.write a).Fits Number.IsWord room
  read_write : c.read room (Tree.ofJson (c.write a)) = .ok a

/-- What is read in some room is not lost there. -/
def Codec.Faithful (c : Codec Tree α) (room : Nat) : Prop :=
  ∀ tree a, c.read room tree = .ok a → c.Restores room a

namespace Codec

/-- Texts survive writing and reading, whatever their characters are. They need no room. -/
theorem text_restores (room : Nat) (a : String) : text.Restores room a where
  fits := .string a
  read_write := by
    have hFound := Tree.found_ofJson_string a
    simp [text, scalar, Source.found, hFound, bind, Except.bind]

theorem text_faithful (room : Nat) : text.Faithful room :=
  fun _ a _ => text_restores room a

theorem flag_restores (room : Nat) (a : Bool) : flag.Restores room a where
  fits := .bool a
  read_write := rfl

theorem flag_faithful (room : Nat) : flag.Faithful room :=
  fun _ a _ => flag_restores room a

/-- Numbers up to 64 bits survive, each in its own width. Wider ones would be read as fractions. -/
theorem natural_restores {bits n : Nat} (hBits : bits ≤ 64) (h : n < 2 ^ bits) (room : Nat) :
    (natural bits).Restores room n := by
  have hWord : (Number.natural n).IsWord :=
    Nat.lt_of_lt_of_le h (Nat.pow_le_pow_right (by decide) hBits)
  refine ⟨.number hWord, ?_⟩
  have hRead := hWord.read_numeral
  simp [natural, scalar, Source.found, Json.nat, Tree.ofJson, Tree.found, hRead, orDamaged,
    Except.map, Except.mapError, bind, Except.bind, h]

/-- A converted value survives if the conversion can be undone at this value. It need not be undone
elsewhere. -/
theorem Restores.convert {c : Codec Tree α} {forth : α → β} {back : β → α} {room : Nat} {b : β}
    (h : c.Restores room (back b)) (hBack : forth (back b) = b) :
    (c.convert forth back).Restores room b where
  fits := h.fits
  read_write := by
    have hRead := congrArg (Except.map forth) h.read_write
    rwa [Except.map, hBack] at hRead

theorem word8_restores (room : Nat) (a : UInt8) : word8.Restores room a :=
  (natural_restores (by decide) a.toNat_lt room).convert UInt8.ofNat_toNat

theorem word16_restores (room : Nat) (a : UInt16) : word16.Restores room a :=
  (natural_restores (by decide) a.toNat_lt room).convert UInt16.ofNat_toNat

theorem word32_restores (room : Nat) (a : UInt32) : word32.Restores room a :=
  (natural_restores (by decide) a.toNat_lt room).convert UInt32.ofNat_toNat

theorem word64_restores (room : Nat) (a : UInt64) : word64.Restores room a :=
  (natural_restores (by decide) a.toNat_lt room).convert UInt64.ofNat_toNat

/-- A missing value is written as null, and null is read as a missing value. -/
theorem nullable_restores_none (c : Codec Tree α) (room : Nat) : c.nullable.Restores room none where
  fits := .null
  read_write := rfl

/-- A value survives beside null if it is not itself written as null. -/
theorem Restores.nullable {c : Codec Tree α} {room : Nat} {a : α} (h : c.Restores room a)
    (hNull : c.write a ≠ .null) : c.nullable.Restores room (some a) where
  fits := h.fits
  read_write := by
    have hTree : (Tree.ofJson (c.write a)).isNull = false := by
      generalize c.write a = value at hNull
      cases value with
      | null => exact absurd rfl hNull
      | _ => rfl
    exact nullable_read_eq_ok_iff.mpr (Or.inr ⟨hTree, a, h.read_write, rfl⟩)

/-- So all values do, if none is written as null. -/
theorem Faithful.nullable {c : Codec Tree α} {room : Nat} (h : c.Faithful room)
    (hNull : ∀ a, c.write a ≠ .null) : c.nullable.Faithful room := by
  intro tree a hRead
  rcases nullable_read_eq_ok_iff.mp hRead with ⟨_, rfl⟩ | ⟨_, b, hValue, rfl⟩
  · exact nullable_restores_none c room
  · exact (h tree b hValue).nullable (hNull b)

/-- A list needs one unit of room more than its elements. -/
theorem list_restores {c : Codec Tree α} {room : Nat} {as : List α}
    (h : ∀ a ∈ as, c.Restores room a) : c.list.Restores (room + 1) as where
  fits := by
    apply Fits.array
    intro item hItem
    obtain ⟨a, ha, rfl⟩ := List.mem_map.mp hItem
    exact (h a ha).fits
  read_write := by
    have hTree : Tree.ofJson (c.list.write as) =
        .array ((as.map c.write).map Tree.ofJson) .closed := by
      rw [← ofItems_eq_map]
      rfl
    rw [list_read_eq_ok_iff, hTree, List.map_map]
    refine ⟨room, _, rfl, rfl, ?_⟩
    rw [List.forall₂_map_left_iff, List.forall₂_same]
    exact fun a ha => (h a ha).read_write

theorem Faithful.list {c : Codec Tree α} {room : Nat} (h : c.Faithful room) :
    c.list.Faithful (room + 1) := by
  intro tree as hRead
  obtain ⟨left, items, hRoom, rfl, hItems⟩ := list_read_eq_ok_iff.mp hRead
  cases hRoom
  apply list_restores
  intro a ha
  obtain ⟨item, _, hItem⟩ := Outcome.exists_of_mem_right hItems ha
  exact h item a hItem

end Codec

/-- The same for values that have been read in full, where there is no room to be kept to. -/
theorem Codec.nullable_read_write {c : Codec Json α} {room : Nat}
    (h : ∀ a, c.read room (c.write a) = .ok a) (hNull : ∀ a, (c.write a).isNull = false)
    (a : Option α) : c.nullable.read room (c.nullable.write a) = .ok a := by
  rw [nullable_read_eq_ok_iff]
  cases a with
  | none => exact Or.inl ⟨rfl, rfl⟩
  | some a => exact Or.inr ⟨hNull a, a, h a, rfl⟩

theorem fits_ofOption {write : α → Json} {room : Nat}
    (h : ∀ a, (write a).Fits Number.IsWord room) (a : Option α) :
    (ofOption write a).Fits Number.IsWord room := by
  cases a with
  | none => exact .null
  | some a => exact h a

/-! ### Fields -/

namespace Field

variable {σ : Type}

/-- A value is left out in writing only if the field has this value when it is left out. -/
def OmitsAbsent (field : Field σ) : Prop :=
  ∀ value, field.omits value = true → field.absent = some value

/-- A field that must be there is never left out. -/
theorem required_omitsAbsent (name : String) (c : Codec σ α) : (required name c).OmitsAbsent :=
  fun _ hOmits => by cases hOmits

theorem defaulted_omitsAbsent (name : String) (c : Codec σ α) (absent : α) :
    (defaulted name c absent).OmitsAbsent :=
  fun _ hOmits => by cases hOmits

/-- A field that may be missing is left out only where it has no value, which is also what it has
when it is missing. -/
theorem optional_omitsAbsent [Source σ] (name : String) (c : Codec σ α) :
    (optional name c).OmitsAbsent :=
  fun _ hOmits => congrArg some (Option.isNone_iff_eq_none.mp hOmits).symm

/-- A field whose values are not lost: those that are read, the one that it has when it is left out,
and those that are left out in writing. -/
structure Faithful (field : Field Tree) (room : Nat) : Prop where
  codec : field.codec.Faithful room
  absent : ∀ value, field.absent = some value → field.codec.Restores room value
  omits : field.OmitsAbsent

/-- A field is as faithful as its codec. No other value can come into it. -/
theorem required_faithful {c : Codec Tree α} {room : Nat} (h : c.Faithful room) (name : String) :
    (required name c).Faithful room where
  codec := h
  absent := fun _ hAbsent => by cases hAbsent
  omits := required_omitsAbsent name c

/-- The value that stands for a missing field has to survive too, since it is always written. -/
theorem defaulted_faithful {c : Codec Tree α} {room : Nat} {absent : α} (h : c.Faithful room)
    (hAbsent : c.Restores room absent) (name : String) :
    (defaulted name c absent).Faithful room where
  codec := h
  absent := fun _ hValue => Option.some.inj hValue ▸ hAbsent
  omits := defaulted_omitsAbsent name c absent

/-- A missing value survives by being left out, and null survives as a missing value. -/
theorem optional_faithful {c : Codec Tree α} {room : Nat} (h : c.Faithful room)
    (hNull : ∀ a, c.write a ≠ .null) (name : String) : (optional name c).Faithful room where
  codec := h.nullable hNull
  absent := by
    intro value hValue
    cases hValue
    exact Codec.nullable_restores_none c room
  omits := optional_omitsAbsent name c

theorem optional_text_faithful (room : Nat) (name : String) :
    (optional name (Codec.text : Codec Tree String)).Faithful room :=
  optional_faithful (Codec.text_faithful room) (fun _ h => by cases h) name

/-- A list that stands for no elements when it is left out. It is written as an empty array then. -/
theorem defaulted_list_faithful {c : Codec Tree α} {room : Nat} (h : c.Faithful room)
    (name : String) : (defaulted name c.list []).Faithful (room + 1) :=
  defaulted_faithful h.list (Codec.list_restores fun _ ha => by cases ha) name

/-- Whatever value a faithful field got from an object, it survives. -/
theorem Faithful.restores {field : Field Tree} {room : Nat} (h : field.Faithful room)
    {sources : List Tree} {value : field.Value} (hValue : field.Admits room sources value) :
    field.codec.Restores room value := by
  rcases hValue with hAbsent | ⟨source, _, hRead⟩
  · exact h.absent value hAbsent
  · exact h.codec source value hRead

end Field

/-! ### Written members -/

namespace Values

variable {σ : Type}

/-- The members are written in the order of the fields. -/
theorem members_cons {field : Field σ} {fields : List (Field σ)}
    (values : Values (field :: fields)) :
    members (field :: fields) values =
      if field.omits values.1 then members fields values.2
      else (field.name, field.codec.write values.1) :: members fields values.2 :=
  rfl

/-- No member is written that no field has the name of. -/
theorem exists_name_of_mem_members {fields : List (Field σ)} {values : Values fields}
    {member : String × Json} (h : member ∈ members fields values) :
    ∃ field ∈ fields, field.name = member.1 := by
  induction fields with
  | nil => cases h
  | cons field fields ih =>
      have hTail (h : member ∈ members fields values.2) :
          ∃ other ∈ field :: fields, other.name = member.1 := by
        obtain ⟨other, hOther, hName⟩ := ih h
        exact ⟨other, List.mem_cons_of_mem field hOther, hName⟩
      rw [members_cons] at h
      split at h
      · exact hTail h
      · rw [List.mem_cons] at h
        rcases h with rfl | h
        · exact ⟨field, List.mem_cons_self, rfl⟩
        · exact hTail h

/-- What is written for the fields fits, if each value does. Values that are left out are not asked
for. -/
theorem fits_of_mem_members {room : Nat} {fields : List (Field σ)} {values : Values fields}
    (h : All (fun field value => (field.codec.write value).Fits Number.IsWord room) fields values)
    {member : String × Json} (hMember : member ∈ members fields values) :
    member.2.Fits Number.IsWord room := by
  induction fields with
  | nil => cases hMember
  | cons field fields ih =>
      rw [members_cons] at hMember
      split at hMember
      · exact ih h.2 hMember
      · rw [List.mem_cons] at hMember
        rcases hMember with rfl | hMember
        · exact h.1
        · exact ih h.2 hMember

/-- The members that are written for the values, as something to read from. -/
def written (embed : Json → σ) (fields : List (Field σ)) (values : Values fields) :
    List (String × σ) :=
  (members fields values).map fun member => (member.1, embed member.2)

/-- Nothing is written under a foreign name. -/
theorem valuesAt_written_eq_nil {embed : Json → σ} {fields : List (Field σ)}
    {values : Values fields} {name : String} (h : name ∉ fields.map Field.name) :
    valuesAt name (written embed fields values) = [] := by
  rw [valuesAt, List.map_eq_nil_iff, List.filter_eq_nil_iff]
  intro other hOther hName
  obtain ⟨member, hMember, rfl⟩ := List.mem_map.mp hOther
  obtain ⟨field, hField, hSame⟩ := exists_name_of_mem_members hMember
  exact h (of_decide_eq_true hName ▸ hSame ▸ List.mem_map_of_mem hField)

/-- Each field finds its value among the written members. Values that were left out come back as
what stands for them. -/
theorem all_gives_written {embed : Json → σ} {room : Nat} {fields : List (Field σ)}
    {values : Values fields} (hNames : (fields.map Field.name).Nodup)
    (hOmits : ∀ field ∈ fields, field.OmitsAbsent)
    (h : All (fun field value => field.codec.read room (embed (field.codec.write value)) = .ok value)
      fields values) :
    All (fun field value => field.Gives room (written embed fields values) value) fields values := by
  induction fields with
  | nil => trivial
  | cons field fields ih =>
      rw [List.map_cons, List.nodup_cons] at hNames
      rw [List.forall_mem_cons] at hOmits
      have hTail := ih hNames.2 hOmits.2 h.2
      have hNone : valuesAt field.name (written embed fields values.2) = [] :=
        valuesAt_written_eq_nil hNames.1
      by_cases hOmitted : field.omits values.1 = true
      · have hWritten : written embed (field :: fields) values = written embed fields values.2 := by
          simp [written, members_cons, hOmitted]
        rw [hWritten]
        refine ⟨⟨none, ?_, hOmits.1 _ hOmitted⟩, hTail⟩
        rw [hNone]
        exact .unmet none
      · have hWritten : written embed (field :: fields) values =
            (field.name, embed (field.codec.write values.1)) :: written embed fields values.2 := by
          simp [written, members_cons, hOmitted]
        rw [hWritten]
        constructor
        · refine ⟨some values.1, ?_, rfl⟩
          rw [valuesAt_cons_self (field.name, embed (field.codec.write values.1)), hNone]
          exact .met h.1
        · apply hTail.imp
          intro other hOther value hGives
          have hName : field.name ≠ other.name :=
            fun hSame => hNames.1 (hSame ▸ List.mem_map_of_mem hOther)
          rwa [Field.Gives, valuesAt_cons_of_ne hName]

end Values

/-! ### Records -/

namespace Record

/-- A record is read from members that have been read in full and were written for it. The order of
the members is not used. -/
theorem gives_members {r : Record Json α} {room : Nat} {a : α} (hDistinct : r.Distinct)
    (hOmits : ∀ field ∈ r.fields, field.OmitsAbsent) (hBuild : r.build (r.parts a) = a)
    (h : Values.All
      (fun field value => field.codec.read room (field.codec.write value) = .ok value)
      r.fields (r.parts a)) :
    r.Gives room (r.members a) a := by
  have hWritten : Values.written id r.fields (r.parts a) = r.members a := List.map_id _
  have hGives : Values.All
      (fun field value => field.Gives room (Values.written id r.fields (r.parts a)) value)
      r.fields (r.parts a) := Values.all_gives_written hDistinct hOmits h
  rw [hWritten] at hGives
  exact ⟨r.parts a, hGives, hBuild⟩

/-- A record is faithful if its fields are and if its parts are what it is built from. Names of
fields must differ, or a value would be read by another field. -/
theorem codec_faithful {r : Record Tree α} {room : Nat} (hDistinct : r.Distinct)
    (hParts : ∀ values, r.parts (r.build values) = values)
    (hFields : ∀ field ∈ r.fields, field.Faithful room) : r.codec.Faithful (room + 1) := by
  intro tree a hRead
  obtain ⟨left, sources, values, hRoom, hAdmits, rfl⟩ := exists_admits_of_ofTree hDistinct hRead
  cases hRoom
  have hRestores := hAdmits.imp fun field hField _ => (hFields field hField).restores
  have hMembers : r.members (r.build values) = Values.members r.fields values := by
    rw [members, hParts]
  constructor
  · apply Fits.object
    intro member hMember
    rw [hMembers] at hMember
    exact Values.fits_of_mem_members (hRestores.imp fun _ _ _ h => h.fits) hMember
  · have hTree : Tree.ofJson (r.codec.write (r.build values)) =
        .object (Tree.ofMembers (Values.members r.fields values)) false .closed :=
      hMembers ▸ rfl
    have hOmits (field : Field Tree) (hField : field ∈ r.fields) := (hFields field hField).omits
    have hGives := Values.all_gives_written hDistinct hOmits
      (hRestores.imp fun _ _ _ h => h.read_write)
    rw [hTree, codec, ofTree_object_eq_ok_iff hDistinct]
    refine ⟨room, Values.written Tree.ofJson r.fields values, rfl, rfl, keysRead_ofMembers _, ?_,
      values, hGives, rfl⟩
    intro other hOther hUnnamed
    obtain ⟨member, hMember, rfl⟩ := List.mem_map.mp hOther
    obtain ⟨field, hField, hName⟩ := Values.exists_name_of_mem_members hMember
    exact absurd hName (hUnnamed field hField)

end Record

end EventManifest.Json
