import EventManifest.Proofs.Json.RoundTrip
import EventManifest.Proofs.Manifest.Properties
import EventManifest.Provenance

/-!
A manifest that was read is read again from its canonical form. The room for nesting is the only
obstacle: a structure is written with its list of members even where the text left the list out, so
its written form may be one level deeper than what was read. It never is in a manifest, because
properties stand at an even depth below the limit.
-/

namespace EventManifest

open Json Outcome

/-! ### Properties -/

namespace InType

/-- Every type has a name of its own. -/
theorem ofName?_name (t : InType) : ofName? t.name = some t := by
  cases t <;> decide

/-- A type is written by its name, which is read again. There are other forms that are read as the
type, but none of them is written. -/
theorem codec_read_write (room : Nat) (t : InType) : codec.read room (codec.write t) = .ok t := by
  simp [codec, ofJson, chooseVariant, ofName?_name]

end InType

namespace Cardinality

theorem codec_read_write (room : Nat) (c : Cardinality) : codec.read room (codec.write c) = .ok c := by
  cases c with
  | fixed value =>
      have hSize : value.toNat < UInt32.size := value.toNat_lt
      simp [codec, toJson, ofJson, Json.nat, hSize]
  | ref name => rfl

/-- A missing count or length is written as null. None is written as null itself. -/
theorem nullable_read_write (room : Nat) (c : Option Cardinality) :
    codec.nullable.read room (codec.nullable.write c) = .ok c := by
  apply Codec.nullable_read_write (codec_read_write room)
  intro c
  cases c <;> rfl

/-- A structure needs room for an object and a list of members, hence two units more than its
members. -/
theorem fits_toJson (room : Nat) (c : Cardinality) : c.toJson.Fits Number.IsWord room := by
  cases c with
  | fixed value =>
      exact .number (Nat.lt_trans value.toNat_lt (by decide : UInt32.size < UInt64.size))
  | ref name => exact .string name

end Cardinality

namespace Property

def kind : Property → PropertyKind
  | data _ => .data
  | struct _ _ _ => .struct

/-- The fields of a structure, with its members in their written form. -/
def writtenBlock (read : Json → Except Fault Property) :
    Record Json (String × Option Cardinality × List Property) :=
  blockRecord read fun members => .array (listToJson members)

/-- The written members besides the kind. -/
def entries (read : Json → Except Fault Property) : Property → List (String × Json)
  | data property => dataRecord.members property
  | struct name count members => (writtenBlock read).members (name, count, members)

/-- A written property begins with its kind. The other members are those of its record. -/
theorem toJson_eq (read : Json → Except Fault Property) (p : Property) :
    p.toJson = .object (("kind", .string p.kind.name) :: p.entries read) := by
  cases p with
  | data property => rfl
  | struct name count members => cases count <;> rfl

/-- No field of a property is called like the kind, so the kind is never given twice. -/
theorem ne_kind_of_mem_entries {read : Json → Except Fault Property} {p : Property}
    {entry : String × Json} (h : entry ∈ p.entries read) : entry.1 ≠ "kind" := by
  intro hKind
  cases p with
  | data property =>
      obtain ⟨field, hField, hName⟩ := Values.exists_name_of_mem_members h
      have hOther : "kind" ∉ dataRecord.fields.map Field.name := by
        simp [dataRecord, Field.required, Field.optional]
      exact hOther (hKind ▸ hName ▸ List.mem_map_of_mem hField)
  | struct name count members =>
      obtain ⟨field, hField, hName⟩ := Values.exists_name_of_mem_members h
      have hOther : "kind" ∉ (writtenBlock read).fields.map Field.name := by
        simp [writtenBlock, blockRecord, Field.required, Field.optional, Field.defaulted]
      exact hOther (hKind ▸ hName ▸ List.mem_map_of_mem hField)

theorem dataRecord_gives_members (p : DataProperty) :
    dataRecord.Gives 0 (dataRecord.members p) p := by
  have hOmits : ∀ field ∈ dataRecord.fields, field.OmitsAbsent := by
    simp [dataRecord, Field.required_omitsAbsent, Field.optional_omitsAbsent]
  apply Record.gives_members dataRecord_distinct hOmits rfl
  exact ⟨rfl, InType.codec_read_write 0 p.inType, Cardinality.nullable_read_write 0 p.count,
    Cardinality.nullable_read_write 0 p.length,
    Codec.nullable_read_write (fun _ => rfl) (fun _ => rfl) p.map, trivial⟩

theorem listToJson_eq_map (members : List Property) : listToJson members = members.map toJson := by
  induction members with
  | nil => rfl
  | cons p members ih => rw [listToJson, ih, List.map_cons]

/-- A structure comes back if its members do. This is the step for nested structures. -/
theorem writtenBlock_gives_members {read : Json → Except Fault Property} {members : List Property}
    (hRead : ∀ q ∈ members, read q.toJson = .ok q) (name : String) (count : Option Cardinality) :
    (writtenBlock read).Gives 0 ((writtenBlock read).members (name, count, members))
      (name, count, members) := by
  have hOmits : ∀ field ∈ (writtenBlock read).fields, field.OmitsAbsent := by
    simp [writtenBlock, blockRecord, Field.required_omitsAbsent, Field.optional_omitsAbsent,
      Field.defaulted_omitsAbsent]
  have hMembers : readList read (.array (listToJson members)) = .ok members := by
    rw [listToJson_eq_map, readList, mapM_eq_ok_iff, List.forall₂_map_left_iff, List.forall₂_same]
    exact hRead
  apply Record.gives_members (blockRecord_distinct _ _) hOmits rfl
  exact ⟨rfl, Cardinality.nullable_read_write 0 count, hMembers, trivial⟩

/-- The members of a structure. -/
def inner : Property → List Property
  | data _ => []
  | struct _ _ members => members

/-- A written property is interpreted as itself, if the members inside are. -/
theorem interprets_entries {read : Json → Except Fault Property} {p : Property}
    (hRead : ∀ q ∈ p.inner, read q.toJson = .ok q) :
    Interprets read p.kind (.entries (p.entries read)) p := by
  cases p with
  | data property => exact .data (dataRecord_gives_members property)
  | struct name count members => exact .struct (writtenBlock_gives_members hRead name count)

/-- A written property is an object, and the members of a structure stand inside. So each level of
structures takes room in the text. -/
theorem exists_room_of_fits (read : Json → Except Fault Property) {room : Nat} {p : Property}
    (h : p.toJson.Fits Number.IsWord room) :
    ∃ left, room = left + 1 ∧ (∀ entry ∈ p.entries read, entry.2.Fits Number.IsWord left) ∧
      ∀ q ∈ p.inner, q.toJson.Fits Number.IsWord left := by
  rw [toJson_eq read] at h
  cases h with
  | @object left _ hMembers =>
      have hEntries := (List.forall_mem_cons.mp hMembers).2
      refine ⟨left, rfl, hEntries, ?_⟩
      intro q hq
      cases p with
      | data property => cases hq
      | struct name count members =>
          have hMember : ("properties", Json.array (listToJson members)) ∈
              (struct name count members).entries read := by
            cases count <;> simp [entries, writtenBlock, blockRecord, Record.members,
              Values.members, Field.required, Field.optional, Field.defaulted]
          have hArray := hEntries _ hMember
          rw [listToJson_eq_map] at hArray
          cases hArray with
          | array hItems =>
              exact (hItems _ (List.mem_map_of_mem hq)).mono (Nat.le_succ _)

theorem valuesAt_kind_cons {σ : Type} {source : σ} {members : List (String × σ)}
    (h : ∀ member ∈ members, member.1 ≠ "kind") :
    valuesAt "kind" (("kind", source) :: members) = [source] := by
  have hNone : valuesAt "kind" members = [] := by
    rw [valuesAt, List.map_eq_nil_iff, List.filter_eq_nil_iff]
    intro member hMember hKind
    exact h member hMember (of_decide_eq_true hKind)
  rw [valuesAt_cons_self ("kind", source), hNone]

theorem besidesKind_cons {σ : Type} {source : σ} {members : List (String × σ)}
    (h : ∀ member ∈ members, member.1 ≠ "kind") :
    besidesKind (("kind", source) :: members) = members := by
  have hAll : besidesKind members = members :=
    List.filter_eq_self.mpr fun member hMember => decide_eq_true (h member hMember)
  exact hAll

/-- A written property has its kind and its entries. -/
theorem tagged_toJson (read : Json → Except Fault Property) (p : Property) :
    Tagged p.toJson p.kind (.entries (p.entries read)) := by
  have hOther : ∀ entry ∈ p.entries read, entry.1 ≠ "kind" := fun _ => ne_kind_of_mem_entries
  have hKind : PropertyKind.ofJson (.string p.kind.name) = .ok p.kind := by
    cases p <;> rfl
  have hTagged := Tagged.entries (valuesAt_kind_cons hOther ▸ Fills.met hKind)
  rwa [besidesKind_cons hOther, ← toJson_eq] at hTagged

/-- A written property is read again, given enough room. What fits in the text is also enough for
reading the structures. -/
theorem ofJson_toJson {room : Nat} {p : Property} (h : p.toJson.Fits Number.IsWord room) :
    ofJson room p.toJson = .ok p := by
  induction room generalizing p with
  | zero =>
      obtain ⟨left, hRoom, _⟩ := exists_room_of_fits (ofJson 0) h
      cases hRoom
  | succ room ih =>
      obtain ⟨left, hRoom, _, hInner⟩ := exists_room_of_fits (ofJson room) h
      cases hRoom
      rw [ofJson_eq_ok_iff]
      exact ⟨room, p.kind, _, rfl, tagged_toJson (ofJson room) p,
        interprets_entries fun q hq => ih (hInner q hq)⟩

/-- The same in a text, where the entries have to fit what is left of the room. -/
theorem treeTagged_toJson {room : Nat} {read : Json → Except Fault Property} {p : Property}
    (hFits : ∀ entry ∈ p.entries read, entry.2.Fits Number.IsWord room) :
    TreeTagged room (Tree.ofJson p.toJson) p.kind (.entries (p.entries read)) := by
  have hKind : PropertyKind.ofTree (Tree.ofJson (.string p.kind.name)) = .ok p.kind := by
    rw [PropertyKind.ofTree, Tree.found_ofJson_string]
    cases p <;> rfl
  have hOther : ∀ member ∈ (p.entries read).map fun entry => (entry.1, Tree.ofJson entry.2),
      member.1 ≠ "kind" := by
    intro member hMember
    obtain ⟨entry, hEntry, rfl⟩ := List.mem_map.mp hMember
    exact ne_kind_of_mem_entries hEntry
  rw [toJson_eq read, Tree.ofJson]
  apply TreeTagged.entries (keysRead_ofMembers _)
  · rw [List.map_cons, valuesAt_kind_cons hOther]
    exact .met hKind
  · rw [List.map_cons, Collects, besidesKind_cons hOther, List.forall₂_map_left_iff,
      List.forall₂_same]
    exact fun entry hEntry => ⟨rfl, (hFits entry hEntry).toJson_ofJson⟩

/-- A property survives wherever its written form fits. -/
theorem codec_restores {room : Nat} {p : Property} (h : p.toJson.Fits Number.IsWord room) :
    codec.Restores room p := by
  obtain ⟨left, rfl, hEntries, hInner⟩ := exists_room_of_fits (ofJson (room - 1)) h
  refine ⟨h, ofTree_eq_ok_iff.mpr ⟨left, p.kind, _, rfl, treeTagged_toJson hEntries, ?_⟩⟩
  exact interprets_entries fun q hq => ofJson_toJson (hInner q hq)

end Property

/-! ### The depth of written properties -/

/-- What the content of a property consists of. -/
def PropertyContent.sources : PropertyContent → List Json
  | .elements items => items
  | .entries members => members.map Prod.snd

namespace Property

theorem fits_toJson {room : Nat} {p : Property}
    (h : ∀ q ∈ p.inner, q.toJson.Fits Number.IsWord room) :
    p.toJson.Fits Number.IsWord (room + 2) := by
  rw [toJson_eq (ofJson 0)]
  apply Fits.object
  rw [List.forall_mem_cons]
  refine ⟨.string _, fun member hMember => ?_⟩
  have hCount := fits_ofOption (Cardinality.fits_toJson (room + 1))
  cases p with
  | data property =>
      have hFields : Values.All
          (fun field value => (field.codec.write value).Fits Number.IsWord (room + 1))
          dataRecord.fields (dataRecord.parts property) :=
        ⟨.string _, .string _, hCount property.count, hCount property.length,
          fits_ofOption .string property.map, trivial⟩
      exact Values.fits_of_mem_members hFields hMember
  | struct name count members =>
      have hMembers : (Json.array (listToJson members)).Fits Number.IsWord (room + 1) := by
        apply Fits.array
        rw [listToJson_eq_map, List.forall_mem_map]
        exact h
      have hFields : Values.All
          (fun field value => (field.codec.write value).Fits Number.IsWord (room + 1))
          (writtenBlock (ofJson 0)).fields ((writtenBlock (ofJson 0)).parts (name, count, members)) :=
        ⟨.string name, hCount count, hMembers, trivial⟩
      exact Values.fits_of_mem_members hFields hMember

/-- The values of a record come from its content, or stand for what is missing there. -/
theorem Holds.exists_admits {α : Type} {r : Record Json α} {content : PropertyContent} {a : α}
    (h : Holds r content a) :
    ∃ values, Values.All (fun field value => field.Admits 0 content.sources value) r.fields values ∧
      r.build values = a := by
  cases content with
  | elements items =>
      obtain ⟨values, hItems, hBuild⟩ := h
      exact ⟨values, hItems.all, hBuild⟩
  | entries entries =>
      obtain ⟨values, hGives, hBuild⟩ := h
      exact ⟨values, hGives.imp fun _ _ _ hValue => hValue.admits, hBuild⟩

/-- A structure has the members that stand in its list, or none. The list is part of the content,
whatever form that has. -/
theorem Interprets.exists_source {read : Json → Except Fault Property} {kind : PropertyKind}
    {content : PropertyContent} {p : Property} (h : Interprets read kind content p)
    {q : Property} (hq : q ∈ p.inner) :
    ∃ items, .array items ∈ content.sources ∧ ∃ item ∈ items, read item = .ok q := by
  cases h with
  | data => cases hq
  | @struct content name count members hBlock =>
      obtain ⟨⟨_, _, _, _⟩, ⟨_, _, hMembers, _⟩, hBuild⟩ := hBlock.exists_admits
      cases hBuild
      rcases hMembers with hAbsent | ⟨source, hSource, hRead⟩
      · cases hAbsent
        cases hq
      · obtain ⟨items, rfl, hItems⟩ := readList_eq_ok_iff.mp hRead
        exact ⟨items, hSource, exists_of_mem_right hItems hq⟩

/-- A structure is written with the list of its members, which takes one level more than a text
that leaves the list out. So the depth is rounded up to the next even number. -/
theorem Interprets.fits {read : Json → Except Fault Property} {kind : PropertyKind}
    {content : PropertyContent} {p : Property} {depth : Nat} (h : Interprets read kind content p)
    (hContent : ∀ source ∈ content.sources, source.Fits (fun _ => True) depth)
    (hRead : ∀ source q depth, read source = .ok q → source.Fits (fun _ => True) depth →
      q.toJson.Fits Number.IsWord (depth + depth % 2)) :
    p.toJson.Fits Number.IsWord (depth + 1 + (depth + 1) % 2) := by
  obtain ⟨room, hRoom⟩ : ∃ room, depth + 1 + (depth + 1) % 2 = room + 2 :=
    ⟨depth + (depth + 1) % 2 - 1, by omega⟩
  rw [hRoom]
  apply fits_toJson
  intro q hq
  obtain ⟨items, hSource, item, hItem, hMember⟩ := h.exists_source hq
  cases hContent _ hSource with
  | @array left _ hItems =>
      exact (hRead item q left hMember (hItems item hItem)).mono (by omega)

/-- A property that was read from a value of some depth is written with at most that depth, rounded
up to an even one. It may be deeper by one, since empty lists are always written. -/
theorem fits_of_ofJson {room depth : Nat} {value : Json} {p : Property}
    (h : ofJson room value = .ok p) (hFits : value.Fits (fun _ => True) depth) :
    p.toJson.Fits Number.IsWord (depth + depth % 2) := by
  induction room generalizing depth value p with
  | zero =>
      obtain ⟨left, kind, content, hRoom, _⟩ := ofJson_eq_ok_iff.mp h
      cases hRoom
  | succ room ih =>
      obtain ⟨left, kind, content, hRoom, hTagged, hContent⟩ := ofJson_eq_ok_iff.mp h
      cases hRoom
      cases hTagged with
      | elements hKind =>
          cases hFits with
          | array hItems =>
              exact hContent.fits (List.forall_mem_cons.mp hItems).2 fun _ _ _ => ih
      | entries hKind =>
          cases hFits with
          | object hMembers =>
              refine hContent.fits (fun source hSource => ?_) fun _ _ _ => ih
              obtain ⟨member, hMember, rfl⟩ := List.mem_map.mp hSource
              exact hMembers member (List.mem_of_mem_filter hMember)

/-- The same for a property in a text, whose depth is limited by the room. -/
theorem fits_of_ofTree {room : Nat} {tree : Tree} {p : Property} (h : ofTree room tree = .ok p) :
    p.toJson.Fits Number.IsWord (room + room % 2) := by
  obtain ⟨left, kind, content, rfl, hTagged, hContent⟩ := ofTree_eq_ok_iff.mp h
  refine hContent.fits (fun source hSource => ?_) fun _ _ _ => fits_of_ofJson
  cases hTagged with
  | elements hKind hItems =>
      obtain ⟨item, _, hItem⟩ := exists_of_mem_right hItems hSource
      exact fits_of_toJson hItem
  | entries hKeys hKind hEntries =>
      obtain ⟨entry, hEntry, rfl⟩ := List.mem_map.mp hSource
      obtain ⟨member, _, _, hMember⟩ := exists_of_mem_right hEntries hEntry
      exact fits_of_toJson hMember

/-- Properties are faithful at even depths. At an odd one the written form may not fit any more. -/
theorem codec_faithful {room : Nat} (hEven : room % 2 = 0) : codec.Faithful room := by
  intro tree p hRead
  have hFits := fits_of_ofTree hRead
  rw [hEven] at hFits
  exact codec_restores hFits

end Property

/-! ### Records -/

theorem Guid.codec_restores (room : Nat) (guid : Guid) : codec.Restores room guid where
  fits := .string guid.toText
  read_write := by
    have hText := (Codec.text_restores room guid.toText).read_write
    exact bind_eq_ok_iff.mpr ⟨_, hText, by rw [ofString?_toText]; rfl⟩

theorem MapKind.codec_restores (room : Nat) (kind : MapKind) : codec.Restores room kind where
  fits := .string kind.name
  read_write := by
    change (do choose (← orDamaged (Quoted.ofString kind.name).read)) = .ok kind
    rw [read_ofString]
    cases kind <;> rfl

section

variable {room : Nat}

theorem namedValueRecord_distinct {α : Type} (value : Codec Tree α) :
    (namedValueRecord value).Distinct :=
  show ["name", "value", "symbol"].Nodup by decide

/-- What has a name and a value survives if the value does. -/
theorem namedValueRecord_faithful {α : Type} {value : Codec Tree α}
    (h : ∀ a, value.Restores room a) : (namedValueRecord value).codec.Faithful (room + 1) := by
  apply Record.codec_faithful (namedValueRecord_distinct value) (fun _ => rfl)
  simp only [namedValueRecord, List.forall_mem_cons]
  exact ⟨Field.required_faithful (Codec.text_faithful room) _,
    Field.required_faithful (fun _ a _ => h a) _, Field.optional_text_faithful room _, by simp⟩

theorem keywordRecord_faithful : keywordRecord.codec.Faithful (room + 1) := by
  apply Record.codec_faithful (by decide) (fun _ => rfl)
  simp only [keywordRecord, List.forall_mem_cons]
  exact ⟨Field.required_faithful (Codec.text_faithful room) _,
    Field.required_faithful (fun _ a _ => Codec.word64_restores room a) _,
    Field.optional_text_faithful room _, by simp⟩

theorem mapItemRecord_faithful : mapItemRecord.codec.Faithful (room + 1) := by
  apply Record.codec_faithful (by decide) (fun _ => rfl)
  simp only [mapItemRecord, List.forall_mem_cons]
  exact ⟨Field.required_faithful (fun _ a _ => Codec.word32_restores room a) _,
    Field.optional_text_faithful room _, Field.optional_text_faithful room _, by simp⟩

/-- A map takes three levels: its object, the list of its items, and an item. -/
theorem valueMapRecord_faithful : valueMapRecord.codec.Faithful (room + 3) := by
  apply Record.codec_faithful (by decide) (fun _ => rfl)
  simp only [valueMapRecord, List.forall_mem_cons]
  exact ⟨Field.required_faithful (Codec.text_faithful _) _,
    Field.required_faithful (fun _ a _ => MapKind.codec_restores _ a) _,
    Field.optional_text_faithful _ _, Field.defaulted_list_faithful mapItemRecord_faithful _,
    by simp⟩

theorem localizedStringRecord_faithful : localizedStringRecord.codec.Faithful (room + 1) := by
  apply Record.codec_faithful (by decide) (fun _ => rfl)
  simp only [localizedStringRecord, List.forall_mem_cons]
  exact ⟨Field.required_faithful (Codec.text_faithful room) _,
    Field.required_faithful (Codec.text_faithful room) _, Field.optional_text_faithful room _,
    Field.optional_faithful (fun _ a _ => Codec.word32_restores room a) (fun _ h => by cases h) _,
    by simp⟩

theorem templateRecord_faithful (hEven : room % 2 = 0) :
    templateRecord.codec.Faithful (room + 2) := by
  apply Record.codec_faithful (by decide) (fun _ => rfl)
  simp only [templateRecord, List.forall_mem_cons]
  exact ⟨Field.defaulted_list_faithful (Property.codec_faithful hEven) _, by simp⟩

/-- The template of an event stands inside it, with the properties at an even depth. -/
theorem eventRecord_faithful (hEven : room % 2 = 0) : eventRecord.codec.Faithful (room + 3) := by
  apply Record.codec_faithful (by decide) (fun _ => rfl)
  simp only [eventRecord, List.forall_mem_cons]
  have hText (name : String) := Field.optional_text_faithful (room + 2) name
  have hVersion : Codec.word8.Faithful (room + 2) := fun _ a _ => Codec.word8_restores _ a
  exact ⟨Field.required_faithful (fun _ a _ => Codec.word16_restores _ a) _,
    Field.defaulted_faithful hVersion (Codec.word8_restores _ _) _,
    hText _, hText _, hText _, hText _, Field.defaulted_list_faithful (Codec.text_faithful _) _,
    Field.defaulted_faithful (Codec.flag_faithful _) (Codec.flag_restores _ _) _, hText _,
    Field.optional_faithful (templateRecord_faithful hEven) (fun _ h => by cases h) _, by simp⟩

theorem providerRecord_faithful (hEven : room % 2 = 0) :
    providerRecord.codec.Faithful (room + 5) := by
  apply Record.codec_faithful (by decide) (fun _ => rfl)
  simp only [providerRecord, List.forall_mem_cons]
  have hGuid : Guid.codec.Faithful (room + 4) := fun _ a _ => Guid.codec_restores _ a
  have hFlag (name : String) : (Field.defaulted name Codec.flag false).Faithful (room + 4) :=
    Field.defaulted_faithful (Codec.flag_faithful _) (Codec.flag_restores _ _) name
  have hNamed8 (name : String) :=
    Field.defaulted_list_faithful (namedValueRecord_faithful (Codec.word8_restores (room + 2))) name
  have hNamed16 (name : String) :=
    Field.defaulted_list_faithful (namedValueRecord_faithful (Codec.word16_restores (room + 2))) name
  exact ⟨Field.required_faithful (Codec.text_faithful _) _, Field.required_faithful hGuid _,
    Field.optional_faithful hGuid (fun _ h => by cases h) _, Field.optional_text_faithful _ _,
    hFlag _, hFlag _, hNamed8 _, hNamed8 _, hNamed16 _, hNamed8 _,
    Field.defaulted_list_faithful keywordRecord_faithful _,
    Field.defaulted_list_faithful valueMapRecord_faithful _,
    Field.defaulted_list_faithful localizedStringRecord_faithful _,
    Field.defaulted_list_faithful (eventRecord_faithful hEven) _, by simp⟩

/-- The depth of a manifest is what its deepest part takes: that of providers, events, templates and
properties, one inside the other. -/
theorem manifestRecord_faithful (hEven : room % 2 = 0) :
    manifestRecord.codec.Faithful (room + 7) := by
  apply Record.codec_faithful (by decide) (fun _ => rfl)
  simp only [manifestRecord, List.forall_mem_cons]
  exact ⟨Field.required_faithful (providerRecord_faithful hEven).list _, by simp⟩

end

/-! ### Manifests -/

namespace Manifest

/-- A text is read exactly if its tree is, and if nothing but blanks stands behind. -/
theorem ofText_eq_ok_iff {text : String} {m : Manifest} :
    ofText text = .ok m ↔
      manifestRecord.ofTree maximalDepth (Tree.scan text.toList).tree = .ok m ∧
        (Tree.scan text.toList).check = .ok () := by
  simp only [ofText, ofChars, bind_eq_ok_iff, orDamaged_eq_ok_iff, pure_eq_ok_iff]
  constructor
  · rintro ⟨_, hTree, _, hCheck, rfl⟩
    exact ⟨hTree, hCheck⟩
  · rintro ⟨hTree, hCheck⟩
    exact ⟨m, hTree, (), hCheck, rfl⟩

theorem codec_faithful : manifestRecord.codec.Faithful maximalDepth :=
  manifestRecord_faithful (by decide : 120 % 2 = 0)

/-- A manifest that survives is read from its canonical text. That every manifest which was read
survives is shown next. -/
theorem ofText_compact {m : Manifest} (h : manifestRecord.codec.Restores maximalDepth m) :
    ofText m.canonical = .ok m := by
  have hChars : m.canonical.toList = m.toJson.compactChars := String.toList_ofList
  have hScan := h.fits.document.scan_eq
  rw [ofText_eq_ok_iff, hChars]
  exact ⟨hScan ▸ h.read_write, hScan ▸ rfl⟩

/-- Reading a manifest's canonical form gives the manifest back, so writing it again changes
nothing, and both texts have one fingerprint. -/
theorem ofText_canonical {text : String} {m : Manifest} (h : ofText text = .ok m) :
    ofText m.canonical = .ok m ∧
      (ofText m.canonical).map canonical = .ok m.canonical ∧
      (ofText m.canonical).map
          (fun reloaded => (Provenance.ofSource m.canonical reloaded).schemaFingerprint) =
        .ok (Provenance.ofSource text m).schemaFingerprint := by
  obtain ⟨hTree, _⟩ := ofText_eq_ok_iff.mp h
  have hReloaded := ofText_compact (codec_faithful _ m hTree)
  rw [hReloaded]
  exact ⟨rfl, rfl, rfl⟩

/-- A text with members out of order, an escape, an event given by its elements and a structure
without its list of members. -/
def freelyWritten : String :=
  "\x7b\"providers\": [\x7b\"guid\": \"12345678-90ab-CDEF-0011-223344556677\", \"name\": \"\\u0041\",
    \"events\": [[7, 1], \x7b\"template\": [[\x7b\"name\": \"s\", \"kind\": \"struct\"\x7d]],
      \"value\": 8\x7d]\x7d]\x7d"

def freelyRead : Manifest :=
  ⟨[⟨"A", ⟨0x12345678, 0x90ab, 0xcdef, 0x0011223344556677⟩, none, none, false, false, [], [], [],
    [], [], [], [],
    [⟨7, 1, none, none, none, none, [], false, none, none⟩,
      ⟨8, 0, none, none, none, none, [], false, none, some ⟨[.struct "s" none []]⟩⟩]⟩]⟩

/-- The canonical text spells out what was left open, and is read as the same manifest. -/
theorem ofText_canonical_freelyWritten :
    ofText freelyWritten = .ok freelyRead ∧ ofText freelyRead.canonical = .ok freelyRead := by
  have hRead : ofText freelyWritten = .ok freelyRead := by decide +kernel
  exact ⟨hRead, (ofText_canonical hRead).1⟩

end Manifest

end EventManifest
