import EventManifest.Compilation
import EventManifest.Proofs.Json.Reordering
import EventManifest.Proofs.Manifest.Properties
import EventManifest.Proofs.Manifest.RoundTrip

/-!
The form of a text does not matter. Texts that differ in blanks, in the order of members and in the
spelling of text and numbers are accepted alike and give one manifest, so they have one fingerprint
and every run gives the same. Only the digest of the text itself tells them apart.
-/

namespace EventManifest

open Json Outcome

/-! ### Parts of properties -/

theorem readNothing_alike {value value' : Json} (h : value.Alike value')
    (hRead : readNothing value = .ok ()) : readNothing value' = .ok () := by
  have hAlike := h
  cases h with
  | @object members _ members' _ _ _ =>
      cases members with
      | cons member members => cases hRead
      | nil =>
          cases hAlike.reordered_of_object.eq_nil
          exact hRead
  | array _ => cases hRead
  | _ => exact hRead

/-- A type is given by its name, in a text or as the key of an object. Neither has an order. -/
theorem InType.codec_blind : codec.Blind Json.Alike := by
  intro room value value' t h hRead
  have hAlike := h
  dsimp only [codec] at hRead ⊢
  cases h with
  | @object members _ members' _ _ _ =>
      cases members with
      | nil => cases hRead
      | cons member members =>
          cases members with
          | cons next members => cases hRead
          | nil =>
              obtain ⟨member', rfl, hKey, hValue⟩ := hAlike.reordered_of_object.eq_singleton
              obtain ⟨_, hChosen, hRead⟩ := bind_eq_ok_iff.mp hRead
              obtain ⟨_, hNothing, hResult⟩ := bind_eq_ok_iff.mp hRead
              exact bind_eq_ok_iff.mpr ⟨_, hKey ▸ hChosen,
                bind_eq_ok_iff.mpr ⟨_, readNothing_alike hValue hNothing, hResult⟩⟩
  | array _ => cases hRead
  | _ => exact hRead

/-- A count or length is a number or a name. Neither has members, so it is read alike in any
order. -/
theorem Cardinality.codec_blind : codec.Blind Json.Alike := by
  intro room value value' c h hRead
  cases h with
  | array _ => cases hRead
  | object _ _ _ => cases hRead
  | _ => exact hRead

namespace PropertyKind

theorem ofJson_alike {value value' : Json} {kind : PropertyKind} (h : value.Alike value')
    (hRead : ofJson value = .ok kind) : ofJson value' = .ok kind := by
  cases h with
  | array _ => cases hRead
  | object _ _ _ => cases hRead
  | _ => exact hRead

theorem ofTree_alike {tree tree' : Tree} {kind : PropertyKind} (h : tree.Alike tree')
    (hRead : ofTree tree = .ok kind) : ofTree tree' = .ok kind := by
  rwa [ofTree, ← h.found_eq, ← ofTree]

end PropertyKind

/-! ### Properties -/

/-- Content that differs in the order of members only. -/
inductive PropertyContent.Alike : PropertyContent → PropertyContent → Prop where
  | elements {items items' : List Json} (hItems : List.Forall₂ Json.Alike items items') :
      Alike (.elements items) (.elements items')
  | entries {members members' : List (String × Json)}
      (hMembers : Reordered (SameName Json.Alike) members members') :
      Alike (.entries members) (.entries members')

namespace Property

/-- A record holds what it did if the members of its content are reordered, and if its fields do not
see the order of members inside them. -/
theorem Holds.alike {α : Type} {r : Record Json α} {content content' : PropertyContent} {a : α}
    (h : Holds r content a) (hContent : content.Alike content')
    (hFields : ∀ field ∈ r.fields, field.codec.Blind Json.Alike) : Holds r content' a := by
  cases hContent with
  | elements hItems => exact Record.Lists.alike h hItems hFields
  | entries hMembers => exact Record.Gives.reordered h hMembers hFields

theorem dataRecord_blind : ∀ field ∈ dataRecord.fields, field.codec.Blind Json.Alike := by
  simp only [dataRecord, List.forall_mem_cons]
  have hText := Codec.text_blind alike_resembles
  have hCount := Cardinality.codec_blind.nullable alike_resembles
  exact ⟨hText, InType.codec_blind, hCount, hCount, hText.nullable alike_resembles, by simp⟩

/-- A way to read properties that does not see the order of members. -/
def ReadsAlike (read : Json → Except Fault Property) : Prop :=
  ∀ ⦃value value' p⦄, value.Alike value' → read value = .ok p → read value' = .ok p

/-- A structure does not see the order of members if its own members do not. -/
theorem readBlock_blind {read : Json → Except Fault Property} (hRead : ReadsAlike read) :
    ∀ field ∈ (readBlock read).fields, field.codec.Blind Json.Alike := by
  have hMembers {value value' : Json} {members : List Property} (hAlike : value.Alike value')
      (hValue : readList read value = .ok members) : readList read value' = .ok members := by
    obtain ⟨items, rfl, hItems⟩ := readList_eq_ok_iff.mp hValue
    cases hAlike with
    | @array _ items' hAlike =>
        obtain ⟨members', hItems', hSame⟩ := forall₂_transfer hAlike hItems
          fun _ _ member hItem hMember => ⟨member, hRead hItem hMember, rfl⟩
        rw [List.forall₂_eq_eq_eq] at hSame
        exact readList_eq_ok_iff.mpr ⟨items', rfl, hSame ▸ hItems'⟩
  simp only [readBlock, blockRecord, List.forall_mem_cons]
  exact ⟨Codec.text_blind alike_resembles, Cardinality.codec_blind.nullable alike_resembles,
    fun _ _ _ _ hAlike => hMembers hAlike, by simp⟩

/-- Properties of both kinds do not see the order of members. -/
theorem Interprets.alike {read : Json → Except Fault Property} {kind : PropertyKind}
    {content content' : PropertyContent} {p : Property} (h : Interprets read kind content p)
    (hContent : content.Alike content') (hRead : ReadsAlike read) :
    Interprets read kind content' p := by
  cases h with
  | data hData => exact .data (hData.alike hContent dataRecord_blind)
  | struct hBlock => exact .struct (hBlock.alike hContent (readBlock_blind hRead))

/-- Where the kind stands among the members does not matter for the others. -/
theorem besidesKind_reordered {σ : Type} {R : σ → σ → Prop} {members members' : List (String × σ)}
    (h : Reordered (SameName R) members members') :
    Reordered (SameName R) (besidesKind members) (besidesKind members') :=
  h.filter fun _ _ hMember => by rw [hMember.1]

/-- Values that are alike have the same kind, and content that is alike. The kind may stand first in
one of them and last in the other. -/
theorem Tagged.exists_alike {value value' : Json} {kind : PropertyKind} {content : PropertyContent}
    (h : Tagged value kind content) (hAlike : value.Alike value') :
    ∃ content', Tagged value' kind content' ∧ content.Alike content' := by
  have hValues := hAlike
  cases h with
  | elements hKind =>
      cases hAlike with
      | array hItems =>
          cases hItems with
          | cons hTag hItems =>
              exact ⟨_, .elements (PropertyKind.ofJson_alike hTag hKind), .elements hItems⟩
  | entries hKind =>
      cases hAlike with
      | object _ _ _ =>
          have hMembers := hValues.reordered_of_object
          have hKind' := hKind.reordered (valuesAt_reordered hMembers "kind")
            fun _ _ _ hTag => PropertyKind.ofJson_alike hTag
          exact ⟨_, .entries hKind', .entries (besidesKind_reordered hMembers)⟩

/-- By induction over the room, since structures may contain structures. -/
theorem ofJson_readsAlike (room : Nat) : ReadsAlike (ofJson room) := by
  induction room with
  | zero =>
      intro value value' p _ hRead
      obtain ⟨left, _, _, hRoom, _⟩ := ofJson_eq_ok_iff.mp hRead
      cases hRoom
  | succ room ih =>
      intro value value' p hAlike hRead
      obtain ⟨left, kind, content, hRoom, hTagged, hContent⟩ := ofJson_eq_ok_iff.mp hRead
      cases hRoom
      obtain ⟨content', hTagged', hSame⟩ := hTagged.exists_alike hAlike
      exact ofJson_eq_ok_iff.mpr ⟨room, kind, content', rfl, hTagged', hContent.alike hSame ih⟩

/-- Members that were put aside have the order of the text, which is the only thing about them that
may change. -/
theorem Collects.exists_reordered {room : Nat} {members members' : List (String × Tree)}
    {entries : List (String × Json)} (h : Collects (Tree.toJson room) members entries)
    (hMembers : Reordered (SameName Tree.Alike) members members') :
    ∃ entries', Collects (Tree.toJson room) members' entries' ∧
      Reordered (SameName Json.Alike) entries entries' := by
  apply (besidesKind_reordered hMembers).transfer h
  rintro member member' entry ⟨hName, hAlike⟩ ⟨hKey, hRead⟩
  obtain ⟨value', hRead', hSame⟩ := hAlike.exists_toJson hRead
  exact ⟨(entry.1, value'), ⟨hName ▸ hKey, hRead'⟩, rfl, hSame⟩

/-- The same in a text, where kinds and keys may be spelled in several ways. -/
theorem TreeTagged.exists_alike {room : Nat} {tree tree' : Tree} {kind : PropertyKind}
    {content : PropertyContent} (h : TreeTagged room tree kind content)
    (hAlike : tree.Alike tree') :
    ∃ content', TreeTagged room tree' kind content' ∧ content.Alike content' := by
  have hTrees := hAlike
  cases h with
  | elements hKind hItems =>
      cases hAlike with
      | array _ _ =>
          cases hTrees.forall₂_of_array with
          | cons hTag hRest =>
              obtain ⟨values', hItems', hSame⟩ := forall₂_transfer hRest hItems
                fun _ _ _ hItem => hItem.exists_toJson
              exact ⟨_, .elements (PropertyKind.ofTree_alike hTag hKind) hItems',
                .elements hSame⟩
  | entries hKeys hKind hEntries =>
      cases hAlike with
      | object _ _ _ =>
          obtain ⟨named', hKeys', hNamed⟩ := hKeys.exists_reordered hTrees.reordered_of_object
          have hKind' := hKind.reordered (valuesAt_reordered hNamed "kind")
            fun _ _ _ hTag => PropertyKind.ofTree_alike hTag
          obtain ⟨entries', hEntries', hSame⟩ := hEntries.exists_reordered hNamed
          exact ⟨_, .entries hKeys' hKind' hEntries', .entries hSame⟩

/-- A property is read alike from texts that are alike. The records below are all put together from
this and from fields that are read at one glance. -/
theorem codec_blind : codec.Blind Tree.Alike := by
  intro room tree tree' p hAlike hRead
  obtain ⟨left, kind, content, hRoom, hTagged, hContent⟩ := ofTree_eq_ok_iff.mp hRead
  obtain ⟨content', hTagged', hSame⟩ := hTagged.exists_alike hAlike
  exact ofTree_eq_ok_iff.mpr
    ⟨left, kind, content', hRoom, hTagged', hContent.alike hSame (ofJson_readsAlike left)⟩

end Property

/-! ### Records -/

theorem Guid.codec_blind : codec.Blind Tree.Alike := by
  intro room tree tree' guid hAlike hRead
  obtain ⟨text, hText, hGuid⟩ := bind_eq_ok_iff.mp hRead
  exact bind_eq_ok_iff.mpr ⟨text, Codec.text_blind Tree.alike_resembles hAlike hText, hGuid⟩

theorem MapKind.codec_blind : codec.Blind Tree.Alike := by
  intro room tree tree' kind hAlike hRead
  have hTrees := hAlike
  dsimp only [codec] at hRead ⊢
  cases hAlike with
  | quoted _ _ hSame => rwa [ofTree, ← hSame]
  | @object members _ members' _ _ _ =>
      obtain ⟨left, rfl, hRead⟩ := enter_eq_ok_iff.mp hRead
      have hMembers := hTrees.reordered_of_object
      cases members with
      | nil => cases hRead
      | cons member more =>
          obtain ⟨spelling, content⟩ := member
          obtain ⟨text, hText, hRead⟩ := bind_eq_ok_iff.mp hRead
          obtain ⟨chosen, hChosen, hRead⟩ := bind_eq_ok_iff.mp hRead
          obtain ⟨found, hFound, hRead⟩ := bind_eq_ok_iff.mp hRead
          cases more with
          | cons next more => cases found <;> cases hRead
          | nil =>
              obtain ⟨member', rfl, hKey, hContent⟩ := hMembers.eq_singleton
              refine bind_eq_ok_iff.mpr ⟨text, hKey ▸ hText, ?_⟩
              refine bind_eq_ok_iff.mpr ⟨chosen, hChosen, ?_⟩
              exact bind_eq_ok_iff.mpr ⟨found, hContent.found_eq ▸ hFound, hRead⟩
  | _ => cases hRead

theorem namedValueRecord_blind {α : Type} {value : Codec Tree α} (h : value.Blind Tree.Alike) :
    (namedValueRecord value).codec.Blind Tree.Alike := by
  apply Record.codec_blind (namedValueRecord_distinct value)
  simp only [namedValueRecord, List.forall_mem_cons]
  exact ⟨Tree.Alike.text_blind, h, Tree.Alike.nullable_text_blind, by simp⟩

theorem keywordRecord_blind : keywordRecord.codec.Blind Tree.Alike := by
  apply Record.codec_blind (by decide)
  simp only [keywordRecord, List.forall_mem_cons]
  exact ⟨Tree.Alike.text_blind, Tree.Alike.word64_blind, Tree.Alike.nullable_text_blind, by simp⟩

theorem mapItemRecord_blind : mapItemRecord.codec.Blind Tree.Alike := by
  apply Record.codec_blind (by decide)
  simp only [mapItemRecord, List.forall_mem_cons]
  exact ⟨Tree.Alike.word32_blind, Tree.Alike.nullable_text_blind, Tree.Alike.nullable_text_blind,
    by simp⟩

theorem valueMapRecord_blind : valueMapRecord.codec.Blind Tree.Alike := by
  apply Record.codec_blind (by decide)
  simp only [valueMapRecord, List.forall_mem_cons]
  exact ⟨Tree.Alike.text_blind, MapKind.codec_blind, Tree.Alike.nullable_text_blind,
    mapItemRecord_blind.list, by simp⟩

theorem localizedStringRecord_blind : localizedStringRecord.codec.Blind Tree.Alike := by
  apply Record.codec_blind (by decide)
  simp only [localizedStringRecord, List.forall_mem_cons]
  exact ⟨Tree.Alike.text_blind, Tree.Alike.text_blind, Tree.Alike.nullable_text_blind,
    Tree.Alike.word32_blind.nullable Tree.alike_resembles, by simp⟩

theorem templateRecord_blind : templateRecord.codec.Blind Tree.Alike := by
  apply Record.codec_blind (by decide)
  simp only [templateRecord, List.forall_mem_cons]
  exact ⟨Property.codec_blind.list, by simp⟩

theorem eventRecord_blind : eventRecord.codec.Blind Tree.Alike := by
  apply Record.codec_blind (by decide)
  simp only [eventRecord, List.forall_mem_cons]
  have hName := Tree.Alike.nullable_text_blind
  exact ⟨Tree.Alike.word16_blind, Tree.Alike.word8_blind, hName, hName, hName, hName,
    Tree.Alike.text_blind.list, Tree.Alike.flag_blind, hName,
    templateRecord_blind.nullable Tree.alike_resembles, by simp⟩

theorem providerRecord_blind : providerRecord.codec.Blind Tree.Alike := by
  apply Record.codec_blind (by decide)
  simp only [providerRecord, List.forall_mem_cons]
  have hNamed8 := (namedValueRecord_blind Tree.Alike.word8_blind).list
  have hNamed16 := (namedValueRecord_blind Tree.Alike.word16_blind).list
  exact ⟨Tree.Alike.text_blind, Guid.codec_blind, Guid.codec_blind.nullable Tree.alike_resembles,
    Tree.Alike.nullable_text_blind, Tree.Alike.flag_blind, Tree.Alike.flag_blind, hNamed8, hNamed8,
    hNamed16, hNamed8, keywordRecord_blind.list, valueMapRecord_blind.list,
    localizedStringRecord_blind.list, eventRecord_blind.list, by simp⟩

/-- The whole of a manifest, from its fields up. Adding a field to a record adds one case here. -/
theorem manifestRecord_blind : manifestRecord.codec.Blind Tree.Alike := by
  apply Record.codec_blind (by decide)
  simp only [manifestRecord, List.forall_mem_cons]
  exact ⟨providerRecord_blind.list, by simp⟩

/-! ### Texts and runs -/

/-- One direction; the other one follows since texts are equivalent in both directions. Nothing is
said about the faults of texts that are not read. -/
theorem Manifest.ofText_alike {text text' : String} {m : Manifest} (h : Equivalent text text')
    (hRead : ofText text = .ok m) : ofText text' = .ok m := by
  obtain ⟨tree, tree', hDocument, hDocument', hAlike⟩ := h
  rw [ofText_eq_ok_iff, hDocument.scan_eq] at hRead
  rw [ofText_eq_ok_iff, hDocument'.scan_eq]
  exact ⟨manifestRecord_blind hAlike hRead.1, rfl⟩

/-- A run that took its manifest from another text. -/
def Run.withProvenance (run : Run) (provenance : Option Provenance) : Run :=
  { run with state := { run.state with provenance := provenance } }

namespace Compilation

/-- No stage looks at where the manifest comes from. It is only passed on to the results. -/
theorem runStage_withProvenance (options : HeaderOptions) (stage : Stage) (c : Compilation)
    (provenance : Option Provenance) :
    runStage options { c with provenance := provenance } stage =
      (runStage options c stage).withProvenance provenance := by
  obtain ⟨_, tables, plan, header, diagnostics, failed, _⟩ := c
  cases stage with
  | resolve => rfl
  | plan => cases tables <;> rfl
  | render => cases plan <;> rfl

/-- Hence no run of stages does, wherever it stops. -/
theorem runStages_withProvenance (options : HeaderOptions) (stages : List Stage) (c : Compilation)
    (provenance : Option Provenance) :
    runStages options { c with provenance := provenance } stages =
      (runStages options c stages).withProvenance provenance := by
  induction stages generalizing c with
  | nil => rfl
  | cons stage stages ih =>
      rw [runStages, runStages, runStage_withProvenance]
      generalize runStage options c stage = first
      obtain ⟨state, notices, failedAt⟩ := first
      cases failedAt with
      | some stage => rfl
      | none =>
          simp only [Run.withProvenance, ih state]

/-- Texts of the same content are accepted alike and give one manifest. So they have one
fingerprint, whatever the digest is, and all that a run makes is the same. -/
theorem ofText_of_equivalent {text text' : String} (h : Equivalent text text') :
    (∀ m, Manifest.ofText text = .ok m ↔ Manifest.ofText text' = .ok m) ∧
      (∀ m m', Manifest.ofText text = .ok m → Manifest.ofText text' = .ok m' →
        (∀ {Hash : Type} (hash : String → Hash), hash m.canonical = hash m'.canonical) ∧
          (Provenance.ofSource text m).schemaFingerprint =
            (Provenance.ofSource text' m').schemaFingerprint) ∧
      ∀ c, ofText text = .ok c → ∃ c', ofText text' = .ok c' ∧
        ∀ options target,
          run options target c' = (run options target c).withProvenance c'.provenance := by
  have hBoth (m : Manifest) : Manifest.ofText text = .ok m ↔ Manifest.ofText text' = .ok m :=
    ⟨Manifest.ofText_alike h, Manifest.ofText_alike h.symm⟩
  refine ⟨hBoth, ?_, ?_⟩
  · intro m m' hRead hRead'
    cases ((hBoth m).mp hRead).symm.trans hRead'
    exact ⟨fun _ => rfl, rfl⟩
  · intro c hRead
    obtain ⟨m, hManifest, hResult⟩ := bind_eq_ok_iff.mp hRead
    cases hResult
    refine ⟨_, bind_eq_ok_iff.mpr ⟨m, (hBoth m).mp hManifest, rfl⟩, ?_⟩
    intro options target
    exact runStages_withProvenance options target.required
      { manifest := m, provenance := some (.ofSource text m) } _

/-- A document with one provider, which has two members. -/
def twoMembers (first second : String × String) : Json :=
  .object [("providers", .array [.object [(first.1, .string first.2),
    (second.1, .string second.2)]])]

theorem twoMembers_fits (first second : String × String) :
    (twoMembers first second).Fits Number.IsWord 3 := by
  apply Fits.object
  rw [List.forall_mem_singleton]
  apply Fits.array
  rw [List.forall_mem_singleton]
  apply Fits.object
  rw [List.forall_mem_cons, List.forall_mem_singleton]
  exact ⟨.string first.2, .string second.2⟩

/-- Blanks before every token and the other order of the members change nothing. Both texts are
sound, which is part of being equivalent. -/
theorem twoMembers_equivalent (first second : String × String) :
    Equivalent (twoMembers first second).compact
      (String.ofList ((twoMembers second first).spacedChars [' '])) := by
  have hBlanks : IsBlank [' '] := List.forall_mem_singleton.mpr rfl
  refine ⟨Tree.ofJson (twoMembers first second), Tree.ofJson (twoMembers second first), ?_, ?_, ?_⟩
  · rw [Json.compact, String.toList_ofList]
    exact (twoMembers_fits first second).document
  · rw [String.toList_ofList]
    exact (twoMembers_fits second first).document_spaced hBlanks
  · have hQuoted (s : String) :
        (Tree.quoted (Quoted.ofString s)).Alike (.quoted (Quoted.ofString s)) :=
      .quoted rfl rfl rfl
    have hProvider := Tree.Alike.object_of_reordered ⟨_, List.Perm.swap
      (Quoted.ofString second.1, Tree.quoted (Quoted.ofString second.2))
      (Quoted.ofString first.1, Tree.quoted (Quoted.ofString first.2)) [],
      .cons ⟨rfl, hQuoted second.2⟩ (.cons ⟨rfl, hQuoted first.2⟩ .nil)⟩
    have hProviders := Tree.Alike.array_of_forall₂ (.cons hProvider .nil)
    exact Tree.Alike.object_of_reordered ⟨_, .refl _, .cons ⟨rfl, hProviders⟩ .nil⟩

def compactText : String :=
  (twoMembers ("name", "A") ("guid", "12345678-90ab-cdef-0011-223344556677")).compact

def spacedText : String :=
  String.ofList ((twoMembers ("guid", "12345678-90ab-cdef-0011-223344556677")
    ("name", "A")).spacedChars [' '])

/-- The two texts differ in their bytes and in the order of their members, and give the same
manifest. -/
theorem ofText_of_equivalent_spacedText :
    Equivalent compactText spacedText ∧
      ∃ m, Manifest.ofText compactText = .ok m ∧ Manifest.ofText spacedText = .ok m := by
  have hEquivalent : Equivalent compactText spacedText := twoMembers_equivalent _ _
  have hRead : Manifest.ofText compactText = .ok ⟨[⟨"A",
      ⟨0x12345678, 0x90ab, 0xcdef, 0x0011223344556677⟩, none, none, false, false, [], [], [], [],
      [], [], [], []⟩]⟩ := by
    decide +kernel
  exact ⟨hEquivalent, _, hRead, ((ofText_of_equivalent hEquivalent).1 _).mp hRead⟩

end Compilation

end EventManifest
