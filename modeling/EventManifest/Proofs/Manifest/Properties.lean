import EventManifest.Manifest.PropertyFormat
import EventManifest.Proofs.Json.Fields

/-!
What it takes to read a property, said without the order in which it is read: its kind stands once
among its members, and the other members give the fields of that kind.
-/

namespace EventManifest

open Json Outcome

/-! ### The kind among the members -/

namespace Property

variable {σ : Type}

/-- The members besides the kind. -/
def besidesKind (members : List (String × σ)) : List (String × σ) :=
  members.filter fun member => member.1 ≠ "kind"

/-- Members as they are read. -/
def Collects (readRest : σ → Except Fault Json) (members : List (String × σ))
    (entries : List (String × Json)) : Prop :=
  List.Forall₂ (fun member entry => member.1 = entry.1 ∧ readRest member.2 = .ok entry.2)
    (besidesKind members) entries

theorem collects_kind_iff {readRest : σ → Except Fault Json} {source : σ}
    {members : List (String × σ)} {entries : List (String × Json)} :
    Collects readRest (("kind", source) :: members) entries ↔ Collects readRest members entries := by
  simp [Collects, besidesKind]

/-- Every member besides the kind is read in full, also one that no property has a use for. -/
theorem collects_other_iff {readRest : σ → Except Fault Json} {key : String} {source : σ}
    (hKey : key ≠ "kind") {members : List (String × σ)} {entries : List (String × Json)} :
    Collects readRest ((key, source) :: members) entries ↔
      ∃ value rest, readRest source = .ok value ∧ Collects readRest members rest ∧
        entries = (key, value) :: rest := by
  simp only [Collects, besidesKind, List.filter_cons, hKey, ne_eq, not_false_eq_true, decide_true,
    if_true, List.forall₂_cons_left_iff]
  constructor
  · rintro ⟨⟨key, value⟩, rest, ⟨rfl, hValue⟩, hRest, rfl⟩
    exact ⟨value, rest, hValue, hRest, rfl⟩
  · rintro ⟨value, rest, hValue, hRest, rfl⟩
    exact ⟨_, rest, ⟨rfl, hValue⟩, hRest, rfl⟩

/-- Where everything has been read before, nothing is left to fail. -/
theorem collects_ok_iff {members entries : List (String × Json)} :
    Collects .ok members entries ↔ besidesKind members = entries := by
  rw [Collects, ← List.forall₂_eq_eq_eq]
  simp only [Except.ok.injEq, ← Prod.ext_iff]

section

variable {readKind : σ → Except Fault PropertyKind} {readRest : σ → Except Fault Json}
  {kind kind' : Option PropertyKind} {before entries : List (String × Json)}

/-- The kind may come once. A second one is refused, even if it is the same. -/
theorem collect_kind_eq_ok_iff {source : σ} {members : List (Except Fault String × σ)}
    {result : Option PropertyKind × List (String × Json)} :
    collect readKind readRest kind before (readKey ("kind", source) :: members) = .ok result ↔
      kind = none ∧ ∃ k, readKind source = .ok k ∧
        collect readKind readRest (some k) before members = .ok result := by
  simp only [readKey, collect, bind_eq_ok_iff, Except.ok.injEq, exists_eq_left', if_true]
  cases kind with
  | some k => exact iff_of_false (fun h => by cases h) (fun h => by cases h.1)
  | none => exact bind_eq_ok_iff.trans (and_iff_right rfl).symm

/-- Other members are put aside, since their meaning depends on a kind that may come later. -/
theorem collect_other_eq_ok_iff {member : String × σ} (hKey : member.1 ≠ "kind")
    {members : List (Except Fault String × σ)}
    {result : Option PropertyKind × List (String × Json)} :
    collect readKind readRest kind before (readKey member :: members) = .ok result ↔
      ∃ value, readRest member.2 = .ok value ∧
        collect readKind readRest kind ((member.1, value) :: before) members = .ok result := by
  simp only [readKey, collect, bind_eq_ok_iff, Except.ok.injEq, exists_eq_left', if_neg hKey]

/-- Collecting by its result: the kind, and the remaining members in their order. They are gathered
from the right, hence the reversal. -/
theorem collect_eq_ok_iff {members : List (String × σ)} :
    collect readKind readRest kind before (members.map readKey) = .ok (kind', entries) ↔
      Fills readKind kind (valuesAt "kind" members) kind' ∧
        ∃ rest, Collects readRest members rest ∧ before.reverse ++ rest = entries := by
  induction members generalizing kind before with
  | nil =>
      rw [valuesAt_nil, fills_nil_iff]
      simp [collect, Collects, besidesKind]
  | cons member members ih =>
      obtain ⟨key, source⟩ := member
      rw [List.map_cons]
      by_cases hKey : key = "kind"
      · cases hKey
        rw [collect_kind_eq_ok_iff, valuesAt_cons_self ("kind", source), fills_cons_iff]
        simp only [ih, collects_kind_iff]
        constructor
        · rintro ⟨hNone, k, hKind, hFills, hRest⟩
          exact ⟨⟨hNone, k, hKind, hFills⟩, hRest⟩
        · rintro ⟨⟨hNone, k, hKind, hFills⟩, hRest⟩
          exact ⟨hNone, k, hKind, hFills, hRest⟩
      · rw [collect_other_eq_ok_iff hKey, valuesAt_cons_of_ne hKey]
        simp only [ih, collects_other_iff hKey, List.reverse_cons,
          List.append_assoc]
        constructor
        · rintro ⟨value, hValue, hFills, rest, hRest, rfl⟩
          exact ⟨hFills, _, ⟨value, rest, hValue, hRest, rfl⟩, rfl⟩
        · rintro ⟨hFills, _, ⟨value, rest, hValue, hRest, rfl⟩, rfl⟩
          exact ⟨value, hValue, hFills, rest, hRest, rfl⟩

theorem collect_all_eq_ok_iff {members : List (String × σ)} :
    collect readKind readRest none [] (members.map readKey) = .ok (kind', entries) ↔
      Fills readKind none (valuesAt "kind" members) kind' ∧ Collects readRest members entries := by
  rw [collect_eq_ok_iff]
  simp

/-- Members can only be read if their keys can, whether a kind is among them or not. -/
theorem exists_readKey_of_collect {members : List (Except Fault String × σ)}
    (h : collect readKind readRest kind before members = .ok (kind', entries)) :
    ∃ named : List (String × σ), members = named.map readKey := by
  induction members generalizing kind before with
  | nil => exact ⟨[], rfl⟩
  | cons member members ih =>
      obtain ⟨key, source⟩ := member
      cases key with
      | error fault => cases h
      | ok key =>
          change collect _ _ _ _ (readKey (key, source) :: members) = _ at h
          have hRest : ∃ kind before,
              collect readKind readRest kind before members = .ok (kind', entries) := by
            by_cases hKey : key = "kind"
            · cases hKey
              obtain ⟨_, k, _, hRest⟩ := collect_kind_eq_ok_iff.mp h
              exact ⟨_, _, hRest⟩
            · obtain ⟨value, _, hRest⟩ := (collect_other_eq_ok_iff hKey).mp h
              exact ⟨_, _, hRest⟩
          obtain ⟨_, _, hRest⟩ := hRest
          obtain ⟨named, rfl⟩ := ih hRest
          exact ⟨(key, source) :: named, rfl⟩

end

/-! ### The fields of a kind -/

theorem dataRecord_distinct : dataRecord.Distinct := by
  decide

theorem blockRecord_distinct (read : Json → Except Fault Property)
    (write : List Property → Json) : (blockRecord read write).Distinct := by
  simp [Record.Distinct, blockRecord, Field.required, Field.optional, Field.defaulted]

/-- The members of a structure are an array of properties. An object is not accepted in its
place. -/
theorem readList_eq_ok_iff {read : Json → Except Fault Property} {value : Json}
    {members : List Property} :
    readList read value = .ok members ↔
      ∃ items, value = .array items ∧
        List.Forall₂ (fun item member => read item = .ok member) items members := by
  cases value with
  | array items => simp [readList, mapM_eq_ok_iff]
  | _ => simp [readList, reject]

/-- The content of a property gives a record. -/
def Holds {α : Type} (r : Record Json α) : PropertyContent → α → Prop
  | .elements items => r.Lists 0 items
  | .entries entries => r.Gives 0 entries

/-- How the members of a structure are written does not matter for reading. -/
def readBlock (read : Json → Except Fault Property) :
    Record Json (String × Option Cardinality × List Property) :=
  blockRecord read fun _ => .null

/-- The content gives a property of a kind. -/
inductive Interprets (read : Json → Except Fault Property) :
    PropertyKind → PropertyContent → Property → Prop where
  | data {content : PropertyContent} {p : DataProperty} (hData : Holds dataRecord content p) :
      Interprets read .data content (.data p)
  | struct {content : PropertyContent} {name : String} {count : Option Cardinality}
      {members : List Property} (hBlock : Holds (readBlock read) content (name, count, members)) :
      Interprets read .struct content (.struct name count members)

/-- What was put aside is read by the rules of its kind. -/
theorem ofContent_eq_ok_iff {read : Json → Except Fault Property} {kind : PropertyKind}
    {content : PropertyContent} {p : Property} :
    ofContent read kind content = .ok p ↔ Interprets read kind content p := by
  constructor
  · intro h
    cases kind with
    | data =>
        cases content with
        | elements items =>
            obtain ⟨d, hData, hResult⟩ := bind_eq_ok_iff.mp h
            cases hResult
            exact .data (Record.ofElements_eq_ok_iff.mp hData)
        | entries entries =>
            obtain ⟨d, hData, hResult⟩ := bind_eq_ok_iff.mp h
            cases hResult
            exact .data ((Record.ofEntries_eq_ok_iff dataRecord_distinct).mp hData)
    | struct =>
        cases content with
        | elements items =>
            obtain ⟨⟨name, count, members⟩, hBlock, hResult⟩ := bind_eq_ok_iff.mp h
            cases hResult
            exact .struct (Record.ofElements_eq_ok_iff.mp hBlock)
        | entries entries =>
            obtain ⟨⟨name, count, members⟩, hBlock, hResult⟩ := bind_eq_ok_iff.mp h
            cases hResult
            exact .struct ((Record.ofEntries_eq_ok_iff (blockRecord_distinct _ _)).mp hBlock)
  · intro h
    cases h with
    | data hData =>
        cases content with
        | elements items =>
            exact bind_eq_ok_iff.mpr ⟨_, Record.ofElements_eq_ok_iff.mpr hData, rfl⟩
        | entries entries =>
            exact bind_eq_ok_iff.mpr
              ⟨_, (Record.ofEntries_eq_ok_iff dataRecord_distinct).mpr hData, rfl⟩
    | struct hBlock =>
        cases content with
        | elements items =>
            exact bind_eq_ok_iff.mpr ⟨_, Record.ofElements_eq_ok_iff.mpr hBlock, rfl⟩
        | entries entries =>
            exact bind_eq_ok_iff.mpr
              ⟨_, (Record.ofEntries_eq_ok_iff (blockRecord_distinct _ _)).mpr hBlock, rfl⟩

/-- There is no default for the kind of a property. -/
theorem requireKind_eq_ok_iff {kind : Option PropertyKind} {k : PropertyKind} :
    requireKind kind = .ok k ↔ kind = some k := by
  cases kind <;> simp [requireKind, reject]

/-! ### Properties in full -/

/-- The kind and the content of a property that was read in full. -/
inductive Tagged : Json → PropertyKind → PropertyContent → Prop where
  | elements {tag : Json} {items : List Json} {kind : PropertyKind}
      (hKind : PropertyKind.ofJson tag = .ok kind) :
      Tagged (.array (tag :: items)) kind (.elements items)
  | entries {members : List (String × Json)} {kind : PropertyKind}
      (hKind : Fills PropertyKind.ofJson none (valuesAt "kind" members) (some kind)) :
      Tagged (.object members) kind (.entries (besidesKind members))

/-- A property that was read in full before. Each structure around it takes one unit of room. -/
theorem ofJson_eq_ok_iff {room : Nat} {value : Json} {p : Property} :
    ofJson room value = .ok p ↔
      ∃ left kind content, room = left + 1 ∧ Tagged value kind content ∧
        Interprets (ofJson left) kind content p := by
  constructor
  · intro h
    cases room with
    | zero => cases value <;> cases h
    | succ left =>
        cases value with
        | array items =>
            cases items with
            | nil => cases h
            | cons tag items =>
                obtain ⟨kind, hKind, hContent⟩ := bind_eq_ok_iff.mp h
                exact ⟨left, kind, _, rfl, .elements hKind, ofContent_eq_ok_iff.mp hContent⟩
        | object members =>
            obtain ⟨⟨kind, entries⟩, hCollect, hContent⟩ := bind_eq_ok_iff.mp h
            obtain ⟨k, hRequired, hContent⟩ := bind_eq_ok_iff.mp hContent
            obtain ⟨hFills, hEntries⟩ := collect_all_eq_ok_iff.mp hCollect
            cases requireKind_eq_ok_iff.mp hRequired
            cases collects_ok_iff.mp hEntries
            exact ⟨left, k, _, rfl, .entries hFills, ofContent_eq_ok_iff.mp hContent⟩
        | _ => cases h
  · rintro ⟨left, kind, content, rfl, hTagged, hContent⟩
    rw [← ofContent_eq_ok_iff] at hContent
    cases hTagged with
    | elements hKind => exact bind_eq_ok_iff.mpr ⟨kind, hKind, hContent⟩
    | entries hKind =>
        have hCollect := collect_all_eq_ok_iff.mpr ⟨hKind, collects_ok_iff.mpr rfl⟩
        exact bind_eq_ok_iff.mpr ⟨_, hCollect, hContent⟩

/-! ### Properties in a text -/

/-- The kind and the content of a property in a text. -/
inductive TreeTagged (room : Nat) : Tree → PropertyKind → PropertyContent → Prop where
  | elements {tag : Tree} {items : List Tree} {values : List Json} {kind : PropertyKind}
      (hKind : PropertyKind.ofTree tag = .ok kind)
      (hItems : List.Forall₂ (fun item value => item.toJson room = .ok value) items values) :
      TreeTagged room (.array (tag :: items) .closed) kind (.elements values)
  | entries {members : List (Quoted × Tree)} {named : List (String × Tree)}
      {entries : List (String × Json)} {atKey : Bool} {kind : PropertyKind}
      (hKeys : KeysRead members named)
      (hKind : Fills PropertyKind.ofTree none (valuesAt "kind" named) (some kind))
      (hEntries : Collects (Tree.toJson room) named entries) :
      TreeTagged room (.object members atKey .closed) kind (.entries entries)

/-- A property in a text, which is read in full before its kind is known. Hence what is inside a
structure is always read by the rules of finished values. -/
theorem ofTree_eq_ok_iff {room : Nat} {tree : Tree} {p : Property} :
    ofTree room tree = .ok p ↔
      ∃ left kind content, room = left + 1 ∧ TreeTagged left tree kind content ∧
        Interprets (ofJson left) kind content p := by
  constructor
  · intro h
    cases tree with
    | array items ending =>
        obtain ⟨left, rfl, h⟩ := enter_eq_ok_iff.mp h
        cases items with
        | nil => exact absurd h bind_reject_ne_ok
        | cons tag items =>
            obtain ⟨kind, hKind, h⟩ := bind_eq_ok_iff.mp h
            obtain ⟨values, hItems, h⟩ := bind_eq_ok_iff.mp h
            obtain ⟨_, hEnding, hContent⟩ := bind_eq_ok_iff.mp h
            cases Ending.check_eq_ok_iff.mp (orDamaged_eq_ok_iff.mp hEnding)
            exact ⟨left, kind, _, rfl, .elements hKind (mapM_eq_ok_iff.mp hItems),
              ofContent_eq_ok_iff.mp hContent⟩
    | object members atKey ending =>
        obtain ⟨left, rfl, h⟩ := enter_eq_ok_iff.mp h
        obtain ⟨⟨kind, entries⟩, hCollect, h⟩ := bind_eq_ok_iff.mp h
        obtain ⟨_, hEnding, h⟩ := bind_eq_ok_iff.mp h
        obtain ⟨k, hRequired, hContent⟩ := bind_eq_ok_iff.mp h
        obtain ⟨named, hNamed⟩ := exists_readKey_of_collect hCollect
        rw [hNamed] at hCollect
        obtain ⟨hFills, hEntries⟩ := collect_all_eq_ok_iff.mp hCollect
        cases requireKind_eq_ok_iff.mp hRequired
        cases Ending.check_eq_ok_iff.mp (orDamaged_eq_ok_iff.mp hEnding)
        exact ⟨left, k, _, rfl, .entries (keysRead_iff.mpr hNamed) hFills hEntries,
          ofContent_eq_ok_iff.mp hContent⟩
    | _ => exact absurd h bind_reject_ne_ok
  · rintro ⟨left, kind, content, rfl, hTagged, hContent⟩
    rw [← ofContent_eq_ok_iff] at hContent
    cases hTagged with
    | elements hKind hItems =>
        refine bind_eq_ok_iff.mpr ⟨kind, hKind, ?_⟩
        exact bind_eq_ok_iff.mpr ⟨_, mapM_eq_ok_iff.mpr hItems, hContent⟩
    | entries hKeys hKind hEntries =>
        have hCollect := collect_all_eq_ok_iff.mpr ⟨hKind, hEntries⟩
        rw [← keysRead_iff.mp hKeys] at hCollect
        exact bind_eq_ok_iff.mpr ⟨_, hCollect, hContent⟩

end Property

end EventManifest
