import EventManifest.Json.Record
import EventManifest.Proofs.Json.Reading

/-!
What it takes to read a record, said without the order in which its members are read. Every field
finds its value under its name, at most once, or has the value that it has when it is left out. So
neither the order of the members nor what stands among them matters.
-/

namespace EventManifest.Json

open Outcome

variable {σ α β : Type}

/-! ### Members by name -/

/-- What stands under a name. -/
def valuesAt (name : String) (members : List (String × σ)) : List σ :=
  (members.filter fun member => member.1 = name).map Prod.snd

/-- A member whose key has been read. -/
def readKey (member : String × σ) : Except Fault String × σ :=
  (.ok member.1, member.2)

@[simp] theorem valuesAt_nil (name : String) : valuesAt name ([] : List (String × σ)) = [] :=
  rfl

theorem valuesAt_cons_self (member : String × σ) (members : List (String × σ)) :
    valuesAt member.1 (member :: members) = member.2 :: valuesAt member.1 members := by
  simp [valuesAt]

theorem valuesAt_cons_of_ne {name : String} {member : String × σ} (h : member.1 ≠ name)
    (members : List (String × σ)) :
    valuesAt name (member :: members) = valuesAt name members := by
  simp [valuesAt, h]

/-- Setting members of one name aside does not touch another name. So the fields can be served one
after the other. -/
theorem valuesAt_filter_of_ne {name aside : String} (h : name ≠ aside)
    (members : List (String × σ)) :
    valuesAt name (members.filter fun member => member.1 ≠ aside) = valuesAt name members := by
  simp only [valuesAt, List.filter_filter]
  congr 1
  refine List.filter_congr fun member _ => ?_
  by_cases hName : member.1 = name
  · simp [hName, h]
  · simp [hName]

/-- The members of a tree with their keys read. -/
def KeysRead (members : List (Quoted × Tree)) (named : List (String × Tree)) : Prop :=
  List.Forall₂ (fun member other => member.1.read = .ok other.1 ∧ member.2 = other.2) members named

/-- The keys of all members are read exactly if they are read one by one. A damaged key spoils the
object even if no field has its name. -/
theorem keysRead_iff {members : List (Quoted × Tree)} {named : List (String × Tree)} :
    KeysRead members named ↔
      members.map (fun member => (orDamaged member.1.read, member.2)) = named.map readKey := by
  rw [← List.forall₂_eq_eq_eq, List.forall₂_map_left_iff, List.forall₂_map_right_iff, KeysRead]
  simp only [readKey, Prod.mk.injEq, orDamaged_eq_ok_iff]

/-- A draft before and after what stands under its name. It is filled at most once. -/
inductive Fills (read : σ → Except Fault β) : Option β → List σ → Option β → Prop where
  | unmet (draft : Option β) : Fills read draft [] draft
  | met {source : σ} {value : β} (hRead : read source = .ok value) :
      Fills read none [source] (some value)

theorem fills_nil_iff {read : σ → Except Fault β} {draft draft' : Option β} :
    Fills read draft [] draft' ↔ draft = draft' := by
  constructor
  · intro h
    cases h
    rfl
  · rintro rfl
    exact .unmet draft

/-- A draft takes a value only while it is empty. A second value under the name is not read at all;
it is refused. -/
theorem fills_cons_iff {read : σ → Except Fault β} {draft draft' : Option β} {source : σ}
    {sources : List σ} :
    Fills read draft (source :: sources) draft' ↔
      draft = none ∧ ∃ value, read source = .ok value ∧ Fills read (some value) sources draft' := by
  constructor
  · intro h
    cases h with
    | met hRead => exact ⟨rfl, _, hRead, .unmet _⟩
  · rintro ⟨rfl, value, hRead, hRest⟩
    cases hRest
    exact .met hRead

/-- The value that a field has in an object. -/
def Field.Gives (field : Field σ) (room : Nat) (members : List (String × σ))
    (value : field.Value) : Prop :=
  ∃ draft, Fills (field.codec.read room) none (valuesAt field.name members) draft ∧
    draft.or field.absent = some value

/-- The value that a field may have: what is read somewhere among the sources, or what it has when
it is left out. -/
def Field.Admits (field : Field σ) (room : Nat) (sources : List σ) (value : field.Value) : Prop :=
  field.absent = some value ∨ ∃ source ∈ sources, field.codec.read room source = .ok value

/-- What a field has in an object was read from one of its members, or is what stands for a missing
one. -/
theorem Field.Gives.admits {field : Field σ} {room : Nat} {members : List (String × σ)}
    {value : field.Value} (h : field.Gives room members value) :
    field.Admits room (members.map Prod.snd) value := by
  obtain ⟨draft, hFills, hValue⟩ := h
  generalize hSources : valuesAt field.name members = sources at hFills
  cases hFills with
  | unmet => exact Or.inl hValue
  | @met source _ hRead =>
      have hMember : source ∈ valuesAt field.name members := hSources ▸ List.mem_singleton_self _
      obtain ⟨member, hFound, rfl⟩ := List.mem_map.mp hMember
      refine Or.inr ⟨_, List.mem_map_of_mem (List.mem_of_mem_filter hFound), ?_⟩
      cases hValue
      exact hRead

namespace Values

/-- A property of each value together with its field. -/
def All (P : (field : Field σ) → field.Value → Prop) : (fields : List (Field σ)) →
    Values fields → Prop
  | [], _ => True
  | field :: fields, values => P field values.1 ∧ All P fields values.2

/-- A property of all values follows from another one field by field. -/
theorem All.imp {P Q : (field : Field σ) → field.Value → Prop} {fields : List (Field σ)}
    {values : Values fields} (h : All P fields values)
    (hImp : ∀ field ∈ fields, ∀ value, P field value → Q field value) : All Q fields values := by
  induction fields with
  | nil => trivial
  | cons field fields ih =>
      rw [List.forall_mem_cons] at hImp
      exact ⟨hImp.1 _ h.1, ih h.2 hImp.2⟩

/-- The values are given by elements in the order of the fields; those at the end may be left
out. -/
def InOrder (room : Nat) : (fields : List (Field σ)) → List σ → Values fields → Prop
  | [], items, _ => items = []
  | field :: fields, item :: items, values =>
      field.codec.read room item = .ok values.1 ∧ InOrder room fields items values.2
  | field :: fields, [], values => field.absent = some values.1 ∧ InOrder room fields [] values.2

/-- Elements in the order of the fields. Where they end early, the remaining fields have to do
without, and no element may be left over. -/
theorem ofItems_eq_ok_iff {room : Nat} {expected : String} {fields : List (Field σ)} {index : Nat}
    {items : List σ} {values : Values fields} :
    ofItems room (.ok ()) expected fields index items = .ok (values, []) ↔
      InOrder room fields items values := by
  induction fields generalizing index items with
  | nil =>
      cases items with
      | nil => exact iff_of_true rfl rfl
      | cons item items =>
          refine iff_of_false (fun h => ?_) (List.cons_ne_nil item items)
          cases Prod.mk.inj (Except.ok.inj h) with
          | intro _ hRest => cases hRest
  | cons field fields ih =>
      cases items with
      | cons item items =>
          simp only [ofItems, InOrder, bind_eq_ok_iff, pure_eq_ok_iff]
          constructor
          · rintro ⟨_, hHead, ⟨_, _⟩, hTail, hPair⟩
            cases hPair
            exact ⟨hHead, ih.mp hTail⟩
          · rintro ⟨hHead, hTail⟩
            exact ⟨values.1, hHead, (values.2, []), ih.mpr hTail, rfl⟩
      | nil =>
          simp only [ofItems, InOrder]
          cases hAbsent : field.absent with
          | none => exact iff_of_false (fun h => by cases h) (fun h => by cases h.1)
          | some value =>
              simp only [bind_eq_ok_iff, pure_eq_ok_iff]
              constructor
              · rintro ⟨_, _, ⟨_, _⟩, hTail, hPair⟩
                cases hPair
                exact ⟨rfl, ih.mp hTail⟩
              · rintro ⟨hHead, hTail⟩
                cases hHead
                exact ⟨(), trivial, (values.2, []), ih.mpr hTail, rfl⟩

/-- The value of each field was read from some element, or is what stands for a missing one. -/
theorem InOrder.all {room : Nat} {fields : List (Field σ)} {items : List σ}
    {values : Values fields} (h : InOrder room fields items values) :
    All (fun field value => field.Admits room items value) fields values := by
  induction fields generalizing items with
  | nil => trivial
  | cons field fields ih =>
      cases items with
      | nil => exact ⟨Or.inl h.1, ih h.2⟩
      | cons item items =>
          refine ⟨Or.inr ⟨item, List.mem_cons_self, h.1⟩, (ih h.2).imp fun other _ value hValue => ?_⟩
          exact hValue.imp_right fun ⟨source, hSource, hRead⟩ =>
            ⟨source, List.mem_cons_of_mem _ hSource, hRead⟩

end Values

/-! ### Drafts -/

namespace Drafts

variable {room : Nat} {skip : σ → Except Fault Unit} {field : Field σ} {fields : List (Field σ)}
  {draft draft' : Option field.Value} {drafts drafts' : Drafts fields}

/-- One member is taken by a field, or by none and then skipped. Skipping fails on what is not
well-formed. -/
theorem offerAll_cons_eq_ok_iff {member : String × σ} {members : List (Except Fault String × σ)} :
    offerAll room skip drafts (readKey member :: members) = .ok drafts' ↔
      (∃ taken, offer room member.1 member.2 fields drafts = .ok (some taken) ∧
          offerAll room skip taken members = .ok drafts') ∨
        offer room member.1 member.2 fields drafts = .ok none ∧ skip member.2 = .ok () ∧
          offerAll room skip drafts members = .ok drafts' := by
  rw [readKey, offerAll]
  simp only [bind_eq_ok_iff, Except.ok.injEq, exists_eq_left']
  constructor
  · rintro ⟨taken, hOffer, hRest⟩
    cases taken with
    | some taken => exact Or.inl ⟨taken, hOffer, hRest⟩
    | none =>
        obtain ⟨_, hSkip, hRest⟩ := bind_eq_ok_iff.mp hRest
        exact Or.inr ⟨hOffer, hSkip, hRest⟩
  · rintro (⟨taken, hOffer, hRest⟩ | ⟨hOffer, hSkip, hRest⟩)
    · exact ⟨some taken, hOffer, hRest⟩
    · exact ⟨none, hOffer, bind_eq_ok_iff.mpr ⟨(), hSkip, hRest⟩⟩

/-- Without fields all members are skipped. -/
theorem offerAll_nil_eq_ok_iff {members : List (String × σ)}
    {drafts drafts' : Drafts ([] : List (Field σ))} :
    offerAll room skip drafts (members.map readKey) = .ok drafts' ↔
      ∀ member ∈ members, skip member.2 = .ok () := by
  induction members with
  | nil => exact iff_of_true rfl (fun _ h => by cases h)
  | cons member members ih =>
      rw [List.map_cons, offerAll_cons_eq_ok_iff, List.forall_mem_cons, ← ih]
      simp [offer]

/-- The draft of one more field. -/
def cons (draft : Option field.Value) (drafts : Drafts fields) : Drafts (field :: fields) :=
  (draft, drafts)

theorem cons_inj :
    cons draft drafts = cons draft' drafts' ↔ draft = draft' ∧ drafts = drafts' :=
  iff_of_eq (Prod.mk.injEq draft drafts draft' drafts')

/-- The first field of a name takes the member. A field that is filled refuses it and does not pass
it on. -/
theorem offer_self_eq_ok_iff {source : σ} {taken : Option (Drafts (field :: fields))} :
    offer room field.name source (field :: fields) (cons draft drafts) = .ok taken ↔
      draft = none ∧ ∃ value, field.codec.read room source = .ok value ∧
        taken = some (cons (some value) drafts) := by
  simp only [cons, offer, if_pos]
  cases draft with
  | some value => exact iff_of_false (fun h => by cases h) (fun h => by cases h.1)
  | none =>
      simp only [bind_eq_ok_iff, pure_eq_ok_iff, true_and]
      exact exists_congr fun value => and_congr_right fun _ => eq_comm

/-- A field that has another name passes the member on, and keeps its draft. -/
theorem offer_of_ne {key : String} {source : σ} (h : field.name ≠ key) :
    offer room key source (field :: fields) (cons draft drafts) =
      (offer room key source fields drafts).map (Option.map (cons draft)) := by
  simp only [cons, offer, if_neg h]
  cases offer room key source fields drafts <;> rfl

/-- One field takes what stands under its name, and the others take the rest. With this a walk by
members becomes a walk by fields; it says nothing about which fault is met first. -/
theorem offerAll_field_eq_ok_iff {members : List (String × σ)} :
    offerAll room skip (cons draft drafts) (members.map readKey) = .ok (cons draft' drafts') ↔
      Fills (field.codec.read room) draft (valuesAt field.name members) draft' ∧
        offerAll room skip drafts
          ((members.filter fun member => member.1 ≠ field.name).map readKey) = .ok drafts' := by
  -- The drafts are general, because members before may have filled them.
  induction members generalizing draft drafts with
  | nil =>
      rw [valuesAt_nil, fills_nil_iff]
      simp only [List.map_nil, List.filter_nil, offerAll, Except.ok.injEq, cons_inj]
  | cons member members ih =>
      rw [List.map_cons, offerAll_cons_eq_ok_iff]
      by_cases hName : field.name = member.1
      · have hKept : (member :: members).filter (fun member => member.1 ≠ field.name) =
            members.filter fun member => member.1 ≠ field.name := by
          simp [hName]
        rw [hKept, hName, valuesAt_cons_self, fills_cons_iff, ← hName]
        simp only [offer_self_eq_ok_iff, Option.some.injEq, reduceCtorEq, and_false, exists_false,
          false_and, or_false]
        constructor
        · rintro ⟨_, ⟨rfl, value, hRead, rfl⟩, hRest⟩
          obtain ⟨hFills, hOthers⟩ := ih.mp hRest
          exact ⟨⟨rfl, value, hRead, hFills⟩, hOthers⟩
        · rintro ⟨⟨rfl, value, hRead, hFills⟩, hOthers⟩
          exact ⟨_, ⟨rfl, value, hRead, rfl⟩, ih.mpr ⟨hFills, hOthers⟩⟩
      · have hKept : (member :: members).filter (fun member => member.1 ≠ field.name) =
            member :: members.filter fun member => member.1 ≠ field.name := by
          simp [Ne.symm hName]
        rw [hKept, valuesAt_cons_of_ne (Ne.symm hName), List.map_cons, offerAll_cons_eq_ok_iff,
          offer_of_ne hName]
        simp only [map_eq_ok_iff, Option.map_eq_some_iff, Option.map_eq_none_iff, exists_eq_right]
        constructor
        · rintro (⟨_, ⟨_, hOffer, taken, rfl, rfl⟩, hRest⟩ | ⟨hOffer, hSkip, hRest⟩)
          · obtain ⟨hFills, hOthers⟩ := ih.mp hRest
            exact ⟨hFills, Or.inl ⟨taken, hOffer, hOthers⟩⟩
          · obtain ⟨hFills, hOthers⟩ := ih.mp hRest
            exact ⟨hFills, Or.inr ⟨hOffer, hSkip, hOthers⟩⟩
        · rintro ⟨hFills, ⟨taken, hOffer, hOthers⟩ | ⟨hOffer, hSkip, hOthers⟩⟩
          · exact Or.inl ⟨_, ⟨_, hOffer, taken, rfl, rfl⟩, ih.mpr ⟨hFills, hOthers⟩⟩
          · exact Or.inr ⟨hOffer, hSkip, ih.mpr ⟨hFills, hOthers⟩⟩

/-- A field that was not filled has what stands for a missing value, if there is such a thing. -/
theorem complete_cons_eq_ok_iff {values : Values (field :: fields)} :
    complete (field :: fields) (cons draft drafts) = .ok values ↔
      draft.or field.absent = some values.1 ∧ complete fields drafts = .ok values.2 := by
  rw [cons, complete]
  cases draft.or field.absent with
  | none => exact iff_of_false (fun h => by cases h) (fun h => by cases h.1)
  | some value =>
      refine Iff.trans bind_eq_ok_iff ?_
      constructor
      · rintro ⟨rest, hRest, hPair⟩
        cases hPair
        exact ⟨rfl, hRest⟩
      · rintro ⟨hHead, hRest⟩
        cases hHead
        exact ⟨_, hRest, rfl⟩

end Drafts

/-- A member that no field has the name of. -/
def Unnamed (fields : List (Field σ)) (member : String × σ) : Prop :=
  ∀ field ∈ fields, field.name ≠ member.1

/-- Reading members into fields, by fields. The order of the members is gone, and a field that is
named twice has no value. -/
theorem Drafts.exists_complete_iff {room : Nat} {skip : σ → Except Fault Unit}
    {fields : List (Field σ)} (hNames : (fields.map Field.name).Nodup)
    {members : List (String × σ)} {values : Values fields} :
    (∃ drafts, offerAll room skip (blank fields) (members.map readKey) = .ok drafts ∧
        complete fields drafts = .ok values) ↔
      (∀ member ∈ members, Unnamed fields member → skip member.2 = .ok ()) ∧
        Values.All (fun field value => field.Gives room members value) fields values := by
  -- The members of one field are set aside, which no other field notices because the names differ.
  induction fields generalizing members with
  | nil =>
      constructor
      · rintro ⟨drafts, hOffer, _⟩
        exact ⟨fun member hMember _ => offerAll_nil_eq_ok_iff.mp hOffer member hMember, trivial⟩
      · rintro ⟨hSkip, _⟩
        refine ⟨(), offerAll_nil_eq_ok_iff.mpr fun member hMember => ?_, rfl⟩
        exact hSkip member hMember fun _ hField => by cases hField
  | cons field fields ih =>
      rw [List.map_cons, List.nodup_cons] at hNames
      have hOther (other : Field σ) (hField : other ∈ fields) : other.name ≠ field.name :=
        fun h => hNames.1 (h ▸ List.mem_map_of_mem hField)
      have hGives (other : Field σ) (hField : other ∈ fields) (value : other.Value) :
          other.Gives room (members.filter fun member => member.1 ≠ field.name) value ↔
            other.Gives room members value := by
        rw [Field.Gives, Field.Gives, valuesAt_filter_of_ne (hOther other hField)]
      constructor
      · rintro ⟨⟨draft, drafts⟩, hOffer, hComplete⟩
        obtain ⟨hFills, hOthers⟩ := offerAll_field_eq_ok_iff.mp hOffer
        obtain ⟨hHead, hTail⟩ := complete_cons_eq_ok_iff.mp hComplete
        obtain ⟨hSkip, hAll⟩ := (ih hNames.2).mp ⟨drafts, hOthers, hTail⟩
        refine ⟨fun member hMember hUnnamed => ?_, ⟨draft, hFills, hHead⟩,
          hAll.imp fun other hField value => (hGives other hField value).mp⟩
        obtain ⟨hNot, hUnnamed⟩ := List.forall_mem_cons.mp hUnnamed
        exact hSkip member (List.mem_filter.mpr ⟨hMember, by simp [Ne.symm hNot]⟩) hUnnamed
      · rintro ⟨hSkip, ⟨draft, hFills, hHead⟩, hAll⟩
        have hRest := hAll.imp fun other hField value => (hGives other hField value).mpr
        have hKept : ∀ member ∈ members.filter fun member => member.1 ≠ field.name,
            Unnamed fields member → skip member.2 = .ok () := by
          intro member hMember hUnnamed
          obtain ⟨hMember, hNot⟩ := List.mem_filter.mp hMember
          have hNot := Ne.symm (of_decide_eq_true hNot)
          exact hSkip member hMember (List.forall_mem_cons.mpr ⟨hNot, hUnnamed⟩)
        obtain ⟨drafts, hOthers, hTail⟩ := (ih hNames.2).mpr ⟨hKept, hRest⟩
        exact ⟨cons draft drafts, offerAll_field_eq_ok_iff.mpr ⟨hFills, hOthers⟩,
          complete_cons_eq_ok_iff.mpr ⟨hHead, hTail⟩⟩

/-- Members can only be read if their keys can, whether or not a field wants them. -/
theorem Drafts.exists_readKey {room : Nat} {skip : σ → Except Fault Unit} {fields : List (Field σ)}
    {members : List (Except Fault String × σ)} {drafts drafts' : Drafts fields}
    (h : offerAll room skip drafts members = .ok drafts') :
    ∃ named : List (String × σ), members = named.map readKey := by
  induction members generalizing drafts with
  | nil => exact ⟨[], rfl⟩
  | cons member members ih =>
      obtain ⟨key, source⟩ := member
      cases key with
      | error fault => cases h
      | ok key =>
          have hRest : ∃ rest, offerAll room skip rest members = .ok drafts' := by
            have hStep := offerAll_cons_eq_ok_iff.mp (show offerAll room skip drafts
              (readKey (key, source) :: members) = .ok drafts' from h)
            rcases hStep with ⟨taken, _, hRest⟩ | ⟨_, _, hRest⟩
            · exact ⟨taken, hRest⟩
            · exact ⟨drafts, hRest⟩
          obtain ⟨rest, hRest⟩ := hRest
          obtain ⟨named, rfl⟩ := ih hRest
          exact ⟨(key, source) :: named, rfl⟩

/-! ### Records -/

namespace Record

variable {α : Type}

/-- The names of the fields are different. -/
def Distinct (r : Record σ α) : Prop :=
  (r.fields.map Field.name).Nodup

instance (r : Record σ α) : Decidable r.Distinct :=
  inferInstanceAs (Decidable (List.Nodup _))

/-- The members give a value to every field. -/
def Gives (r : Record σ α) (room : Nat) (members : List (String × σ)) (a : α) : Prop :=
  ∃ values, Values.All (fun field value => field.Gives room members value) r.fields values ∧
    r.build values = a

/-- The elements give a value to every field. -/
def Lists (r : Record σ α) (room : Nat) (items : List σ) (a : α) : Prop :=
  ∃ values, Values.InOrder room r.fields items values ∧ r.build values = a

/-- A record is read exactly if each field is given a value and all else can be skipped. Equal names
would make the first field take all. -/
theorem ofMembers_eq_ok_iff {r : Record σ α} (hDistinct : r.Distinct) {room : Nat}
    {skip : σ → Except Fault Unit} {members : List (String × σ)} {stop : Except Fault Unit}
    {a : α} :
    r.ofMembers room skip (members.map readKey) stop = .ok a ↔
      stop = .ok () ∧ (∀ member ∈ members, Unnamed r.fields member → skip member.2 = .ok ()) ∧
        r.Gives room members a := by
  simp only [ofMembers, bind_eq_ok_iff, pure_eq_ok_iff]
  constructor
  · rintro ⟨drafts, hOffer, _, hStop, values, hComplete, hBuild⟩
    obtain ⟨hSkip, hAll⟩ := (Drafts.exists_complete_iff hDistinct).mp ⟨drafts, hOffer, hComplete⟩
    exact ⟨hStop, hSkip, values, hAll, hBuild⟩
  · rintro ⟨hStop, hSkip, values, hAll, hBuild⟩
    obtain ⟨drafts, hOffer, hComplete⟩ :=
      (Drafts.exists_complete_iff hDistinct).mpr ⟨hSkip, hAll⟩
    exact ⟨drafts, hOffer, (), hStop, values, hComplete, hBuild⟩

/-- In a finished value everything can be skipped. Unknown members never do harm there. -/
theorem ofEntries_eq_ok_iff {r : Record Json α} (hDistinct : r.Distinct)
    {members : List (String × Json)} {a : α} :
    r.ofEntries members = .ok a ↔ r.Gives 0 members a := by
  refine (ofMembers_eq_ok_iff hDistinct).trans ?_
  simp

/-- A record may also be given as an array, without names. The order of the fields counts there. -/
theorem ofElements_eq_ok_iff {r : Record Json α} {items : List Json} {a : α} :
    r.ofElements items = .ok a ↔ r.Lists 0 items a := by
  simp only [ofElements, bind_eq_ok_iff]
  constructor
  · rintro ⟨⟨values, rest⟩, hItems, hRest⟩
    cases rest with
    | nil => exact ⟨values, Values.ofItems_eq_ok_iff.mp hItems, Except.ok.inj hRest⟩
    | cons item rest => cases hRest
  · rintro ⟨values, hItems, hBuild⟩
    exact ⟨(values, []), Values.ofItems_eq_ok_iff.mpr hItems, congrArg Except.ok hBuild⟩

/-- The same in a text, where the nesting is limited and every part has to be whole. Unknown members
are skipped, not ignored. -/
theorem ofTree_object_eq_ok_iff {r : Record Tree α} (hDistinct : r.Distinct) {room : Nat}
    {members : List (Quoted × Tree)} {atKey : Bool} {ending : Ending} {a : α} :
    r.ofTree room (.object members atKey ending) = .ok a ↔
      ∃ left named, room = left + 1 ∧ ending = .closed ∧ KeysRead members named ∧
        (∀ member ∈ named, Unnamed r.fields member → member.2.skip = .ok ()) ∧
          r.Gives left named a := by
  simp only [ofTree, enter_eq_ok_iff]
  constructor
  · rintro ⟨left, hRoom, hRead⟩
    obtain ⟨drafts, hOffer, _⟩ := bind_eq_ok_iff.mp hRead
    obtain ⟨named, hNamed⟩ := Drafts.exists_readKey hOffer
    rw [hNamed, ofMembers_eq_ok_iff hDistinct, orDamaged_eq_ok_iff, Ending.check_eq_ok_iff] at hRead
    exact ⟨left, named, hRoom, hRead.1, keysRead_iff.mpr hNamed, hRead.2⟩
  · rintro ⟨left, named, hRoom, hEnding, hNamed, hGives⟩
    refine ⟨left, hRoom, ?_⟩
    have hMembers := keysRead_iff.mp hNamed
    rw [hMembers, ofMembers_eq_ok_iff hDistinct, orDamaged_eq_ok_iff, Ending.check_eq_ok_iff]
    exact ⟨hEnding, hGives⟩

/-- An array in a text is limited in its nesting as well. -/
theorem ofTree_array_eq_ok_iff {r : Record Tree α} {room : Nat} {items : List Tree}
    {ending : Ending} {a : α} :
    r.ofTree room (.array items ending) = .ok a ↔
      ∃ left, room = left + 1 ∧ ending = .closed ∧ r.Lists left items a := by
  simp only [ofTree, enter_eq_ok_iff, bind_eq_ok_iff]
  constructor
  · rintro ⟨left, hRoom, ⟨values, rest⟩, hItems, hRest⟩
    cases rest with
    | cons item rest => cases hRest
    | nil =>
        obtain ⟨_, hStop, hBuild⟩ := bind_eq_ok_iff.mp hRest
        have hEnding := Ending.check_eq_ok_iff.mp (orDamaged_eq_ok_iff.mp hStop)
        cases hEnding
        exact ⟨left, hRoom, rfl, values, Values.ofItems_eq_ok_iff.mp hItems, Except.ok.inj hBuild⟩
  · rintro ⟨left, hRoom, rfl, values, hItems, rfl⟩
    exact ⟨left, hRoom, (values, []), Values.ofItems_eq_ok_iff.mpr hItems, rfl⟩

/-- However a record is written, its values come from its parts or are those of fields that were left
out. -/
theorem exists_admits_of_ofTree {r : Record Tree α} (hDistinct : r.Distinct) {room : Nat}
    {tree : Tree} {a : α} (h : r.ofTree room tree = .ok a) :
    ∃ left sources values, room = left + 1 ∧
      Values.All (fun field value => field.Admits left sources value) r.fields values ∧
        r.build values = a := by
  cases tree with
  | array items ending =>
      obtain ⟨left, hRoom, _, values, hItems, hBuild⟩ := ofTree_array_eq_ok_iff.mp h
      exact ⟨left, items, values, hRoom, hItems.all, hBuild⟩
  | object members atKey ending =>
      obtain ⟨left, named, hRoom, _, _, _, values, hGives, hBuild⟩ :=
        (ofTree_object_eq_ok_iff hDistinct).mp h
      exact ⟨left, _, values, hRoom, hGives.imp fun _ _ _ hValue => hValue.admits, hBuild⟩
  | _ => exact absurd h bind_reject_ne_ok

end Record

end EventManifest.Json
