import EventManifest.Proofs.Json.Fields
import EventManifest.Proofs.Json.Grammar
import Mathlib.Data.List.Perm.Basic

/-!
Texts that say the same in another form. Two trees are alike if they differ in the order of members
and in the spelling of text and numbers, at any depth. What is read from one of them is read from the
other: of the members of an object only those under one name are compared, and their order does not
count because there is at most one. Which fault is reported first may well depend on the order.
-/

namespace EventManifest.Json

open Outcome

/-! ### Lists in another order -/

/-- The elements of one list are related to those of another, in some order. -/
def Reordered {α β : Type} (R : α → β → Prop) (as : List α) (bs : List β) : Prop :=
  ∃ middle, as.Perm middle ∧ List.Forall₂ R middle bs

namespace Reordered

variable {α β γ δ : Type} {R : α → β → Prop} {as : List α} {bs : List β}

/-- Any order can be undone. -/
theorem symm {S : β → α → Prop} (h : Reordered R as bs) (hRS : ∀ a b, R a b → S b a) :
    Reordered S bs as := by
  obtain ⟨middle, hOrder, hRelated⟩ := h
  obtain ⟨other, hRelated, hOrder⟩ := List.perm_comp_forall₂ hOrder hRelated
  exact ⟨other, hOrder.symm, (hRelated.imp hRS).flip⟩

/-- What is kept on both sides is related in some order too. -/
theorem filter {p : α → Bool} {q : β → Bool} (h : Reordered R as bs)
    (hpq : ∀ a b, R a b → p a = q b) : Reordered R (as.filter p) (bs.filter q) := by
  obtain ⟨middle, hOrder, hRelated⟩ := h
  refine ⟨middle.filter p, hOrder.filter p, ?_⟩
  clear hOrder
  induction hRelated with
  | nil => exact .nil
  | @cons a b middle bs hHead _ ih =>
      rw [List.filter_cons, List.filter_cons, hpq a b hHead]
      cases q b with
      | false => exact ih
      | true => exact .cons hHead ih

theorem map {S : γ → δ → Prop} {f : α → γ} {g : β → δ} (h : Reordered R as bs)
    (hRS : ∀ a b, R a b → S (f a) (g b)) : Reordered S (as.map f) (bs.map g) := by
  obtain ⟨middle, hOrder, hRelated⟩ := h
  refine ⟨middle.map f, hOrder.map f, ?_⟩
  rw [List.forall₂_map_left_iff, List.forall₂_map_right_iff]
  exact hRelated.imp hRS

theorem eq_nil (h : Reordered R [] bs) : bs = [] := by
  obtain ⟨middle, hOrder, hRelated⟩ := h
  cases hOrder.nil_eq
  exact List.forall₂_nil_left_iff.mp hRelated

/-- One element has one partner, and no order. -/
theorem eq_singleton {a : α} (h : Reordered R [a] bs) : ∃ b, bs = [b] ∧ R a b := by
  obtain ⟨middle, hOrder, hRelated⟩ := h
  cases List.singleton_perm.mp hOrder
  obtain ⟨b, rest, hR, hRest, rfl⟩ := List.forall₂_cons_left_iff.mp hRelated
  cases List.forall₂_nil_left_iff.mp hRest
  exact ⟨b, rfl, hR⟩

theorem exists_of_mem (h : Reordered R as bs) {b : β} (hb : b ∈ bs) : ∃ a ∈ as, R a b := by
  obtain ⟨middle, hOrder, hRelated⟩ := h
  obtain ⟨a, ha, hR⟩ := exists_of_mem_right hRelated hb
  exact ⟨a, hOrder.mem_iff.mpr ha, hR⟩

end Reordered

section

variable {α β γ δ : Type} {R : α → β → Prop} {S : γ → δ → Prop} {F : α → γ → Prop}
  {G : β → δ → Prop} {as : List α} {bs : List β} {cs : List γ}

/-- What is made of the elements of a list one by one is made of related elements too. The results
are related place by place. -/
theorem forall₂_transfer (h : List.Forall₂ R as bs) (hMade : List.Forall₂ F as cs)
    (hStep : ∀ a b c, R a b → F a c → ∃ d, G b d ∧ S c d) :
    ∃ ds, List.Forall₂ G bs ds ∧ List.Forall₂ S cs ds := by
  induction h generalizing cs with
  | nil =>
      cases hMade
      exact ⟨[], .nil, .nil⟩
  | @cons a b _ _ hHead _ ih =>
      cases hMade with
      | @cons _ c _ _ hc hcs =>
          obtain ⟨d, hd, hcd⟩ := hStep a b c hHead hc
          obtain ⟨ds, hds, hcds⟩ := ih hcs
          exact ⟨d :: ds, .cons hd hds, .cons hcd hcds⟩

/-- The same in another order. The results stand in the order of what they are made from. -/
theorem Reordered.transfer (h : Reordered R as bs) (hMade : List.Forall₂ F as cs)
    (hStep : ∀ a b c, R a b → F a c → ∃ d, G b d ∧ S c d) :
    ∃ ds, List.Forall₂ G bs ds ∧ Reordered S cs ds := by
  obtain ⟨middle, hOrder, hRelated⟩ := h
  -- What was made of the first list is brought into the order of the second.
  obtain ⟨between, hMade, hSame⟩ := List.perm_comp_forall₂ hOrder.symm hMade
  obtain ⟨ds, hds, hcds⟩ := forall₂_transfer hRelated hMade hStep
  exact ⟨ds, hds, between, hSame.symm, hcds⟩

end

/-! ### Trees and values that are alike -/

/-- Trees of sound texts that differ in the order of members, in the spelling of text and in the
spelling of numbers only. Keys may occur more than once. A numeral too large for any number, or a
text with half a character, is alike to any other of that sort. -/
inductive Tree.Alike : Tree → Tree → Prop where
  | null : Alike .null .null
  | bool (value : Bool) : Alike (.bool value) (.bool value)
  | numeral {n n' : Numeral} (hValue : n.value? = n'.value?) : Alike (.numeral n) (.numeral n')
  | quoted {q q' : Quoted} (hClosed : q.ending = .closed) (hClosed' : q'.ending = .closed)
      (hRead : q.read = q'.read) : Alike (.quoted q) (.quoted q')
  | array {items items' : List Tree} (hLength : items.length = items'.length)
      (hItems : ∀ pair ∈ items.zip items', Alike pair.1 pair.2) :
      Alike (.array items .closed) (.array items' .closed)
  | object {members middle members' : List (Quoted × Tree)} (hOrder : members.Perm middle)
      (hKeys : middle.map (fun member => member.1.read) =
        members'.map fun member => member.1.read)
      (hMembers : ∀ pair ∈ middle.zip members', Alike pair.1.2 pair.2.2) :
      Alike (.object members false .closed) (.object members' false .closed)

/-- Values that differ in the order of members only. -/
inductive Alike : Json → Json → Prop where
  | null : Alike .null .null
  | bool (value : Bool) : Alike (.bool value) (.bool value)
  | number (value : Number) : Alike (.number value) (.number value)
  | string (value : String) : Alike (.string value) (.string value)
  | array {items items' : List Json} (hItems : List.Forall₂ Alike items items') :
      Alike (.array items) (.array items')
  | object {members middle members' : List (String × Json)} (hOrder : members.Perm middle)
      (hKeys : middle.map Prod.fst = members'.map Prod.fst)
      (hMembers : List.Forall₂ (fun member member' => Alike member.2 member'.2) middle members') :
      Alike (.object members) (.object members')

/-- Members of one name with related values. -/
def SameName {σ : Type} (R : σ → σ → Prop) (member member' : String × σ) : Prop :=
  member.1 = member'.1 ∧ R member.2 member'.2

namespace Tree.Alike

/-- Members whose keys are read alike, with trees that are alike. -/
def OfMember (member member' : Quoted × Tree) : Prop :=
  member.1.read = member'.1.read ∧ member.2.Alike member'.2

theorem forall₂_of_array {items items' : List Tree}
    (h : (Tree.array items .closed).Alike (.array items' .closed)) :
    List.Forall₂ Alike items items' := by
  cases h with
  | array hLength hItems => exact List.forall₂_iff_zip.mpr ⟨hLength, fun h => hItems _ h⟩

theorem array_of_forall₂ {items items' : List Tree} (h : List.Forall₂ Alike items items') :
    (Tree.array items .closed).Alike (.array items' .closed) :=
  .array h.length_eq fun _ hPair => List.forall₂_zip h hPair

/-- Objects that are alike have the same members in some order. Of equal names, any member may be
matched with any. -/
theorem reordered_of_object {members members' : List (Quoted × Tree)}
    (h : (Tree.object members false .closed).Alike (.object members' false .closed)) :
    Reordered OfMember members members' := by
  cases h with
  | @object _ middle _ hOrder hKeys hMembers =>
      rw [← List.forall₂_eq_eq_eq, List.forall₂_map_left_iff, List.forall₂_map_right_iff] at hKeys
      exact ⟨middle, hOrder, List.forall₂_iff_zip.mpr
        ⟨hKeys.length_eq, fun hPair => ⟨List.forall₂_zip hKeys hPair, hMembers _ hPair⟩⟩⟩

theorem object_of_reordered {members members' : List (Quoted × Tree)}
    (h : Reordered OfMember members members') :
    (Tree.object members false .closed).Alike (.object members' false .closed) := by
  obtain ⟨middle, hOrder, hMembers⟩ := h
  have hKeys : middle.map (fun member => member.1.read) =
      members'.map fun member => member.1.read := by
    rw [← List.forall₂_eq_eq_eq, List.forall₂_map_left_iff, List.forall₂_map_right_iff]
    exact hMembers.imp fun _ _ hMember => hMember.1
  exact .object hOrder hKeys fun _ hPair => (List.forall₂_zip hMembers hPair).2

theorem symm {tree tree' : Tree} (h : tree.Alike tree') : tree'.Alike tree := by
  induction h with
  | null => exact .null
  | bool value => exact .bool value
  | numeral hValue => exact .numeral hValue.symm
  | quoted hClosed hClosed' hRead => exact .quoted hClosed' hClosed hRead.symm
  | array hLength _ ih =>
      have hItems := List.forall₂_iff_zip.mpr ⟨hLength, fun hPair => ih _ hPair⟩
      exact array_of_forall₂ hItems.flip
  | @object members middle members' hOrder hKeys _ ih =>
      rw [← List.forall₂_eq_eq_eq, List.forall₂_map_left_iff, List.forall₂_map_right_iff] at hKeys
      have hBack : List.Forall₂ (fun member member' => OfMember member' member) middle members' :=
        List.forall₂_iff_zip.mpr ⟨hKeys.length_eq, fun hPair =>
          ⟨(List.forall₂_zip hKeys hPair).symm, ih _ hPair⟩⟩
      exact object_of_reordered (Reordered.symm ⟨middle, hOrder, hBack⟩ fun _ _ h => h)

/-- At one glance trees that are alike look the same. A message that tells what was found is
therefore the same. -/
theorem found_eq {tree tree' : Tree} (h : tree.Alike tree') : tree.found = tree'.found := by
  cases h with
  | numeral hValue => rw [found, found, Numeral.read, Numeral.read, hValue]
  | quoted _ _ hRead => rw [found, found, hRead]
  | _ => rfl

theorem isNull_eq {tree tree' : Tree} (h : tree.Alike tree') : tree.isNull = tree'.isNull := by
  cases h <;> rfl

/-- Whatever is alike to another tree can be stepped over, since only sound trees are alike. -/
theorem skip_eq_ok {tree tree' : Tree} (h : tree.Alike tree') : tree'.skip = .ok () := by
  cases h with
  | quoted _ hClosed' _ => rw [skip, hClosed']; rfl
  | _ => rfl

end Tree.Alike

namespace Alike

theorem reordered_of_object {members members' : List (String × Json)}
    (h : (Json.object members).Alike (.object members')) :
    Reordered (SameName Alike) members members' := by
  cases h with
  | @object _ middle _ hOrder hKeys hMembers =>
      rw [← List.forall₂_eq_eq_eq, List.forall₂_map_left_iff, List.forall₂_map_right_iff] at hKeys
      exact ⟨middle, hOrder, List.forall₂_iff_zip.mpr
        ⟨hKeys.length_eq, fun hPair =>
          ⟨List.forall₂_zip hKeys hPair, List.forall₂_zip hMembers hPair⟩⟩⟩

theorem object_of_reordered {members members' : List (String × Json)}
    (h : Reordered (SameName Alike) members members') :
    (Json.object members).Alike (.object members') := by
  obtain ⟨middle, hOrder, hMembers⟩ := h
  have hKeys : middle.map Prod.fst = members'.map Prod.fst := by
    rw [← List.forall₂_eq_eq_eq, List.forall₂_map_left_iff, List.forall₂_map_right_iff]
    exact hMembers.imp fun _ _ hMember => hMember.1
  exact .object hOrder hKeys (hMembers.imp fun _ _ hMember => hMember.2)

theorem found_eq {value value' : Json} (h : value.Alike value') : value.found = value'.found := by
  cases h <;> rfl

theorem isNull_eq {value value' : Json} (h : value.Alike value') : value.isNull = value'.isNull := by
  cases h <;> rfl

end Alike

/-- Trees that are alike are read in full as values that are alike. The room is the same, as they
nest equally deep. -/
theorem Tree.Alike.exists_toJson {tree tree' : Tree} (h : tree.Alike tree') {room : Nat}
    {value : Json} (hRead : tree.toJson room = .ok value) :
    ∃ value', tree'.toJson room = .ok value' ∧ value.Alike value' := by
  induction room using Nat.strongRecOn generalizing tree tree' value with
  | ind room ih =>
      have hAlike := h
      cases h with
      | null =>
          refine ⟨value, hRead, ?_⟩
          cases room <;> cases hRead <;> exact .null
      | bool b =>
          refine ⟨value, hRead, ?_⟩
          cases room <;> cases hRead <;> exact .bool b
      | @numeral n n' hValue =>
          rw [toJson_numeral, map_eq_ok_iff] at hRead
          obtain ⟨number, hRead, rfl⟩ := hRead
          rw [Numeral.read, hValue, ← Numeral.read] at hRead
          exact ⟨_, by rw [toJson_numeral, hRead]; rfl, .number number⟩
      | quoted _ _ hSame =>
          rw [toJson_quoted, map_eq_ok_iff] at hRead
          obtain ⟨text, hRead, rfl⟩ := hRead
          rw [hSame] at hRead
          exact ⟨_, by rw [toJson_quoted, hRead]; rfl, .string text⟩
      | array _ _ =>
          obtain ⟨left, values, rfl, _, rfl, hValues⟩ := toJson_array_eq_ok_iff.mp hRead
          obtain ⟨values', hValues', hAlike⟩ := forall₂_transfer hAlike.forall₂_of_array hValues
            fun _ _ _ hItem => ih left (Nat.lt_succ_self left) hItem
          exact ⟨_, toJson_array_eq_ok_iff.mpr ⟨left, values', rfl, rfl, rfl, hValues'⟩,
            .array hAlike⟩
      | object _ _ _ =>
          obtain ⟨left, entries, rfl, _, rfl, hEntries⟩ := toJson_object_eq_ok_iff.mp hRead
          have hStep (member member' : Quoted × Tree) (entry : String × Json)
              (hMember : OfMember member member')
              (hEntry : member.1.read = .ok entry.1 ∧ member.2.toJson left = .ok entry.2) :
              ∃ entry', (member'.1.read = .ok entry'.1 ∧ member'.2.toJson left = .ok entry'.2) ∧
                SameName Json.Alike entry entry' := by
            obtain ⟨value', hValue', hAlike⟩ := ih left (Nat.lt_succ_self left) hMember.2 hEntry.2
            exact ⟨(entry.1, value'), ⟨hMember.1 ▸ hEntry.1, hValue'⟩, rfl, hAlike⟩
          obtain ⟨entries', hEntries', hReordered⟩ :=
            hAlike.reordered_of_object.transfer hEntries hStep
          exact ⟨_, toJson_object_eq_ok_iff.mpr ⟨left, entries', rfl, rfl, rfl, hEntries'⟩,
            Json.Alike.object_of_reordered hReordered⟩

/-! ### Codecs -/

section

variable {σ α β : Type} {R : σ → σ → Prop}

/-- Reading does not tell related sources apart. -/
def Codec.Blind (R : σ → σ → Prop) (c : Codec σ α) : Prop :=
  ∀ ⦃room source source' a⦄, R source source' → c.read room source = .ok a →
    c.read room source' = .ok a

/-- Related sources look alike at one glance. -/
structure Resembles [Source σ] (R : σ → σ → Prop) : Prop where
  found_eq : ∀ ⦃source source'⦄, R source source' → Source.found source = Source.found source'
  isNull_eq : ∀ ⦃source source'⦄, R source source' → Source.isNull source = Source.isNull source'

theorem Tree.alike_resembles : Resembles Tree.Alike :=
  ⟨fun _ _ h => h.found_eq, fun _ _ h => h.isNull_eq⟩

theorem alike_resembles : Resembles Json.Alike :=
  ⟨fun _ _ h => congrArg Except.ok h.found_eq, fun _ _ h => h.isNull_eq⟩

namespace Codec

/-- What is read at one glance does not tell sources apart that look alike. -/
theorem scalar_blind [Source σ] (hR : Resembles R) (interpret : Found → Except Fault α)
    (write : α → Json) : (scalar interpret write : Codec σ α).Blind R := by
  intro room source source' a hSource hRead
  dsimp only [scalar] at hRead ⊢
  rwa [← hR.found_eq hSource]

/-- A conversion sees the value only, not its source. -/
theorem Blind.convert {c : Codec σ α} (h : c.Blind R) (forth : α → β) (back : β → α) :
    (c.convert forth back).Blind R := by
  intro room source source' b hSource hRead
  obtain ⟨a, hRead, hForth⟩ := map_eq_ok_iff.mp hRead
  exact map_eq_ok_iff.mpr ⟨a, h hSource hRead, hForth⟩

theorem text_blind [Source σ] (hR : Resembles R) : (text : Codec σ String).Blind R :=
  scalar_blind hR _ _

theorem flag_blind [Source σ] (hR : Resembles R) : (flag : Codec σ Bool).Blind R :=
  scalar_blind hR _ _

theorem natural_blind [Source σ] (hR : Resembles R) (bits : Nat) :
    (natural bits : Codec σ Nat).Blind R :=
  scalar_blind hR _ _

/-- Null looks like null in every spelling. -/
theorem Blind.nullable [Source σ] (hR : Resembles R) {c : Codec σ α} (h : c.Blind R) :
    c.nullable.Blind R := by
  intro room source source' result hSource hRead
  rw [nullable_read_eq_ok_iff] at hRead ⊢
  rw [← hR.isNull_eq hSource]
  apply hRead.imp_right
  rintro ⟨hNull, a, hRead, hResult⟩
  exact ⟨hNull, a, h hSource hRead, hResult⟩

/-- Lists keep the order of their elements. Blindness is about what is inside these. -/
theorem Blind.list {c : Codec Tree α} (h : c.Blind Tree.Alike) : c.list.Blind Tree.Alike := by
  intro room tree tree' as hAlike hRead
  obtain ⟨left, items, rfl, rfl, hItems⟩ := list_read_eq_ok_iff.mp hRead
  have hArray := hAlike
  cases hAlike with
  | @array _ items' _ _ =>
      obtain ⟨as', hItems', hSame⟩ := forall₂_transfer hArray.forall₂_of_array hItems
        fun _ _ a hItem hRead => ⟨a, h hItem hRead, rfl⟩
      rw [List.forall₂_eq_eq_eq] at hSame
      exact list_read_eq_ok_iff.mpr ⟨left, items', rfl, rfl, hSame ▸ hItems'⟩

end Codec

/-! ### Members and records -/

/-- What stands under a name is the same up to order. -/
theorem valuesAt_reordered {members members' : List (String × σ)}
    (h : Reordered (SameName R) members members') (name : String) :
    Reordered R (valuesAt name members) (valuesAt name members') := by
  have hNamed := h.filter (p := fun member => decide (member.1 = name))
    (q := fun member => decide (member.1 = name)) fun _ _ hMember => by rw [hMember.1]
  exact hNamed.map fun _ _ hMember => hMember.2

/-- A draft is filled once at most, so there is no order of its sources. Two sources are refused in
any order. -/
theorem Fills.reordered {read : σ → Except Fault β} {draft draft' : Option β}
    {sources sources' : List σ} (h : Fills read draft sources draft')
    (hSources : Reordered R sources sources')
    (hRead : ∀ ⦃source source' value⦄, R source source' → read source = .ok value →
      read source' = .ok value) : Fills read draft sources' draft' := by
  cases h with
  | unmet =>
      cases hSources.eq_nil
      exact .unmet _
  | met hValue =>
      obtain ⟨source', rfl, hSource⟩ := hSources.eq_singleton
      exact .met (hRead hSource hValue)

/-- A record in the form of an array has no members to be reordered, but its elements may have. -/
theorem Values.InOrder.alike {room : Nat} {fields : List (Field σ)} {items items' : List σ}
    {values : Values fields} (h : InOrder room fields items values)
    (hItems : List.Forall₂ R items items') (hFields : ∀ field ∈ fields, field.codec.Blind R) :
    InOrder room fields items' values := by
  induction fields generalizing items items' with
  | nil =>
      cases h
      exact List.forall₂_nil_left_iff.mp hItems
  | cons field fields ih =>
      rw [List.forall_mem_cons] at hFields
      cases hItems with
      | nil => exact ⟨h.1, ih h.2 .nil hFields.2⟩
      | cons hHead hTail => exact ⟨hFields.1 hHead h.1, ih h.2 hTail hFields.2⟩

/-- Members that are alike have their keys read alike. Keys may be spelled in other ways, such as by
codes. -/
theorem KeysRead.exists_reordered {members members' : List (Quoted × Tree)}
    {named : List (String × Tree)} (h : KeysRead members named)
    (hMembers : Reordered Tree.Alike.OfMember members members') :
    ∃ named', KeysRead members' named' ∧ Reordered (SameName Tree.Alike) named named' := by
  apply hMembers.transfer h
  rintro member member' other ⟨hKey, hAlike⟩ ⟨hRead, hTree⟩
  exact ⟨(other.1, member'.2), ⟨hKey ▸ hRead, rfl⟩, rfl, hTree ▸ hAlike⟩

namespace Record

/-- The members of a record may come in any order. This holds for successes; of several faults
another one may come first. -/
theorem Gives.reordered {r : Record σ α} {room : Nat} {members members' : List (String × σ)} {a : α}
    (h : r.Gives room members a) (hMembers : Reordered (SameName R) members members')
    (hFields : ∀ field ∈ r.fields, field.codec.Blind R) : r.Gives room members' a := by
  obtain ⟨values, hValues, hBuild⟩ := h
  refine ⟨values, hValues.imp fun field hField value hGives => ?_, hBuild⟩
  obtain ⟨draft, hFills, hValue⟩ := hGives
  exact ⟨draft, hFills.reordered (valuesAt_reordered hMembers field.name)
    fun _ _ _ hSource => hFields field hField hSource, hValue⟩

theorem Lists.alike {r : Record σ α} {room : Nat} {items items' : List σ} {a : α}
    (h : r.Lists room items a) (hItems : List.Forall₂ R items items')
    (hFields : ∀ field ∈ r.fields, field.codec.Blind R) : r.Lists room items' a := by
  obtain ⟨values, hValues, hBuild⟩ := h
  exact ⟨values, hValues.alike hItems hFields, hBuild⟩

/-- Records are read from objects with their members in any order. Fields of equal names are
excluded, since the first would hide the others. -/
theorem codec_blind {r : Record Tree α} (hDistinct : r.Distinct)
    (hFields : ∀ field ∈ r.fields, field.codec.Blind Tree.Alike) : r.codec.Blind Tree.Alike := by
  intro room tree tree' a hAlike hRead
  have hTrees := hAlike
  dsimp only [codec] at hRead ⊢
  cases hAlike with
  | array _ _ =>
      obtain ⟨left, hRoom, _, hLists⟩ := ofTree_array_eq_ok_iff.mp hRead
      exact ofTree_array_eq_ok_iff.mpr
        ⟨left, hRoom, rfl, hLists.alike hTrees.forall₂_of_array hFields⟩
  | object _ _ _ =>
      obtain ⟨left, named, hRoom, _, hKeys, _, hGives⟩ :=
        (ofTree_object_eq_ok_iff hDistinct).mp hRead
      obtain ⟨named', hKeys', hNamed⟩ := hKeys.exists_reordered hTrees.reordered_of_object
      have hSkip (member : String × Tree) (hMember : member ∈ named') :
          member.2.skip = .ok () := by
        obtain ⟨_, _, hSame⟩ := hNamed.exists_of_mem hMember
        exact hSame.2.skip_eq_ok
      exact (ofTree_object_eq_ok_iff hDistinct).mpr ⟨left, named', hRoom, rfl, hKeys',
        fun member hMember _ => hSkip member hMember, hGives.reordered hNamed hFields⟩
  | _ => exact absurd hRead bind_reject_ne_ok

end Record

end

/-! ### The codecs of a text -/

namespace Tree.Alike

theorem text_blind : (Codec.text : Codec Tree String).Blind Alike :=
  Codec.text_blind alike_resembles

theorem flag_blind : (Codec.flag : Codec Tree Bool).Blind Alike :=
  Codec.flag_blind alike_resembles

theorem word8_blind : (Codec.word8 : Codec Tree UInt8).Blind Alike :=
  (Codec.natural_blind alike_resembles 8).convert _ _

theorem word16_blind : (Codec.word16 : Codec Tree UInt16).Blind Alike :=
  (Codec.natural_blind alike_resembles 16).convert _ _

theorem word32_blind : (Codec.word32 : Codec Tree UInt32).Blind Alike :=
  (Codec.natural_blind alike_resembles 32).convert _ _

theorem word64_blind : (Codec.word64 : Codec Tree UInt64).Blind Alike :=
  (Codec.natural_blind alike_resembles 64).convert _ _

theorem nullable_text_blind : (Codec.text : Codec Tree String).nullable.Blind Alike :=
  text_blind.nullable alike_resembles

end Tree.Alike

/-! ### Texts -/

/-- Texts of the same content: blanks, the order of members and the spelling of text and numbers may
differ. -/
def Equivalent (text text' : String) : Prop :=
  ∃ tree tree', Document text.toList tree ∧ Document text'.toList tree' ∧ tree.Alike tree'

/-- Texts of the same content are so in both directions. No claim is made about texts that are not
sound. -/
theorem Equivalent.symm {text text' : String} (h : Equivalent text text') :
    Equivalent text' text := by
  obtain ⟨tree, tree', hDocument, hDocument', hAlike⟩ := h
  exact ⟨tree', tree, hDocument', hDocument, hAlike.symm⟩

end EventManifest.Json
