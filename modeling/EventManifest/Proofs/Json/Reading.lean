import EventManifest.Json.Codec
import EventManifest.Proofs.Outcome

/-!
What it takes to read a value, as equivalences: a value is read exactly if its parts are. Nothing is
said about which fault is reported where reading fails.
-/

namespace EventManifest.Json

open Outcome

variable {σ α β : Type}

/-- Damage is a fault like any other, and a success is passed through. -/
theorem orDamaged_eq_ok_iff {result : Except Damage α} {a : α} :
    orDamaged result = .ok a ↔ result = .ok a :=
  mapError_eq_ok_iff

/-- Only what was closed is whole. Texts that break off and those with something wrong in the place
of the end are refused alike. -/
theorem Ending.check_eq_ok_iff {ending : Ending} {u : Unit} :
    ending.check = .ok u ↔ ending = .closed := by
  cases ending <;> simp [Ending.check]

/-- One level of nesting takes one unit of the room. With no room left nothing is entered, whatever
it holds. -/
theorem enter_eq_ok_iff {room : Nat} {inside : Nat → Except Fault α} {a : α} :
    enter room inside = .ok a ↔ ∃ left, room = left + 1 ∧ inside left = .ok a := by
  cases room <;> simp [enter, breakOff]

/-- A rejection is never a success, even if the value that it would tell of could not be read. -/
theorem bind_reject_ne_ok {found : Except Fault β} {rejection : β → Rejection} {a : α} :
    (found >>= fun b => reject (rejection b)) ≠ .ok a := by
  cases found <;> exact fun h => by cases h

/-! ### Values in full -/

namespace Tree

/-- An array is read exactly if it is closed, there is room for it, and all its items are read with
the room that is left. -/
theorem toJson_array_eq_ok_iff {room : Nat} {items : List Tree} {ending : Ending} {value : Json} :
    (array items ending).toJson room = .ok value ↔
      ∃ left values, room = left + 1 ∧ ending = .closed ∧ value = .array values ∧
        List.Forall₂ (fun item value => toJson left item = .ok value) items values := by
  cases room with
  | zero => simp [toJson, breakOff]
  | succ left =>
      simp only [toJson, bind_eq_ok_iff, mapM_eq_ok_iff, orDamaged_eq_ok_iff,
        Ending.check_eq_ok_iff, pure_eq_ok_iff]
      constructor
      · rintro ⟨values, hValues, _, hEnding, rfl⟩
        exact ⟨left, values, rfl, hEnding, rfl, hValues⟩
      · rintro ⟨_, values, hLeft, hEnding, rfl, hValues⟩
        cases hLeft
        exact ⟨values, hValues, (), hEnding, rfl⟩

/-- So is an object, with its keys. Members of equal keys are all kept. -/
theorem toJson_object_eq_ok_iff {room : Nat} {members : List (Quoted × Tree)} {atKey : Bool}
    {ending : Ending} {value : Json} :
    (object members atKey ending).toJson room = .ok value ↔
      ∃ left entries, room = left + 1 ∧ ending = .closed ∧ value = .object entries ∧
        List.Forall₂
          (fun member entry => member.1.read = .ok entry.1 ∧ toJson left member.2 = .ok entry.2)
          members entries := by
  cases room with
  | zero => simp [toJson, breakOff]
  | succ left =>
      have hEach (member : Quoted × Tree) (entry : String × Json) :
          (∃ key, member.1.read = .ok key ∧
              ∃ value, toJson left member.2 = .ok value ∧ (key, value) = entry) ↔
            member.1.read = .ok entry.1 ∧ toJson left member.2 = .ok entry.2 := by
        constructor
        · rintro ⟨key, hKey, value, hValue, rfl⟩
          exact ⟨hKey, hValue⟩
        · rintro ⟨hKey, hValue⟩
          exact ⟨_, hKey, _, hValue, rfl⟩
      simp only [toJson, bind_eq_ok_iff, mapM_eq_ok_iff, orDamaged_eq_ok_iff,
        Ending.check_eq_ok_iff, pure_eq_ok_iff, hEach]
      constructor
      · rintro ⟨entries, hEntries, _, hEnding, rfl⟩
        exact ⟨left, entries, rfl, hEnding, rfl, hEntries⟩
      · rintro ⟨_, entries, hLeft, hEnding, rfl, hEntries⟩
        cases hLeft
        exact ⟨entries, hEntries, (), hEnding, rfl⟩

theorem toJson_numeral {room : Nat} {n : Numeral} :
    (numeral n).toJson room = (orDamaged n.read).map .number := by
  cases room <;> simp only [toJson] <;> cases orDamaged n.read <;> rfl

theorem toJson_quoted {room : Nat} {q : Quoted} :
    (quoted q).toJson room = (orDamaged q.read).map .string := by
  cases room <;> simp only [toJson] <;> cases orDamaged q.read <;> rfl

end Tree

/-! ### Lists and values that may be null -/

/-- Where null is allowed, null means that there is no value. Anything else has to be read in full;
it does not fall back to null. -/
theorem Codec.nullable_read_eq_ok_iff [Source σ] {c : Codec σ α} {room : Nat} {source : σ}
    {result : Option α} :
    c.nullable.read room source = .ok result ↔
      Source.isNull source = true ∧ result = none ∨
        Source.isNull source = false ∧ ∃ a, c.read room source = .ok a ∧ some a = result := by
  dsimp only [nullable]
  cases Source.isNull source with
  | true => simp [eq_comm]
  | false => simp [map_eq_ok_iff]

/-- A list is read from an array only, element by element. -/
theorem Codec.list_read_eq_ok_iff {c : Codec Tree α} {room : Nat} {tree : Tree} {as : List α} :
    c.list.read room tree = .ok as ↔
      ∃ left items, room = left + 1 ∧ tree = .array items .closed ∧
        List.Forall₂ (fun item a => c.read left item = .ok a) items as := by
  cases tree with
  | array items ending =>
      simp only [list, enter_eq_ok_iff, bind_eq_ok_iff, mapM_eq_ok_iff, orDamaged_eq_ok_iff,
        Ending.check_eq_ok_iff, pure_eq_ok_iff]
      constructor
      · rintro ⟨left, hRoom, values, hItems, _, rfl, rfl⟩
        exact ⟨left, items, hRoom, rfl, hItems⟩
      · rintro ⟨left, _, hRoom, hTree, hItems⟩
        cases hTree
        exact ⟨left, hRoom, as, hItems, (), rfl, rfl⟩
  | _ =>
      refine iff_of_false bind_reject_ne_ok ?_
      rintro ⟨_, _, _, hTree, _⟩
      cases hTree

end EventManifest.Json
