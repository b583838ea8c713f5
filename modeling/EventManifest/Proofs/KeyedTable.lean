import EventManifest.KeyedTable
import Mathlib.Data.List.Basic

/-!
Tables by what they hold under a key. Inserting and merging never change an entry that is there. The
order of the entries has no part in what is found under a key.
-/

namespace EventManifest

namespace KeyedTable

variable {α : Type}

/-- The first entry under a key is the one that counts. Stated for keys of any type, since folders
are searched by paths. -/
theorem lookup_cons_eq_ite {κ : Type} [BEq κ] [LawfulBEq κ] [DecidableEq κ] (key : κ)
    (first : κ × α) (rest : List (κ × α)) :
    (first :: rest).lookup key = if key = first.1 then some first.2 else rest.lookup key := by
  rw [List.lookup_cons]
  by_cases hKey : key = first.1
  · simp [hKey]
  · simp [hKey, beq_eq_false_iff_ne.mpr hKey]

theorem lookup_eq_none_of_lt {key : String} {entries : List (String × α)}
    (h : ∀ entry ∈ entries, key < entry.1) : entries.lookup key = none := by
  rw [List.lookup_eq_none_iff]
  intro entry hEntry
  simpa using String.ne_of_lt (h entry hEntry)

/-- An entry that is put among sorted ones is found under its key, unless there was one before,
which stays. What is found under other keys does not change. -/
theorem lookup_insertEntry (key other : String) (value : α) {entries : List (String × α)}
    (h : entries.Pairwise fun a b => a.1 < b.1) :
    (insertEntry key value entries).lookup other =
      if other = key then some ((entries.lookup key).getD value) else entries.lookup other := by
  induction entries with
  | nil => simp [insertEntry, lookup_cons_eq_ite]
  | cons first rest ih =>
      obtain ⟨hFirst, hRest⟩ := List.pairwise_cons.mp h
      simp only [insertEntry]
      split
      · rename_i hLess
        -- All keys of the table come later, so the new one is not among them.
        have hAbsent : (first :: rest).lookup key = none := by
          refine lookup_eq_none_of_lt fun entry hEntry => ?_
          rcases List.mem_cons.mp hEntry with rfl | hLater
          · exact hLess
          · exact String.lt_trans hLess (hFirst entry hLater)
        rw [lookup_cons_eq_ite, hAbsent, Option.getD_none]
      · split
        · rename_i hSame
          by_cases hOther : other = key
          · rw [if_pos hOther, hOther, lookup_cons_eq_ite, if_pos hSame, Option.getD_some]
          · rw [if_neg hOther]
        · rename_i hDifferent
          rw [lookup_cons_eq_ite, ih hRest, lookup_cons_eq_ite key, if_neg hDifferent,
            lookup_cons_eq_ite]
          by_cases hHere : other = first.1
          · have hOther : other ≠ key := fun hKey => hDifferent (hKey.symm.trans hHere)
            rw [if_pos hHere, if_neg hOther, if_pos hHere]
          · rw [if_neg hHere, if_neg hHere]

/-- The first value under a key stays, and a later one is not kept. -/
theorem get?_insert (t : KeyedTable α) (key other : String) (value : α) :
    (t.insert key value).get? other =
      if other = key then some ((t.get? key).getD value) else t.get? other :=
  lookup_insertEntry key other value t.sorted

/-- Many entries are taken one after the other. Under each key the table keeps its own value, and
else takes the first that comes. -/
theorem get?_insertAll (t : KeyedTable α) (entries : List (String × α)) (key : String) :
    (t.insertAll entries).get? key = (t.get? key).or (entries.lookup key) := by
  induction entries generalizing t with
  | nil => simp [insertAll]
  | cons first rest ih =>
      rw [insertAll, List.foldl_cons, ← insertAll, ih, get?_insert, lookup_cons_eq_ite]
      by_cases hKey : key = first.1
      · rw [if_pos hKey, if_pos hKey, ← hKey]
        cases t.get? key with
        | none => rfl
        | some value => rfl
      · rw [if_neg hKey, if_neg hKey]

/-- A merge asks the receiver first, and the other table only under keys that the receiver does not
have. -/
theorem get?_merge (t other : KeyedTable α) (key : String) :
    (t.merge other).get? key = (t.get? key).or (other.get? key) :=
  get?_insertAll t other.entries key

/-- Under each key there is one entry, so that listing the entries and looking up their keys come to
the same. -/
theorem mem_entries_iff {t : KeyedTable α} {key : String} {value : α} :
    (key, value) ∈ t.entries ↔ t.get? key = some value := by
  obtain ⟨entries, hSorted⟩ := t
  simp only [get?]
  induction entries with
  | nil => simp
  | cons first rest ih =>
      obtain ⟨hFirst, hRest⟩ := List.pairwise_cons.mp hSorted
      rw [List.mem_cons, lookup_cons_eq_ite, ih hRest, Prod.ext_iff]
      by_cases hKey : key = first.1
      · have hAbsent : rest.lookup key = none :=
          lookup_eq_none_of_lt fun entry hEntry => hKey ▸ hFirst entry hEntry
        simp [hKey, hKey ▸ hAbsent, eq_comm]
      · simp [hKey]

theorem mem_map_fst_iff {t : KeyedTable α} {key : String} :
    key ∈ t.entries.map Prod.fst ↔ ∃ value, t.get? key = some value := by
  simp only [List.mem_map, ← mem_entries_iff]
  constructor
  · rintro ⟨⟨_, value⟩, hEntry, rfl⟩
    exact ⟨value, hEntry⟩
  · rintro ⟨value, hEntry⟩
    exact ⟨(key, value), hEntry, rfl⟩

end KeyedTable

end EventManifest
