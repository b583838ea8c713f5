/-!
Tables in the order of their keys. A key keeps the value it was first given, whatever is inserted or
merged later. Strings are compared by code points, which is also the order of their UTF-8 bytes.
-/

namespace EventManifest

structure KeyedTable (α : Type) where
  entries : List (String × α)
  /-- The keys increase. -/
  sorted : entries.Pairwise fun a b => a.1 < b.1

namespace KeyedTable

variable {α : Type}

/-- Put an entry in its place, unless its key is there already. -/
def insertEntry (key : String) (value : α) : List (String × α) → List (String × α)
  | [] => [(key, value)]
  | entry :: entries =>
      if key < entry.1 then (key, value) :: entry :: entries
      else if key = entry.1 then entry :: entries
      else entry :: insertEntry key value entries

/-- Inserting adds no key but the given one. -/
theorem mem_insertEntry {key : String} {value : α} {entries : List (String × α)}
    {entry : String × α} (h : entry ∈ insertEntry key value entries) :
    entry = (key, value) ∨ entry ∈ entries := by
  induction entries with
  | nil => simpa [insertEntry] using h
  | cons first rest ih =>
      simp only [insertEntry] at h
      split at h
      · simpa using h
      · split at h
        · exact Or.inr h
        · rcases List.mem_cons.mp h with hFirst | hRest
          · exact Or.inr (hFirst ▸ List.mem_cons_self)
          · exact (ih hRest).imp_right (List.mem_cons_of_mem _)

theorem sorted_insertEntry (key : String) (value : α) {entries : List (String × α)}
    (h : entries.Pairwise fun a b => a.1 < b.1) :
    (insertEntry key value entries).Pairwise fun a b => a.1 < b.1 := by
  induction entries with
  | nil => simp [insertEntry]
  | cons first rest ih =>
      obtain ⟨hFirst, hRest⟩ := List.pairwise_cons.mp h
      simp only [insertEntry]
      split
      · rename_i hLess
        refine List.pairwise_cons.mpr ⟨fun entry hEntry => ?_, h⟩
        rcases List.mem_cons.mp hEntry with hSame | hLater
        · exact hSame ▸ hLess
        · exact String.lt_trans hLess (hFirst entry hLater)
      · split
        · exact h
        · rename_i hNotLess hDifferent
          refine List.pairwise_cons.mpr ⟨fun entry hEntry => ?_, ih hRest⟩
          rcases mem_insertEntry hEntry with hNew | hOld
          · subst hNew
            exact Std.lt_of_le_of_ne (Std.not_lt.mp hNotLess) fun h => hDifferent h.symm
          · exact hFirst entry hOld

def empty : KeyedTable α :=
  ⟨[], .nil⟩

def insert (key : String) (value : α) (t : KeyedTable α) : KeyedTable α :=
  ⟨insertEntry key value t.entries, sorted_insertEntry key value t.sorted⟩

/-- Whether the way to the place of a key meets no entry with that key. It ends at the first greater
one. -/
def isVacant (key : String) : List (String × α) → Bool
  | [] => true
  | entry :: entries =>
      if key < entry.1 then true
      else if key = entry.1 then false
      else isVacant key entries

/-- Insert, and tell whether the entry was taken. -/
def insertNew (key : String) (value : α) (t : KeyedTable α) : Bool × KeyedTable α :=
  (isVacant key t.entries, t.insert key value)

/-- Insert entries one after the other. -/
def insertAll (t : KeyedTable α) (entries : List (String × α)) : KeyedTable α :=
  entries.foldl (fun t entry => t.insert entry.1 entry.2) t

/-- Insert all entries of another table. -/
def merge (t other : KeyedTable α) : KeyedTable α :=
  t.insertAll other.entries

def get? (t : KeyedTable α) (key : String) : Option α :=
  t.entries.lookup key

def contains (t : KeyedTable α) (key : String) : Bool :=
  (t.get? key).isSome

def size (t : KeyedTable α) : Nat :=
  t.entries.length

end KeyedTable

end EventManifest
