import EventManifest.Proofs.Template.Table
import EventManifest.Proofs.Text.ByteOrder
import Mathlib.Data.List.Sort
import Mathlib.Logic.Function.Basic

/-!
Tables through their histories. However many tables there are, and in whatever order entries are
inserted into them and tables merged into each other, a table has under a key what came first to it,
and its entries stand in the order of the UTF-8 bytes of their keys. Merging is an operation of its
own: associative, idempotent, with the empty table as identity, and commutative in the keys.
-/

namespace EventManifest

namespace KeyedTable

variable {α : Type}

/-- No entry is listed twice, since the keys are sorted strictly. -/
theorem nodup_entries (t : KeyedTable α) : t.entries.Nodup :=
  t.sorted.imp fun hLess hSame => String.ne_of_lt hLess (congrArg Prod.fst hSame)

/-- A table is known by what it has under each key. Its entries are sorted, so there is no order
left to tell tables apart. -/
theorem ext_get? {t u : KeyedTable α} (h : ∀ key, t.get? key = u.get? key) : t = u := by
  have hPerm : t.entries.Perm u.entries := by
    rw [List.perm_ext_iff_of_nodup t.nodup_entries u.nodup_entries]
    rintro ⟨key, value⟩
    rw [mem_entries_iff, mem_entries_iff, h key]
  have hEntries : t.entries = u.entries := by
    apply hPerm.eq_of_pairwise _ t.sorted u.sorted
    intro a b _ _ hLess hGreater
    exact absurd (String.lt_trans hLess hGreater) (String.lt_irrefl _)
  cases t
  cases u
  cases hEntries
  rfl

theorem contains_eq_false_iff {t : KeyedTable α} {key : String} :
    t.contains key = false ↔ t.get? key = none := by
  rw [contains, Option.isSome_eq_false_iff, Option.isNone_iff_eq_none]

/-- The way to the place of a key meets the key wherever it is, since the entries are sorted. So a
new key can be told without a search of its own. -/
theorem isVacant_eq {entries : List (String × α)} (h : entries.Pairwise fun a b => a.1 < b.1)
    (key : String) : isVacant key entries = (entries.lookup key).isNone := by
  induction entries with
  | nil => rfl
  | cons first rest ih =>
      obtain ⟨hFirst, hRest⟩ := List.pairwise_cons.mp h
      rw [isVacant, lookup_cons_eq_ite, ih hRest]
      split
      · rename_i hLess
        -- The way ends here, and all further keys are greater still.
        have hLater : rest.lookup key = none :=
          lookup_eq_none_of_lt fun entry hEntry => String.lt_trans hLess (hFirst entry hEntry)
        rw [if_neg (String.ne_of_lt hLess), hLater]
        rfl
      · split
        · rfl
        · rfl

/-- An insertion tells whether the key was new. The value has no part in this. -/
theorem insertNew_fst (t : KeyedTable α) (key : String) (value : α) :
    (t.insertNew key value).1 = !t.contains key := by
  rw [insertNew, isVacant_eq t.sorted, contains, Option.not_isSome]
  rfl

/-- An entry that is not taken leaves the table as it is, even if its value is another one. -/
theorem insertNew_snd_of_contains {t : KeyedTable α} {key : String} (h : t.contains key = true)
    (value : α) : (t.insertNew key value).2 = t := by
  obtain ⟨kept, hKept⟩ := Option.isSome_iff_exists.mp h
  apply ext_get?
  intro other
  rw [insertNew, get?_insert, hKept, Option.getD_some]
  split
  · rename_i hOther
    rw [hOther, hKept]
  · rfl

section Merge

/-- It does not matter in which pairs tables are merged. Their order does, since the first value
under a key wins. -/
theorem merge_assoc (t u v : KeyedTable α) : (t.merge u).merge v = t.merge (u.merge v) := by
  apply ext_get?
  intro key
  rw [get?_merge, get?_merge, get?_merge, get?_merge, Option.or_assoc]

/-- A table has nothing new to give to itself. -/
theorem merge_self (t : KeyedTable α) : t.merge t = t := by
  apply ext_get?
  intro key
  rw [get?_merge, Option.or_self]

theorem merge_empty (t : KeyedTable α) : t.merge empty = t :=
  rfl

theorem empty_merge (t : KeyedTable α) : empty.merge t = t := by
  apply ext_get?
  intro key
  rw [get?_merge]
  rfl

/-- The keys of a table are sorted, so tables with the same keys list them alike. The values under
common keys may still depend on the order of the merge. -/
theorem map_fst_merge_comm (t u : KeyedTable α) :
    (t.merge u).entries.map Prod.fst = (u.merge t).entries.map Prod.fst := by
  have hSorted (v : KeyedTable α) : (v.entries.map Prod.fst).Pairwise (· < ·) :=
    List.pairwise_map.mpr v.sorted
  apply List.Pairwise.eq_of_mem_iff (hSorted _) (hSorted _)
  intro key
  simp only [mem_map_fst_iff, get?_merge, ← Option.isSome_iff_exists, Option.isSome_or,
    Bool.or_comm]

end Merge

section Histories

/-- An operation on one of any number of tables, which are told apart by numbers. -/
inductive Call (α : Type) where
  | insert (table : Nat) (key : String) (value : α)
  /-- The other table stays as it is. -/
  | merge (table other : Nat)

namespace Call

def run (tables : Nat → KeyedTable α) : Call α → Nat → KeyedTable α
  | insert i key value => Function.update tables i ((tables i).insertNew key value).2
  | merge i j => Function.update tables i ((tables i).merge (tables j))

/-- What has come to each table, also in vain. With a table comes all that has come to it. -/
def deliver (arrived : Nat → List (String × α)) : Call α → Nat → List (String × α)
  | insert i key value => Function.update arrived i (arrived i ++ [(key, value)])
  | merge i j => Function.update arrived i (arrived i ++ arrived j)

/-- The tables after a history. They are empty at first. -/
def runAll (calls : List (Call α)) : Nat → KeyedTable α :=
  calls.foldl run fun _ => empty

/-- What has come to each table in a history, in the order in which it came. -/
def arrivals (calls : List (Call α)) : Nat → List (String × α) :=
  calls.foldl deliver fun _ => []

/-- Every table answers by the first arrival under a key. -/
def Reflects (tables : Nat → KeyedTable α) (arrived : Nat → List (String × α)) : Prop :=
  ∀ i key, (tables i).get? key = (arrived i).lookup key

variable {tables : Nat → KeyedTable α} {arrived : Nat → List (String × α)}

/-- One operation: what comes to a table is put behind all that came before. A merge delivers what
has come to the other table, also in vain. -/
theorem Reflects.run (h : Reflects tables arrived) (call : Call α) :
    Reflects (call.run tables) (call.deliver arrived) := by
  intro i key
  cases call with
  | insert j newKey value =>
      by_cases hTable : i = j
      · subst hTable
        rw [Call.run, deliver, Function.update_self, Function.update_self, List.lookup_append,
          ← h i key]
        exact get?_insertAll (tables i) [(newKey, value)] key
      · rw [Call.run, deliver, Function.update_of_ne hTable, Function.update_of_ne hTable, h i key]
  | merge j other =>
      by_cases hTable : i = j
      · subst hTable
        rw [Call.run, deliver, Function.update_self, Function.update_self, List.lookup_append,
          get?_merge, h i key, h other key]
      · rw [Call.run, deliver, Function.update_of_ne hTable, Function.update_of_ne hTable, h i key]

/-- From empty tables on, every history answers by first arrivals. The tables and the arrivals are
changed call by call, so one step is enough. -/
theorem reflects_runAll (calls : List (Call α)) : Reflects (runAll calls) (arrivals calls) := by
  -- Both walks may start anywhere, if only the tables reflect what has arrived there.
  have hFrom (tables : Nat → KeyedTable α) (arrived : Nat → List (String × α))
      (h : Reflects tables arrived) :
      Reflects (calls.foldl run tables) (calls.foldl deliver arrived) := by
    induction calls generalizing tables arrived with
    | nil => exact h
    | cons call calls ih => exact ih _ _ (h.run call)
  exact hFrom _ _ fun _ _ => rfl

/-- No operation changes or removes an entry. -/
theorem get?_run_of_eq_some {i : Nat} {key : String} {value : α}
    (h : (tables i).get? key = some value) (call : Call α) :
    (call.run tables i).get? key = some value := by
  cases call with
  | insert j newKey newValue =>
      by_cases hTable : i = j
      · subst hTable
        rw [run, Function.update_self, insertNew, get?_insert]
        split
        · rename_i hKey
          rw [← hKey, h, Option.getD_some]
        · exact h
      · rw [run, Function.update_of_ne hTable, h]
  | merge j other =>
      by_cases hTable : i = j
      · subst hTable
        rw [run, Function.update_self, get?_merge, h, Option.some_or]
      · rw [run, Function.update_of_ne hTable, h]

/-- What a table has under a key it keeps for good, whatever calls follow. -/
theorem get?_runAll_append_of_eq_some {calls : List (Call α)} {i : Nat} {key : String} {value : α}
    (h : (runAll calls i).get? key = some value) (later : List (Call α)) :
    (runAll (calls ++ later) i).get? key = some value := by
  have hFrom (tables : Nat → KeyedTable α) (h : (tables i).get? key = some value) :
      (later.foldl run tables i).get? key = some value := by
    induction later generalizing tables with
    | nil => exact h
    | cons call later ih => exact ih _ (get?_run_of_eq_some h call)
  rw [runAll, List.foldl_append]
  exact hFrom _ h

end Call

/-- What a table is, given all that has come to it. -/
structure HoldsFirst (t : KeyedTable α) (arrived : List (String × α)) : Prop where
  /-- The entries stand in the strict order of the bytes of their keys. -/
  increasing : (t.entries.map fun entry => entry.1.toUTF8.toList).Pairwise (· < ·)
  /-- They are the first arrivals under their keys, and no others. -/
  entries : ∀ key value, (key, value) ∈ t.entries ↔ arrived.lookup key = some value
  get : ∀ key, t.get? key = arrived.lookup key
  /-- A further entry is taken exactly if nothing has come under its key. -/
  taken : ∀ key value, (t.insertNew key value).1 = true ↔ ∀ entry ∈ arrived, entry.1 ≠ key

/-- The whole of a table after a history, its order included. -/
theorem holdsFirst_runAll (calls : List (Call α)) (i : Nat) :
    HoldsFirst (Call.runAll calls i) (Call.arrivals calls i) := by
  have hReflects := Call.reflects_runAll calls i
  refine ⟨?_, fun key value => ?_, hReflects, fun key value => ?_⟩
  · rw [List.pairwise_map]
    exact (Call.runAll calls i).sorted.imp Text.toUTF8_lt_of_lt
  · rw [mem_entries_iff, hReflects key]
  · rw [insertNew_fst, Bool.not_eq_true', contains_eq_false_iff, hReflects key,
      List.lookup_eq_none_iff]
    simp [ne_comm]

/-- Tables are ordered and keep what came first. After any history of insertions and merges, over
any number of tables, each of them holds the first arrivals in the order of their keys, and whatever
follows it keeps them. An insertion tells whether it found its key absent, and changes what the
table has under this key only in that case. A merge asks the receiver first; it is associative and
idempotent, the empty table is its identity, and its order does not matter to the keys. -/
theorem histories_keep_first_arrivals (α : Type) :
    (∀ (calls : List (Call α)) (i : Nat),
      HoldsFirst (Call.runAll calls i) (Call.arrivals calls i) ∧
        ∀ later key value, (Call.runAll calls i).get? key = some value →
          (Call.runAll (calls ++ later) i).get? key = some value) ∧
    (∀ (t : KeyedTable α) (key : String) (value : α),
      ((t.insertNew key value).1 = true ↔ t.get? key = none) ∧
        ((t.insertNew key value).1 = false → (t.insertNew key value).2 = t) ∧
        ∀ other, (t.insertNew key value).2.get? other =
          if other = key then some ((t.get? key).getD value) else t.get? other) ∧
    (∀ (t u : KeyedTable α) (key : String),
      (t.merge u).get? key = (t.get? key).or (u.get? key)) ∧
    (∀ t u v : KeyedTable α, (t.merge u).merge v = t.merge (u.merge v)) ∧
    (∀ t : KeyedTable α, t.merge t = t ∧ t.merge empty = t ∧ empty.merge t = t) ∧
    ∀ t u : KeyedTable α,
      (t.merge u).entries.map Prod.fst = (u.merge t).entries.map Prod.fst := by
  refine ⟨fun calls i => ⟨holdsFirst_runAll calls i, fun later key value h =>
    Call.get?_runAll_append_of_eq_some h later⟩, fun t key value => ⟨?_, fun hTaken => ?_,
    fun other => get?_insert t key other value⟩, get?_merge, merge_assoc, fun t =>
    ⟨merge_self t, merge_empty t, empty_merge t⟩, map_fst_merge_comm⟩
  · rw [insertNew_fst, Bool.not_eq_true', contains_eq_false_iff]
  · rw [insertNew_fst, Bool.not_eq_false'] at hTaken
    exact insertNew_snd_of_contains hTaken value

/-- Two tables with a key in common and keys beyond the ASCII range. The second is merged into the
first, and then the first into the second. -/
def exchanges : List (Call (List Property)) :=
  [.insert 0 "c" [.ofType "First" .uint8], .insert 0 "😀" [], .insert 1 "\ufffd" [],
    .insert 1 "c" [.ofType "Second" .int8], .merge 0 1, .merge 1 0]

/-- Each table keeps its own template under the key in common, and the keys stand in the order of
their bytes. -/
theorem histories_keep_first_arrivals_exchanges :
    (Call.runAll exchanges 0).get? "c" = some [.ofType "First" .uint8] ∧
      (Call.runAll exchanges 1).get? "c" = some [.ofType "Second" .int8] ∧
      ((Call.runAll exchanges 0).insertNew "😀" [.ofType "Third" .uint8]).1 = false ∧
      (Call.runAll exchanges 1).entries.map Prod.fst = ["c", "\ufffd", "😀"] ∧
      HoldsFirst (Call.runAll exchanges 1) (Call.arrivals exchanges 1) := by
  obtain ⟨hHistories, _⟩ := histories_keep_first_arrivals (List Property)
  have hFirst := (hHistories exchanges 0).1
  have hSecond := (hHistories exchanges 1).1
  refine ⟨(hFirst.get "c").trans rfl, (hSecond.get "c").trans rfl, ?_, by decide, hSecond⟩
  rw [Bool.eq_false_iff, Ne, hFirst.taken]
  intro hApart
  exact hApart ("😀", []) (by decide) rfl

end Histories

end KeyedTable

end EventManifest
