import EventManifest.Symbol.Parameter
import Mathlib.Data.List.Nodup
import Mathlib.Data.List.Perm.Subperm
import Mathlib.Order.Monotone.Basic

/-!
How the properties of a wrapper get their names. A property gets the first of its attempts that is
free, and one always is. Only the names of earlier properties stand in the way of an attempt;
nothing is said here about other names of the header.
-/

namespace EventManifest.Symbol

/-- The attempts at a name: as it is, then with the position behind it once, twice and so on. -/
def attempt (name : String) (index : Nat) : Nat → String
  | 0 => name
  | k + 1 => attempt name index k ++ s!"_{index}"

/-- To go on from the first attempt is to start from the second one. -/
theorem attempt_append (name : String) (index k : Nat) :
    attempt (name ++ s!"_{index}") index k = attempt name index (k + 1) := by
  induction k with
  | zero => rfl
  | succ k ih => exact congrArg (· ++ s!"_{index}") ih

theorem length_attempt_lt (name : String) (index k : Nat) :
    (attempt name index k).length < (attempt name index (k + 1)).length := by
  have hSuffix : 0 < s!"_{index}".length := by
    rw [String.length_append]
    exact Nat.add_pos_left Nat.one_pos _
  rw [attempt, String.length_append]
  exact Nat.lt_add_of_pos_right hSuffix

/-- No attempt comes twice, since each is longer than the one before. So a finite number of names in
use cannot stand in the way forever. -/
theorem attempt_injective (name : String) (index : Nat) :
    Function.Injective (attempt name index) := by
  have hMono : StrictMono fun k => (attempt name index k).length :=
    strictMono_nat_of_lt_succ (length_attempt_lt name index)
  exact fun _ _ hSame => hMono.injective (congrArg String.length hSame)

theorem isPrefix_attempt (name : String) (index k : Nat) :
    name.toList <+: (attempt name index k).toList := by
  induction k with
  | zero => exact List.prefix_rfl
  | succ k ih =>
      rw [attempt, String.toList_append]
      exact ih.trans (List.prefix_append _ _)

/-- All that a property reserves begins with its name. -/
theorem isPrefix_of_mem_reserved {withLength : Bool} {name r : String}
    (h : r ∈ reserved withLength name) : name.toList <+: r.toList := by
  cases withLength with
  | false => simp_all [reserved]
  | true =>
      rcases List.mem_pair.mp h with rfl | rfl
      · rw [lengthName, String.toList_append]
        exact List.prefix_append _ _
      · exact List.prefix_rfl

/-- A name is taken as soon as one of the names that it reserves is in use. -/
theorem isTaken_iff {seen : List String} {withLength : Bool} {name : String} :
    isTaken seen withLength name = true ↔ ∃ r ∈ reserved withLength name, r ∈ seen := by
  simp [isTaken]

/-- The first attempt at a name that reserves nothing which is in use. -/
def FirstFree (seen : List String) (withLength : Bool) (index : Nat) (name chosen : String) :
    Prop :=
  ∃ k, chosen = attempt name index k ∧ isTaken seen withLength chosen = false ∧
    ∀ j < k, isTaken seen withLength (attempt name index j) = true

namespace FirstFree

variable {seen : List String} {withLength : Bool} {index : Nat} {name chosen : String}

/-- The first free attempt is one name, not a choice. -/
theorem unique {other : String} (h : FirstFree seen withLength index name chosen)
    (hOther : FirstFree seen withLength index name other) : chosen = other := by
  obtain ⟨k, rfl, hFree, hTaken⟩ := h
  obtain ⟨l, rfl, hFree', hTaken'⟩ := hOther
  rcases Nat.lt_trichotomy k l with hLess | rfl | hLess
  · simp [hTaken' k hLess] at hFree
  · rfl
  · simp [hTaken l hLess] at hFree'

/-- Only which names are in use counts, neither their order nor how often they were noted. -/
theorem congr {seen' : List String} (hSame : ∀ r, r ∈ seen ↔ r ∈ seen')
    (h : FirstFree seen withLength index name chosen) :
    FirstFree seen' withLength index name chosen := by
  have hTaken (s : String) : isTaken seen withLength s = isTaken seen' withLength s := by
    rw [Bool.eq_iff_iff, isTaken_iff, isTaken_iff]
    simp only [hSame]
  simpa only [FirstFree, hTaken] using h

/-- All that a property reserves begins with its sanitized name, after any number of attempts. -/
theorem isPrefix (h : FirstFree seen withLength index name chosen) {r : String}
    (hr : r ∈ reserved withLength chosen) : name.toList <+: r.toList := by
  obtain ⟨k, rfl, _, _⟩ := h
  exact (isPrefix_attempt name index k).trans (isPrefix_of_mem_reserved hr)

/-- A name that is not in use stays as it is. A name that needs a length has to have that one free
too. -/
theorem eq_of_free (h : FirstFree seen withLength index name chosen)
    (hFree : isTaken seen withLength name = false) : chosen = name :=
  h.unique ⟨0, rfl, hFree, fun _ hj => absurd hj (Nat.not_lt_zero _)⟩

end FirstFree

/-- The name whose length has a given name. -/
def withoutLength (name : String) : String :=
  String.ofList (name.toList.take (name.length - 4))

theorem withoutLength_lengthName (name : String) : withoutLength (lengthName name) = name := by
  have hLength : (lengthName name).length - 4 = name.toList.length := by
    rw [lengthName, String.length_append, String.length_toList]
    exact Nat.add_sub_cancel _ _
  rw [withoutLength, hLength, lengthName, String.toList_append, List.take_left,
    String.ofList_toList]

/-- Every name in use stands in the way of two attempts at most, itself and the one whose length it
would be, so among more attempts than that there is a free one. -/
theorem exists_free (seen : List String) (withLength : Bool) (index : Nat) (name : String) :
    ∃ k < 2 * seen.length + 1, isTaken seen withLength (attempt name index k) = false := by
  by_contra hNone
  have hTaken {k : Nat} (hk : k < 2 * seen.length + 1) :
      isTaken seen withLength (attempt name index k) = true := by
    by_contra hFree
    exact hNone ⟨k, hk, Bool.eq_false_iff.mpr hFree⟩
  have hSubset : (List.range (2 * seen.length + 1)).map (attempt name index) ⊆
      seen ++ seen.map withoutLength := by
    intro s hs
    obtain ⟨k, hk, rfl⟩ := List.mem_map.mp hs
    obtain ⟨r, hr, hSeen⟩ := isTaken_iff.mp (hTaken (List.mem_range.mp hk))
    have hForm : r = lengthName (attempt name index k) ∨ r = attempt name index k := by
      cases withLength <;> simp_all [reserved]
    rcases hForm with rfl | rfl
    · exact List.mem_append_right _
        (List.mem_map.mpr ⟨_, hSeen, withoutLength_lengthName _⟩)
    · exact List.mem_append_left _ hSeen
  have hNodup := (List.nodup_range (n := 2 * seen.length + 1)).map (attempt_injective name index)
  have hLength := (hNodup.subperm hSubset).length_le
  simp only [List.length_map, List.length_range, List.length_append] at hLength
  omega

/-- With any fuel that covers a free attempt the first of them is found. The fuel bounds the search
and has no part in its result. -/
theorem firstFree_freshName_of_free {seen : List String} {withLength : Bool} {index : Nat} :
    ∀ {fuel : Nat} {name : String},
      (∃ k < fuel, isTaken seen withLength (attempt name index k) = false) →
        FirstFree seen withLength index name (freshName seen withLength index fuel name)
  | 0, _, ⟨_, hk, _⟩ => absurd hk (Nat.not_lt_zero _)
  | fuel + 1, name, ⟨k, hk, hFree⟩ => by
      rw [freshName]
      split
      · rename_i hTaken
        cases k with
        | zero => exact absurd hTaken (Bool.eq_false_iff.mp hFree)
        | succ k =>
            rw [← attempt_append] at hFree
            obtain ⟨l, hChosen, hFirst, hBefore⟩ :=
              firstFree_freshName_of_free ⟨k, Nat.lt_of_succ_lt_succ hk, hFree⟩
            refine ⟨l + 1, hChosen.trans (attempt_append name index l), hFirst, fun j hj => ?_⟩
            cases j with
            | zero => exact hTaken
            | succ j =>
                rw [← attempt_append]
                exact hBefore j (Nat.lt_of_succ_lt_succ hj)
      · rename_i hTaken
        exact ⟨0, rfl, Bool.eq_false_iff.mpr hTaken, fun j hj => absurd hj (Nat.not_lt_zero _)⟩

/-- The fuel that naming gives is enough: each name in use stands in the way of two attempts at
most, as a name and as a length. -/
theorem firstFree_freshName (seen : List String) (withLength : Bool) (index : Nat)
    (name : String) :
    FirstFree seen withLength index name
      (freshName seen withLength index (2 * seen.length + 1) name) :=
  firstFree_freshName_of_free (exists_free seen withLength index name)

/-- What properties reserve by the names they got. -/
def reservedNames (properties : List (String × Bool)) (names : List String) : List String :=
  (List.zipWith (fun p name => reserved p.2 name) properties names).flatten

/-- What a property gets depends on the names that those before it reserve. The walk notes them from
right to left, which does no harm. -/
theorem firstFree_parameterNamesFrom {properties : List (String × Bool)} {i : Nat}
    {written : String} {withLength : Bool} (h : properties[i]? = some (written, withLength))
    (seen : List String) (index : Nat) :
    ∃ name, (parameterNamesFrom seen index properties)[i]? = some name ∧
      FirstFree
        (reservedNames (properties.take i) (parameterNamesFrom seen index properties) ++ seen)
        withLength (index + i) (sanitize written) name := by
  induction properties generalizing seen index i with
  | nil => simp at h
  | cons p properties ih =>
      obtain ⟨first, firstLength⟩ := p
      rw [parameterNamesFrom]
      cases i with
      | zero =>
          cases h
          exact ⟨_, rfl, firstFree_freshName seen _ index _⟩
      | succ i =>
          let chosen :=
            freshName seen firstLength index (2 * seen.length + 1) (sanitize first)
          obtain ⟨name, hName, hFirst⟩ :=
            ih h (reserved firstLength chosen ++ seen) (index + 1)
          refine ⟨name, hName, ?_⟩
          rw [Nat.add_right_comm, Nat.add_assoc] at hFirst
          refine hFirst.congr fun r => ?_
          simp only [reservedNames, List.take_succ_cons, List.zipWith_cons_cons,
            List.flatten_cons, List.mem_append]
          tauto

/-- With a transfer for every property, each takes a length if its transfer does. Without this the
shorter of the two lists would count. -/
theorem parameterNames_eq {properties : List Property} {transfers : List Transfer}
    (h : transfers.length = properties.length) :
    parameterNames properties transfers =
      parameterNamesFrom [] 0
        (List.zipWith (fun p t => (p.name, t.needsLength)) properties transfers) := by
  refine congrArg (parameterNamesFrom [] 0) (List.ext_getElem (by simp [h]) fun i hi _ => ?_)
  have hTransfer : i < transfers.length := by simpa [h] using hi
  simp [List.getElem?_eq_getElem hTransfer]

end EventManifest.Symbol
