/-!
Lists without repetitions.
-/

namespace EventManifest

/-- The elements of a list, each in the place where it stood first. -/
def distinct {α : Type} [DecidableEq α] : List α → List α
  | [] => []
  | a :: as => a :: (distinct as).filter fun b => decide (b ≠ a)

variable {α : Type} [DecidableEq α]

@[simp] theorem mem_distinct {a : α} {as : List α} : a ∈ distinct as ↔ a ∈ as := by
  induction as with
  | nil => simp [distinct]
  | cons b bs ih =>
      by_cases h : a = b
      · simp [distinct, h]
      · simp [distinct, h, ih]

theorem nodup_distinct (as : List α) : (distinct as).Nodup := by
  induction as with
  | nil => simp [distinct]
  | cons a as ih => exact List.nodup_cons.mpr ⟨by simp, List.Pairwise.filter _ ih⟩

end EventManifest
