import Mathlib.Data.List.Forall2

/-!
Computations that may be refused, taken apart by their result. Every statement is an equivalence, so
that it serves both to open a success and to build one. A refusal is traced to the first step that
was refused.
-/

namespace EventManifest.Outcome

variable {ε δ α β : Type}

/-- Two steps succeed exactly if both do. This and the lemmas below take sequences of steps apart,
so that no proof has to unfold the monad. -/
theorem bind_eq_ok_iff {x : Except ε α} {f : α → Except ε β} {b : β} :
    (x >>= f) = .ok b ↔ ∃ a, x = .ok a ∧ f a = .ok b := by
  cases x with
  | error e => simp [bind, Except.bind]
  | ok a => simp [bind, Except.bind]

/-- Two steps are refused by the first one, or by the second one on what the first one gave. The
defect is passed on as it is. -/
theorem bind_eq_error_iff {x : Except ε α} {f : α → Except ε β} {e : ε} :
    (x >>= f) = .error e ↔ x = .error e ∨ ∃ a, x = .ok a ∧ f a = .error e := by
  cases x with
  | error e => simp [bind, Except.bind]
  | ok a => simp [bind, Except.bind]

theorem map_eq_ok_iff {x : Except ε α} {f : α → β} {b : β} :
    x.map f = .ok b ↔ ∃ a, x = .ok a ∧ f a = b := by
  cases x with
  | error e => simp [Except.map]
  | ok a => simp [Except.map]

/-- What is made of a result has no part in a refusal. -/
theorem map_eq_error_iff {x : Except ε α} {f : α → β} {e : ε} :
    x.map f = .error e ↔ x = .error e := by
  cases x with
  | error e => simp [Except.map]
  | ok a => simp [Except.map]

theorem mapError_eq_ok_iff {x : Except ε α} {f : ε → δ} {a : α} :
    x.mapError f = .ok a ↔ x = .ok a := by
  cases x with
  | error e => simp [Except.mapError]
  | ok b => simp [Except.mapError]

/-- A refusal can be worded anew. Whether there is one does not depend on the words. -/
theorem mapError_eq_error_iff {x : Except ε α} {f : ε → δ} {d : δ} :
    x.mapError f = .error d ↔ ∃ e, x = .error e ∧ f e = d := by
  cases x with
  | error e => simp [Except.mapError]
  | ok a => simp [Except.mapError]

/-- Why a computation was refused, if it was. -/
def refusal? : Except ε α → Option ε
  | .ok _ => none
  | .error e => some e

theorem refusal?_eq_some_iff {x : Except ε α} {e : ε} : refusal? x = some e ↔ x = .error e := by
  cases x with
  | error e => simp [refusal?]
  | ok a => simp [refusal?]

/-- Nothing is refused exactly if there is a result. Which result it is cannot be told from this. -/
theorem refusal?_eq_none_iff {x : Except ε α} : refusal? x = none ↔ ∃ a, x = .ok a := by
  cases x with
  | error e => simp [refusal?]
  | ok a => simp [refusal?]

/-- A sequence of two steps is refused where the first one is, and else where the second one is. The
second may be refused for a fixed reason only, whatever the first one gave. -/
theorem refusal?_bind {x : Except ε α} {f : α → Except ε β} {second : Option ε}
    (h : ∀ a, refusal? (f a) = second) : refusal? (x >>= f) = (refusal? x).or second := by
  cases x with
  | error e => rfl
  | ok a => exact h a

/-- Computations that both succeed, with related results, or are both refused, for related
reasons. -/
inductive Corresponds (E : ε → δ → Prop) (R : α → β → Prop) : Except ε α → Except δ β → Prop where
  | ok {a : α} {b : β} (h : R a b) : Corresponds E R (.ok a) (.ok b)
  | error {e : ε} {d : δ} (h : E e d) : Corresponds E R (.error e) (.error d)

namespace Corresponds

variable {E : ε → δ → Prop} {R : α → β → Prop} {x : Except ε α} {y : Except δ β}

/-- Corresponding computations succeed together. The results are related, not equal. -/
theorem exists_ok (h : Corresponds E R x y) {a : α} (hx : x = .ok a) : ∃ b, y = .ok b ∧ R a b := by
  subst hx
  cases h with
  | ok h => exact ⟨_, rfl, h⟩

/-- Corresponding computations are refused together, for related reasons. -/
theorem exists_error (h : Corresponds E R x y) {e : ε} (hx : x = .error e) :
    ∃ d, y = .error d ∧ E e d := by
  subst hx
  cases h with
  | error h => exact ⟨_, rfl, h⟩

/-- Corresponding steps in a row correspond, if the second steps do so on all related results of the
first ones. -/
theorem bind {γ ζ : Type} {S : γ → ζ → Prop} {f : α → Except ε γ} {g : β → Except δ ζ}
    (h : Corresponds E R x y) (hf : ∀ a b, R a b → Corresponds E S (f a) (g b)) :
    Corresponds E S (x >>= f) (y >>= g) := by
  cases h with
  | ok h => exact hf _ _ h
  | error h => exact .error h

theorem map {γ ζ : Type} {S : γ → ζ → Prop} {f : α → γ} {g : β → ζ} (h : Corresponds E R x y)
    (hf : ∀ a b, R a b → S (f a) (g b)) : Corresponds E S (x.map f) (y.map g) := by
  cases h with
  | ok h => exact .ok (hf _ _ h)
  | error h => exact .error h

end Corresponds

/-- The last line of a sequence of steps, which cannot be refused. -/
theorem pure_eq_ok_iff {a b : α} : (pure a : Except ε α) = .ok b ↔ a = b := by
  simp [pure, Except.pure]

/-- A walk over a list succeeds exactly if it does so at every element. The results stand in the
order of the elements, one for each. -/
theorem mapM_eq_ok_iff {f : α → Except ε β} {as : List α} {bs : List β} :
    as.mapM f = .ok bs ↔ List.Forall₂ (fun a b => f a = .ok b) as bs := by
  induction as generalizing bs with
  | nil =>
      rw [List.mapM_nil, pure_eq_ok_iff, List.forall₂_nil_left_iff]
      exact eq_comm
  | cons a as ih =>
      rw [List.mapM_cons, List.forall₂_cons_left_iff]
      simp only [bind_eq_ok_iff, pure_eq_ok_iff, ih]
      constructor
      · rintro ⟨b, hHead, rest, hTail, rfl⟩
        exact ⟨b, rest, hHead, hTail, rfl⟩
      · rintro ⟨b, rest, hHead, hTail, rfl⟩
        exact ⟨b, hHead, rest, hTail, rfl⟩

/-- Each result of a walk comes from an element. -/
theorem exists_of_mem_right {R : α → β → Prop} {as : List α} {bs : List β}
    (h : List.Forall₂ R as bs) {b : β} (hb : b ∈ bs) : ∃ a ∈ as, R a b := by
  induction h with
  | nil => cases hb
  | @cons a c as bs hHead _ ih =>
      rw [List.mem_cons] at hb
      rcases hb with rfl | hb
      · exact ⟨a, List.mem_cons_self, hHead⟩
      · obtain ⟨a', ha', hR⟩ := ih hb
        exact ⟨a', List.mem_cons_of_mem _ ha', hR⟩

/-- Where each element has a partner, there is a list of partners. It is not claimed to be the only
one. -/
theorem exists_forall₂ {R : α → β → Prop} {as : List α}
    (h : ∀ a ∈ as, ∃ b, R a b) : ∃ bs, List.Forall₂ R as bs := by
  induction as with
  | nil => exact ⟨[], .nil⟩
  | cons a as ih =>
      rw [List.forall_mem_cons] at h
      obtain ⟨⟨b, hb⟩, hRest⟩ := h
      obtain ⟨bs, hbs⟩ := ih hRest
      exact ⟨b :: bs, .cons hb hbs⟩

/-- A walk is refused exactly if it is refused at an element that it reaches. All elements before it
pass, and those behind it are not looked at. -/
theorem mapM_eq_error_iff {f : α → Except ε β} {as : List α} {e : ε} :
    as.mapM f = .error e ↔
      ∃ before a after, as = before ++ a :: after ∧ (∀ b ∈ before, ∃ c, f b = .ok c) ∧
        f a = .error e := by
  induction as with
  | nil => simp [pure, Except.pure]
  | cons a as ih =>
      rw [List.mapM_cons]
      simp only [bind_eq_error_iff, ih]
      constructor
      · rintro (hHead | ⟨c, hHead, ⟨before, b, after, rfl, hBefore, hRefused⟩ | ⟨_, _, hPure⟩⟩)
        · exact ⟨[], a, as, rfl, by simp, hHead⟩
        · refine ⟨a :: before, b, after, rfl, ?_, hRefused⟩
          rw [List.forall_mem_cons]
          exact ⟨⟨c, hHead⟩, hBefore⟩
        · cases hPure
      · rintro ⟨before, b, after, hSplit, hBefore, hRefused⟩
        cases before with
        | nil =>
            cases hSplit
            exact Or.inl hRefused
        | cons first before =>
            cases hSplit
            rw [List.forall_mem_cons] at hBefore
            obtain ⟨⟨c, hHead⟩, hBefore⟩ := hBefore
            exact Or.inr ⟨c, hHead, Or.inl ⟨before, b, after, rfl, hBefore, hRefused⟩⟩

/-- The same by positions, for a walk that knows where it is. -/
theorem mapM_zipIdx_eq_ok_iff {f : α × Nat → Except ε β} {as : List α} {bs : List β} :
    as.zipIdx.mapM f = .ok bs ↔
      bs.length = as.length ∧
        ∀ i a, as[i]? = some a → ∃ b, bs[i]? = some b ∧ f (a, i) = .ok b := by
  rw [mapM_eq_ok_iff, List.forall₂_iff_get]
  simp only [List.length_zipIdx, List.get_eq_getElem, List.getElem_zipIdx, Nat.zero_add]
  constructor
  · rintro ⟨hLength, hEach⟩
    refine ⟨hLength.symm, fun i a ha => ?_⟩
    obtain ⟨hi, rfl⟩ := List.getElem?_eq_some_iff.mp ha
    exact ⟨bs[i], List.getElem?_eq_getElem (hLength ▸ hi), hEach i hi (hLength ▸ hi)⟩
  · rintro ⟨hLength, hEach⟩
    refine ⟨hLength.symm, fun i hi hi' => ?_⟩
    obtain ⟨b, hb, hf⟩ := hEach i as[i] (List.getElem?_eq_getElem hi)
    obtain ⟨_, rfl⟩ := List.getElem?_eq_some_iff.mp hb
    exact hf

/-- Such a walk is refused at the first position where its step is. Later positions may be refused
too, for other reasons, and are not reported. -/
theorem mapM_zipIdx_eq_error_iff {f : α × Nat → Except ε β} {as : List α} {k : Nat} {e : ε} :
    (as.zipIdx k).mapM f = .error e ↔
      ∃ i a, as[i]? = some a ∧ f (a, k + i) = .error e ∧
        ∀ j < i, ∀ b, as[j]? = some b → ∃ c, f (b, k + j) = .ok c := by
  induction as generalizing k with
  | nil => simp [pure, Except.pure]
  | cons a as ih =>
      have hShift (i : Nat) : k + (i + 1) = k + 1 + i := by omega
      rw [List.zipIdx_cons, List.mapM_cons]
      simp only [bind_eq_error_iff, ih]
      constructor
      · rintro (hHead | ⟨c, hHead, ⟨i, b, hb, hRefused, hEarlier⟩ | ⟨_, _, hPure⟩⟩)
        · exact ⟨0, a, rfl, hHead, by simp⟩
        · refine ⟨i + 1, b, hb, hShift i ▸ hRefused, fun j hj d hd => ?_⟩
          cases j with
          | zero =>
              cases hd
              exact ⟨c, hHead⟩
          | succ j => exact hShift j ▸ hEarlier j (by omega) d hd
        · cases hPure
      · rintro ⟨i, b, hb, hRefused, hEarlier⟩
        cases i with
        | zero =>
            cases hb
            exact Or.inl hRefused
        | succ i =>
            obtain ⟨c, hHead⟩ := hEarlier 0 (by omega) a rfl
            refine Or.inr ⟨c, hHead, Or.inl ⟨i, b, hb, hShift i ▸ hRefused, fun j hj d hd => ?_⟩⟩
            exact hShift j ▸ hEarlier (j + 1) (by omega) d hd

/-- What is made of the results by position can be made on the way. A walk that is refused is
refused at the same place. -/
theorem map_mapM_zipIdx {γ : Type} (f : α × Nat → Except ε β) (g : β × Nat → γ) (as : List α)
    (k : Nat) :
    ((as.zipIdx k).mapM f).map (fun bs => (bs.zipIdx k).map g) =
      (as.zipIdx k).mapM fun a => (f a).map fun b => g (b, a.2) := by
  induction as generalizing k with
  | nil => rfl
  | cons a as ih =>
      rw [List.zipIdx_cons, List.mapM_cons, List.mapM_cons, ← ih]
      cases f (a, k) with
      | error e => rfl
      | ok b =>
          cases (as.zipIdx (k + 1)).mapM f with
          | error e => rfl
          | ok bs => rfl

/-- The results of two walks are related exactly if they are so at every place. Both are parallel to
what was walked over, so the places are sought there. -/
theorem forall₂_iff_of_mapM_zipIdx {α' β' : Type} {R : β → β' → Prop}
    {f : α × Nat → Except ε β} {g : α' × Nat → Except ε β'}
    {as : List α} {as' : List α'} {bs : List β} {bs' : List β'}
    (h : as.zipIdx.mapM f = .ok bs) (h' : as'.zipIdx.mapM g = .ok bs') :
    List.Forall₂ R bs bs' ↔
      as.length = as'.length ∧
        ∀ i a a', as[i]? = some a → as'[i]? = some a' →
          ∃ b b', f (a, i) = .ok b ∧ g (a', i) = .ok b' ∧ R b b' := by
  obtain ⟨hLength, hEach⟩ := mapM_zipIdx_eq_ok_iff.mp h
  obtain ⟨hLength', hEach'⟩ := mapM_zipIdx_eq_ok_iff.mp h'
  rw [List.forall₂_iff_get, ← hLength, ← hLength']
  refine and_congr_right fun _ => ⟨fun hRelated i a a' ha ha' => ?_, fun hPlace i hi hi' => ?_⟩
  · obtain ⟨b, hb, hf⟩ := hEach i a ha
    obtain ⟨b', hb', hg⟩ := hEach' i a' ha'
    obtain ⟨hi, rfl⟩ := List.getElem?_eq_some_iff.mp hb
    obtain ⟨hi', rfl⟩ := List.getElem?_eq_some_iff.mp hb'
    exact ⟨_, _, hf, hg, hRelated i hi hi'⟩
  · have ha := List.getElem?_eq_getElem (hLength ▸ hi)
    have ha' := List.getElem?_eq_getElem (hLength' ▸ hi')
    obtain ⟨b, b', hf, hg, hR⟩ := hPlace i _ _ ha ha'
    obtain ⟨c, hc, hf'⟩ := hEach i _ ha
    obtain ⟨c', hc', hg'⟩ := hEach' i _ ha'
    cases hf'.symm.trans hf
    cases hg'.symm.trans hg
    obtain ⟨_, rfl⟩ := List.getElem?_eq_some_iff.mp hc
    obtain ⟨_, rfl⟩ := List.getElem?_eq_some_iff.mp hc'
    exact hR

end EventManifest.Outcome
