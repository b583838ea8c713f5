import Mathlib.Data.List.Infix

/-!
Where a word occurs in a text that is written piece by piece. A piece is inert for a word if no
occurrence of the word begins in it, whatever is written behind the piece. Inert pieces can be
passed over when a text is searched for the word, and stay as they are when the word is replaced.
-/

namespace EventManifest.Text

/-- No occurrence of the word begins in the piece, and none could begin there and end behind it. -/
def isInert (word : List Char) : List Char → Bool
  | [] => true
  | c :: rest =>
      !(word.isPrefixOf (c :: rest) || (c :: rest).isPrefixOf word) && isInert word rest

section Inert

variable {word p q : List Char} {c : Char}

/-- The definition by its cases: the word neither stands at the beginning nor goes on behind the
piece. -/
theorem isInert_cons :
    isInert word (c :: p) ↔ ¬ word <+: c :: p ∧ ¬ c :: p <+: word ∧ isInert word p := by
  simp [isInert, ← List.isPrefixOf_iff_prefix, and_assoc]

/-- At the beginning of an inert piece there is no occurrence, whatever follows the piece. -/
theorem not_isPrefix_of_isInert (h : isInert word (c :: p)) (rest : List Char) :
    ¬ word <+: c :: p ++ rest := by
  obtain ⟨hLong, hShort, _⟩ := isInert_cons.mp h
  intro hWord
  rcases List.prefix_or_prefix_of_prefix hWord (List.prefix_append (c :: p) rest) with hIn | hOut
  · exact hLong hIn
  · exact hShort hOut

/-- Inert pieces may be put together in any order. -/
theorem isInert_append (hp : isInert word p) (hq : isInert word q) : isInert word (p ++ q) := by
  induction p with
  | nil => exact hq
  | cons c p ih =>
    obtain ⟨_, hShort, hRest⟩ := isInert_cons.mp hp
    refine isInert_cons.mpr ⟨not_isPrefix_of_isInert hp q, fun hPrefix => hShort ?_, ih hRest⟩
    exact (List.prefix_append (c :: p) q).trans hPrefix

/-- A piece without the word's first character is inert. This is the usual reason, and the others
are gone through. -/
theorem isInert_of_not_mem (h : c ∉ p) : isInert (c :: word) p := by
  induction p with
  | nil => rfl
  | cons d p ih =>
    obtain ⟨hFirst, hRest⟩ := List.ne_and_not_mem_of_not_mem_cons h
    simp [isInert_cons, List.cons_prefix_cons, hFirst, hFirst.symm, ih hRest]

theorem not_mem_of_isInert (h : isInert [c] p) : c ∉ p := by
  induction p with
  | nil => exact List.not_mem_nil
  | cons d p ih =>
    obtain ⟨hHere, _, hRest⟩ := isInert_cons.mp h
    refine List.not_mem_cons_of_ne_of_not_mem (fun hFirst => hHere ?_) (ih hRest)
    simp [List.cons_prefix_cons, hFirst]

end Inert

/-- What stands behind each occurrence of a word, from left to right. -/
def behind (word : List Char) : List Char → List (List Char)
  | [] => []
  | c :: rest => ((c :: rest).dropPrefix? word).toList ++ behind word rest

theorem dropPrefix?_eq_none {word text : List Char} (h : ¬ word <+: text) :
    text.dropPrefix? word = none := by
  rw [Option.eq_none_iff_forall_ne_some]
  intro rest hSome
  obtain ⟨start, rfl, hStart⟩ := List.dropPrefix?_eq_some_iff.mp hSome
  exact h (eq_of_beq hStart ▸ List.prefix_append start rest)

/-- An inert piece can be skipped in the search. -/
theorem behind_append {word p : List Char} (h : isInert word p) (rest : List Char) :
    behind word (p ++ rest) = behind word rest := by
  induction p with
  | nil => rfl
  | cons c p ih =>
    have hNone : (c :: (p ++ rest)).dropPrefix? word = none :=
      dropPrefix?_eq_none (not_isPrefix_of_isInert h rest)
    rw [List.cons_append, behind, hNone, ih (isInert_cons.mp h).2.2]
    rfl

/-- An occurrence of a word that cannot overlap with another one. The search goes on right behind
it. -/
theorem behind_word_append {c : Char} {word : List Char} (h : isInert (c :: word) word)
    (rest : List Char) :
    behind (c :: word) (c :: word ++ rest) = rest :: behind (c :: word) rest := by
  have hSome : (c :: (word ++ rest)).dropPrefix? (c :: word) = some rest :=
    List.dropPrefix?_eq_some_iff.mpr ⟨c :: word, by simp, by simp⟩
  rw [List.cons_append, behind, hSome, behind_append h]
  rfl

/-- What is written in the place of a word. -/
structure Replacement where
  source : List Char
  target : List Char
deriving DecidableEq, Repr

/-- Replace words from left to right, after so many characters that are dropped. Where several words
occur, the first replacement of the list counts. -/
def substituteFrom (rules : List Replacement) : (skip : Nat) → List Char → List Char
  | _, [] => []
  | skip + 1, _ :: rest => substituteFrom rules skip rest
  | 0, c :: rest =>
      match rules.find? fun rule => rule.source.isPrefixOf (c :: rest) with
      | some rule => rule.target ++ substituteFrom rules (rule.source.length - 1) rest
      | none => c :: substituteFrom rules 0 rest

def substitute (rules : List Replacement) (text : List Char) : List Char :=
  substituteFrom rules 0 text

section Substitute

variable {rules : List Replacement} {p : List Char}

/-- Dropping as many characters as a piece has leaves what stands behind it. -/
theorem substituteFrom_length (p rest : List Char) :
    substituteFrom rules p.length (p ++ rest) = substitute rules rest := by
  induction p with
  | nil => rfl
  | cons c p ih => exact ih

theorem substitute_cons_of_not_isPrefix {c : Char} {rest : List Char}
    (h : ∀ rule ∈ rules, ¬ rule.source <+: c :: rest) :
    substitute rules (c :: rest) = c :: substitute rules rest := by
  have hNone : rules.find? (fun rule => rule.source.isPrefixOf (c :: rest)) = none := by
    rw [List.find?_eq_none]
    exact fun rule hRule hPrefix => h rule hRule (List.isPrefixOf_iff_prefix.mp hPrefix)
  rw [substitute, substituteFrom, hNone]
  rfl

/-- A text that no source occurs in stays as it is. It is enough that it is inert with one more
character behind it, since a text ends. -/
theorem substitute_eq_self {c : Char} (h : ∀ rule ∈ rules, isInert rule.source (p ++ [c])) :
    substitute rules p = p := by
  induction p with
  | nil => rfl
  | cons d p ih =>
    have hApart : ∀ rule ∈ rules, ¬ rule.source <+: d :: p := fun rule hRule hPrefix =>
      (isInert_cons.mp (h rule hRule)).1 (hPrefix.trans (List.prefix_append (d :: p) [c]))
    rw [substitute_cons_of_not_isPrefix hApart,
      ih fun rule hRule => (isInert_cons.mp (h rule hRule)).2.2]

/-- Where a piece stands before the substitution, another one stands after it, whatever follows. -/
def Turns (rules : List Replacement) (p q : List Char) : Prop :=
  ∀ rest, substitute rules (p ++ rest) = q ++ substitute rules rest

/-- Substitution goes piece by piece, if each piece turns into another one in every context. -/
theorem Turns.append {p q p' q' : List Char} (h : Turns rules p q) (h' : Turns rules p' q') :
    Turns rules (p ++ p') (q ++ q') := by
  intro rest
  rw [List.append_assoc, h, h', List.append_assoc]

/-- In particular at the end of a text. -/
theorem Turns.substitute_eq {p q : List Char} (h : Turns rules p q) : substitute rules p = q := by
  simpa [substitute, substituteFrom] using h []

/-- Inert pieces stay as they are, in every context. -/
theorem turns_of_isInert (h : ∀ rule ∈ rules, isInert rule.source p) : Turns rules p p := by
  intro rest
  induction p with
  | nil => rfl
  | cons c p ih =>
    have hApart : ∀ rule ∈ rules, ¬ rule.source <+: c :: (p ++ rest) := fun rule hRule =>
      not_isPrefix_of_isInert (h rule hRule) rest
    rw [List.cons_append, substitute_cons_of_not_isPrefix hApart,
      ih fun rule hRule => (isInert_cons.mp (h rule hRule)).2.2, List.cons_append]

/-- A source turns into its target if no other one is found in its place. The target is not searched
again. -/
theorem turns_of_find {c : Char} {source target : List Char}
    (hFirst : ∀ rest, rules.find? (fun rule => rule.source.isPrefixOf (c :: (source ++ rest))) =
      some ⟨c :: source, target⟩) :
    Turns rules (c :: source) target := by
  intro rest
  rw [List.cons_append, substitute, substituteFrom, hFirst rest]
  dsimp only
  rw [List.length_cons, Nat.add_sub_cancel, substituteFrom_length]

end Substitute

end EventManifest.Text
