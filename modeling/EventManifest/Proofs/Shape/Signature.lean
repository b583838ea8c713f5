import EventManifest.Proofs.Shape.Resolution
import EventManifest.Proofs.Text.Slice

/-!
Keys can be read back. A key is a row of signatures with nothing between them, and still each
signature ends where a reader expects it to: behind its letter come digits and the marks `r` and `R`
only, and no signature begins with one of those. Hence two templates have equal keys exactly if
their shapes have the same letters and the same cardinalities, place by place.
-/

namespace EventManifest

/-- A count or length as a signature tells it. Constants have any size, since a signature may hold
the product of two of them. -/
inductive FormBound where
  | constant (value : Nat)
  | position (index : Nat)
deriving DecidableEq, Repr

namespace FormBound

def constant? : FormBound → Option Nat
  | constant value => some value
  | position _ => none

def position? : FormBound → Option Nat
  | constant _ => none
  | position index => some index

end FormBound

def Bound.form : Bound → FormBound
  | .fixed value => .constant value.toNat
  | .param index => .position index

/-- The count and the length of a shape, as far as its signature tells them. -/
structure CardinalityForm where
  count : Option FormBound
  length : Option FormBound
deriving DecidableEq, Repr

/-- A constant count of values with a constant length has the form of one value of the length in
total. Every other combination is kept as it is. -/
def Shape.form (s : Shape) : CardinalityForm :=
  match s.count, s.length with
  | some (.fixed c), some (.fixed l) => ⟨none, some (.constant (c.toNat * l.toNat))⟩
  | count, length => ⟨count.map Bound.form, length.map Bound.form⟩

/-- A signature in its parts. The two positions stand behind the marks `r` and `R`. -/
structure Fragment where
  head : Char
  constant : Option Nat
  length : Option Nat
  count : Option Nat
deriving DecidableEq, Repr

namespace Fragment

/-- A number behind a mark, or nothing at all. -/
def markedNumeral (mark : List Char) : Option Nat → List Char
  | none => []
  | some n => mark ++ Shape.numeral n

def chars (f : Fragment) : List Char :=
  f.head :: (markedNumeral [] f.constant ++
    (markedNumeral ['r'] f.length ++ markedNumeral ['R'] f.count))

/-- The parts of a signature with this letter and form. -/
def ofForm (letter : Char) (form : CardinalityForm) : Fragment where
  head := if form.count.isSome then letter.toUpper else letter
  constant := (form.count.bind FormBound.constant?).or (form.length.bind FormBound.constant?)
  length := form.length.bind FormBound.position?
  count := form.count.bind FormBound.position?

/-- The letter of the type, which arrays have in upper case. -/
def letter (f : Fragment) : Char :=
  f.head.toLower

/-- The count and the length that the parts stand for. In an array, a constant beside a position of
the count is the length. -/
def form (f : Fragment) : CardinalityForm :=
  let constant := f.constant.map .constant
  let count := f.count.map .position
  let length := f.length.map .position
  if f.head.isUpper then ⟨count.or constant, length.or (count.bind fun _ => constant)⟩
  else ⟨none, length.or constant⟩

end Fragment

def Shape.fragment (s : Shape) : Fragment :=
  .ofForm s.category.letter s.form

namespace Category

/-- What may begin a signature, and cannot stand inside one. -/
def IsInitial (c : Char) : Prop :=
  c.isDigit = false ∧ c ≠ 'r' ∧ c ≠ 'R'

/-- The letters of the types are neither digits nor marks, so that a signature ends where the next
letter begins. -/
theorem isInitial_letter (category : Category) : IsInitial category.letter := by
  cases category with
  | struct => simp [IsInitial, letter]
  | data inType => cases inType <;> simp [IsInitial, letter]

/-- The same for arrays, whose letter is in upper case. The mark `R` is no letter of a type. -/
theorem isInitial_toUpper_letter (category : Category) : IsInitial category.letter.toUpper := by
  cases category with
  | struct => simp [IsInitial, letter]
  | data inType => cases inType <;> simp [IsInitial, letter]

theorem toLower_letter (category : Category) : category.letter.toLower = category.letter := by
  cases category with
  | struct => rfl
  | data inType => cases inType <;> rfl

/-- No letter is lost by its upper case. Types and arrays of them can be told apart and matched
up. -/
theorem toLower_toUpper_letter (category : Category) :
    category.letter.toUpper.toLower = category.letter := by
  cases category with
  | struct => rfl
  | data inType => cases inType <;> rfl

theorem isUpper_letter (category : Category) : category.letter.isUpper = false := by
  cases category with
  | struct => rfl
  | data inType => cases inType <;> rfl

theorem isUpper_toUpper_letter (category : Category) : category.letter.toUpper.isUpper = true := by
  cases category with
  | struct => rfl
  | data inType => cases inType <;> rfl

end Category

namespace Fragment

/-- Take the number from the start of a text, if there is one. -/
def readNumeral (cs : List Char) : Option Nat × List Char :=
  let digits := cs.takeWhile Char.isDigit
  (if digits.isEmpty then none else some (Nat.ofDigitChars 10 digits 0),
    cs.dropWhile Char.isDigit)

/-- Take the number behind a mark, if the text begins with the mark. -/
def readMarked (mark : Char) : List Char → Option Nat × List Char
  | [] => (none, [])
  | c :: cs => if c = mark then readNumeral cs else (none, c :: cs)

/-- Take one signature from the start of a key. -/
def read : List Char → Option (Fragment × List Char)
  | [] => none
  | head :: cs =>
      let (constant, cs) := readNumeral cs
      let (length, cs) := readMarked 'r' cs
      let (count, cs) := readMarked 'R' cs
      some (⟨head, constant, length, count⟩, cs)

/-- A number is read back up to its last digit. What stands behind it may be anything but a
digit. -/
theorem readNumeral_numeral (n : Nat) {rest : List Char}
    (hRest : ∀ c ∈ rest.head?, c.isDigit = false) :
    readNumeral (Shape.numeral n ++ rest) = (some n, rest) := by
  have hDigits : ∀ c ∈ Shape.numeral n, c.isDigit = true := fun c hc =>
    Nat.isDigit_of_mem_toDigits (by decide) (by decide) hc
  obtain ⟨hTake, hDrop⟩ := Text.takeWhile_and_dropWhile_append hDigits hRest
  have hSome : Shape.numeral n ≠ [] := Nat.toDigits_ne_nil
  have hValue : Nat.ofDigitChars 10 (Shape.numeral n) 0 = n := Nat.ofDigitChars_ten_toDigits
  simp [readNumeral, hTake, hDrop, hSome, hValue]

theorem readNumeral_markedNumeral (n : Option Nat) {rest : List Char}
    (hRest : ∀ c ∈ rest.head?, c.isDigit = false) :
    readNumeral (markedNumeral [] n ++ rest) = (n, rest) := by
  cases n with
  | some n => exact readNumeral_numeral n hRest
  | none =>
      cases rest with
      | nil => rfl
      | cons c cs => simp [readNumeral, markedNumeral, hRest c rfl]

/-- A number behind its mark is read back. Where it is missing, the rest must not begin with the
mark. -/
theorem readMarked_markedNumeral (mark : Char) (n : Option Nat) {rest : List Char}
    (hRest : ∀ c ∈ rest.head?, c.isDigit = false ∧ c ≠ mark) :
    readMarked mark (markedNumeral [mark] n ++ rest) = (n, rest) := by
  cases n with
  | some n =>
      simpa [readMarked, markedNumeral] using
        readNumeral_numeral n fun c hc => (hRest c hc).1
  | none =>
      cases rest with
      | nil => rfl
      | cons c cs => simp [readMarked, markedNumeral, (hRest c rfl).2]

/-- What follows a number can only begin with its mark or with what comes later. -/
theorem head?_markedNumeral {mark : Char} {n : Option Nat} {rest : List Char} {c : Char}
    (hc : c ∈ (markedNumeral [mark] n ++ rest).head?) : c = mark ∨ c ∈ rest.head? := by
  cases n with
  | some n => exact Or.inl (by simpa [markedNumeral] using hc.symm)
  | none => exact Or.inr (by simpa [markedNumeral] using hc)

/-- A signature is read back, whatever begins with a letter and stands behind it. So a row of
signatures can be read from left to right without any separators. -/
theorem read_chars (f : Fragment) {rest : List Char}
    (hRest : ∀ c ∈ rest.head?, Category.IsInitial c) :
    read (f.chars ++ rest) = some (f, rest) := by
  have hCount : ∀ c ∈ rest.head?, c.isDigit = false ∧ c ≠ 'R' := fun c hc =>
    ⟨(hRest c hc).1, (hRest c hc).2.2⟩
  have hLength : ∀ c ∈ (markedNumeral ['R'] f.count ++ rest).head?,
      c.isDigit = false ∧ c ≠ 'r' := by
    intro c hc
    rcases head?_markedNumeral hc with rfl | hLater
    · decide
    · exact ⟨(hRest c hLater).1, (hRest c hLater).2.1⟩
  have hConstant : ∀ c ∈
      (markedNumeral ['r'] f.length ++ (markedNumeral ['R'] f.count ++ rest)).head?,
      c.isDigit = false := by
    intro c hc
    rcases head?_markedNumeral hc with rfl | hLater
    · decide
    · exact (hLength c hLater).1
  simp only [chars, List.cons_append, List.append_assoc, read,
    readNumeral_markedNumeral f.constant hConstant, readMarked_markedNumeral 'r' f.length hLength,
    readMarked_markedNumeral 'R' f.count hCount]

/-- Rows of signatures that begin with letters differ in their text if they differ at all. Which
letters there are is left open. -/
theorem flatMap_chars_injective {fs gs : List Fragment}
    (hf : ∀ f ∈ fs, Category.IsInitial f.head) (hg : ∀ g ∈ gs, Category.IsInitial g.head)
    (h : fs.flatMap chars = gs.flatMap chars) : fs = gs := by
  have hStart : ∀ {fs : List Fragment}, (∀ f ∈ fs, Category.IsInitial f.head) →
      ∀ c ∈ (fs.flatMap chars).head?, Category.IsInitial c := by
    intro fs hInitial c hc
    cases fs with
    | nil => cases hc
    | cons f fs =>
        obtain rfl : f.head = c := by simpa [chars] using hc
        exact hInitial f List.mem_cons_self
  induction fs generalizing gs with
  | nil =>
      cases gs with
      | nil => rfl
      | cons g gs => simp [chars] at h
  | cons f fs ih =>
      cases gs with
      | nil => simp [chars] at h
      | cons g gs =>
          obtain ⟨_, hfs⟩ := List.forall_mem_cons.mp hf
          obtain ⟨_, hgs⟩ := List.forall_mem_cons.mp hg
          have hRead := congrArg read h
          rw [List.flatMap_cons, List.flatMap_cons, read_chars f (hStart hfs),
            read_chars g (hStart hgs), Option.some.injEq, Prod.mk.injEq] at hRead
          rw [hRead.1, ih hfs hgs hRead.2]

end Fragment

namespace Shape

/-- The signature that a key is made of is the text of its parts. -/
theorem signatureChars_eq_chars (s : Shape) : s.signatureChars = s.fragment.chars := by
  obtain ⟨category, count, length⟩ := s
  rcases count with _ | c | c <;> rcases length with _ | l | l <;>
    simp [signatureChars, fragment, Fragment.ofForm, Fragment.chars, Fragment.markedNumeral, form,
      Bound.form, FormBound.constant?, FormBound.position?]

theorem letter_fragment (s : Shape) : s.fragment.letter = s.category.letter := by
  simp only [fragment, Fragment.letter, Fragment.ofForm]
  split
  · exact Category.toLower_toUpper_letter s.category
  · exact Category.toLower_letter s.category

theorem isInitial_head_fragment (s : Shape) : Category.IsInitial s.fragment.head := by
  simp only [fragment, Fragment.ofForm]
  split
  · exact Category.isInitial_toUpper_letter s.category
  · exact Category.isInitial_letter s.category

/-- The parts of a signature tell the form again. The case of its letter tells an array. More than
the form cannot be told: a constant count of fixed blocks is lost in the length of all blocks. -/
theorem form_fragment (s : Shape) : s.fragment.form = s.form := by
  have hLower := Category.isUpper_letter s.category
  have hUpper := Category.isUpper_toUpper_letter s.category
  obtain ⟨category, count, length⟩ := s
  rcases count with _ | c | c <;> rcases length with _ | l | l <;>
    simp [fragment, Fragment.ofForm, Fragment.form, form, Bound.form, FormBound.constant?,
      FormBound.position?, hLower, hUpper]

/-- Signatures agree exactly in the letter and the form. Types that share a letter are not told
apart. -/
theorem fragment_eq_iff {s t : Shape} :
    s.fragment = t.fragment ↔ s.category.letter = t.category.letter ∧ s.form = t.form := by
  constructor
  · intro h
    rw [← letter_fragment, ← letter_fragment t, ← form_fragment, ← form_fragment t, h]
    exact ⟨rfl, rfl⟩
  · rintro ⟨hLetter, hForm⟩
    rw [fragment, fragment, hLetter, hForm]

/-- No row of signatures can be read as another one. The shapes themselves may differ, as far as
their signatures do not tell. -/
theorem flatMap_signatureChars_eq_iff {ss ts : List Shape} :
    ss.flatMap signatureChars = ts.flatMap signatureChars ↔
      List.Forall₂ (fun s t => s.fragment = t.fragment) ss ts := by
  have hChars : ∀ ss : List Shape,
      ss.flatMap signatureChars = (ss.map fragment).flatMap Fragment.chars := by
    intro ss
    rw [List.flatMap_map]
    exact congrArg (List.flatMap · ss) (funext signatureChars_eq_chars)
  have hParts : List.Forall₂ (fun s t => s.fragment = t.fragment) ss ts ↔
      ss.map fragment = ts.map fragment := by
    rw [← List.forall₂_eq_eq_eq, List.forall₂_map_left_iff, List.forall₂_map_right_iff]
  rw [hChars, hChars, hParts]
  constructor
  · apply Fragment.flatMap_chars_injective
    · exact List.forall_mem_map.mpr fun s _ => isInitial_head_fragment s
    · exact List.forall_mem_map.mpr fun t _ => isInitial_head_fragment t
  · intro h
    rw [h]

end Shape

namespace Template

/-- Equal keys come from shapes with equal parts, place by place. So the templates have equally many
properties. -/
theorem fragments_eq_of_keyOf {properties others : List Property} {shapes shapes' : List Shape}
    {key : String} (hKey : keyOf properties = .ok key) (hKey' : keyOf others = .ok key)
    (hShapes : Shape.resolveAll properties = .ok shapes)
    (hShapes' : Shape.resolveAll others = .ok shapes') :
    List.Forall₂ (fun s t => s.fragment = t.fragment) shapes shapes' := by
  obtain ⟨_, hSame, hText⟩ := keyOf_eq_ok_iff.mp hKey
  obtain ⟨_, hSame', hText'⟩ := keyOf_eq_ok_iff.mp hKey'
  cases hShapes.symm.trans hSame
  cases hShapes'.symm.trans hSame'
  exact Shape.flatMap_signatureChars_eq_iff.mp (String.ofList_injective (hText.trans hText'.symm))

/-- Keys are uniquely decodable. Two templates with keys have the same one exactly if they have as
many properties as each other and, place by place, the same letter and the same cardinality; and
then the row of their signatures is the same too, so that no signature is taken for a part of
another. -/
theorem keyOf_eq_keyOf_iff {properties others : List Property} {key key' : String}
    (hKey : keyOf properties = .ok key) (hKey' : keyOf others = .ok key') :
    (key = key' ↔
      properties.length = others.length ∧
        ∀ i p q, properties[i]? = some p → others[i]? = some q →
          ∃ s t, Shape.resolve properties i p = .ok s ∧ Shape.resolve others i q = .ok t ∧
            s.category.letter = t.category.letter ∧ s.form = t.form) ∧
    (key = key' →
      ∀ i p q, properties[i]? = some p → others[i]? = some q →
        (Shape.resolve properties i p).map Shape.signature =
          (Shape.resolve others i q).map Shape.signature) := by
  obtain ⟨shapes, hShapes, rfl⟩ := keyOf_eq_ok_iff.mp hKey
  obtain ⟨shapes', hShapes', rfl⟩ := keyOf_eq_ok_iff.mp hKey'
  have hParts : String.ofList (shapes.flatMap Shape.signatureChars) =
      String.ofList (shapes'.flatMap Shape.signatureChars) ↔
        List.Forall₂ (fun s t => s.fragment = t.fragment) shapes shapes' :=
    String.ofList_inj.trans Shape.flatMap_signatureChars_eq_iff
  have hPlaces := hParts.trans (Shape.forall₂_iff_of_resolveAll hShapes hShapes')
  simp only [← Shape.fragment_eq_iff]
  refine ⟨hPlaces, fun hSame i p q hp hq => ?_⟩
  obtain ⟨s, t, hs, ht, hFragment⟩ := (hPlaces.mp hSame).2 i p q hp hq
  rw [hs, ht]
  simp only [Except.map, Shape.signature, Shape.signatureChars_eq_chars, hFragment]

/-- A template with blocks of bytes as its only property. -/
def blocksOf (count length : UInt32) : List Property :=
  [((Property.ofType "Blocks" .binary).withCount (.fixed count)).withLength (.fixed length)]

/-- Blocks of bytes behind a counter, with values and a text that the counter measures. -/
def countedBlocks (counter : InType) (count length : UInt32) : List Property :=
  .ofType "N" counter :: blocksOf count length ++
    [(Property.ofType "Values" .int16).withCount (.ref "N"),
      (Property.ofType "Text" .ansiString).withLength (.ref "N")]

/-- Four signatures in a row make up one key. Blocks with equal products are written alike in it,
also where the product exceeds 32 bits, and so are the types of the counters. -/
theorem keyOf_countedBlocks_forms :
    keyOf (countedBlocks .uint32 65536 65536) = .ok "db4294967296HR0sr0" ∧
      keyOf (countedBlocks .hexInt32 32768 131072) = .ok "db4294967296HR0sr0" ∧
      ∀ i p q, (countedBlocks .uint32 65536 65536)[i]? = some p →
        (countedBlocks .hexInt32 32768 131072)[i]? = some q →
          (∃ s t, Shape.resolve (countedBlocks .uint32 65536 65536) i p = .ok s ∧
            Shape.resolve (countedBlocks .hexInt32 32768 131072) i q = .ok t ∧
              s.category.letter = t.category.letter ∧ s.form = t.form) ∧
          (Shape.resolve (countedBlocks .uint32 65536 65536) i p).map Shape.signature =
            (Shape.resolve (countedBlocks .hexInt32 32768 131072) i q).map Shape.signature := by
  have hKey : keyOf (countedBlocks .uint32 65536 65536) = .ok "db4294967296HR0sr0" := rfl
  have hKey' : keyOf (countedBlocks .hexInt32 32768 131072) = .ok "db4294967296HR0sr0" := rfl
  obtain ⟨hForms, hSignatures⟩ := keyOf_eq_keyOf_iff hKey hKey'
  exact ⟨hKey, hKey', fun i p q hp hq => ⟨(hForms.mp rfl).2 i p q hp hq,
    hSignatures rfl i p q hp hq⟩⟩

end Template

end EventManifest
