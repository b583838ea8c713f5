import EventManifest.Proofs.Plan.Build
import EventManifest.Proofs.Text.ByteOrder
import Mathlib.Algebra.Order.Group.Nat
import Mathlib.Data.List.TakeWhile

/-!
Reading traits by their layout. A reader finds the end of the name at the first NUL, so it gets back
what the provider asked for exactly if the name that was written has no NUL of its own. The group
part behind the name has a fixed size, and nothing else can lead a reader astray.
-/

namespace EventManifest

namespace Bytes

/-- Divide bytes after so many, if there are as many. -/
def take? (width : Nat) (bytes : List UInt8) : Option (List UInt8 × List UInt8) :=
  if width ≤ bytes.length then some (bytes.take width, bytes.drop width) else none

/-- Read up to the first NUL, and return what follows the NUL. -/
def takeTerminated? : List UInt8 → Option (List UInt8 × List UInt8)
  | [] => none
  | byte :: rest =>
      if byte = 0 then some ([], rest)
      else (takeTerminated? rest).map fun (field, tail) => (byte :: field, tail)

/-- A number is read back from its bytes, if they are enough for it. -/
theorem ofLittleEndian_littleEndian {width n : Nat} (h : n < 256 ^ width) :
    ofLittleEndian (littleEndian width n) = n := by
  induction width generalizing n with
  | zero =>
      obtain rfl : n = 0 := by simpa using h
      rfl
  | succ width ih =>
      have hQuotient : n / 256 < 256 ^ width := by
        rw [pow_succ] at h
        exact Nat.div_lt_of_lt_mul (by omega)
      rw [littleEndian, ofLittleEndian, ih hQuotient, UInt8.toNat_ofNat', Nat.mod_add_div]

/-- A field of known width is cut off, whatever follows. -/
theorem take?_append {width : Nat} {field : List UInt8} (h : field.length = width)
    (rest : List UInt8) : take? width (field ++ rest) = some (field, rest) := by
  rw [take?, if_pos (by simp [h]), List.take_left' h, List.drop_left' h]

/-- What is read up to the first NUL is the beginning without a NUL, whatever was written. If the
field has a NUL itself, the rest of it is taken for what follows. -/
theorem takeTerminated?_append (field rest : List UInt8) :
    takeTerminated? (field ++ 0 :: rest) =
      some (field.takeWhile (· ≠ 0), ((field.dropWhile (· ≠ 0)) ++ 0 :: rest).tail) := by
  induction field with
  | nil => rfl
  | cons byte field ih =>
      rw [List.cons_append, takeTerminated?]
      by_cases hZero : byte = 0
      · simp [hZero]
      · simp [hZero, ih]

end Bytes

namespace Guid

/-- Read the sixteen bytes of a GUID, and return what follows them. -/
def takeBytes? (bytes : List UInt8) : Option (Guid × List UInt8) := do
  let (data1, bytes) ← Bytes.take? 4 bytes
  let (data2, bytes) ← Bytes.take? 2 bytes
  let (data3, bytes) ← Bytes.take? 2 bytes
  let (data4, bytes) ← Bytes.take? 8 bytes
  let g : Guid := {
    data1 := UInt32.ofNat (Bytes.ofLittleEndian data1)
    data2 := UInt16.ofNat (Bytes.ofLittleEndian data2)
    data3 := UInt16.ofNat (Bytes.ofLittleEndian data3)
    data4 := UInt64.ofNat (Bytes.ofLittleEndian data4.reverse) }
  return (g, bytes)

/-- A GUID is read back from its sixteen bytes, the first three fields with their lowest byte
first. -/
theorem takeBytes?_toBytes (g : Guid) (rest : List UInt8) :
    takeBytes? (g.toBytes ++ rest) = some (g, rest) := by
  have h1 : g.data1.toNat < 256 ^ 4 := g.data1.toNat_lt
  have h2 : g.data2.toNat < 256 ^ 2 := g.data2.toNat_lt
  have h3 : g.data3.toNat < 256 ^ 2 := g.data3.toNat_lt
  have h4 : g.data4.toNat < 256 ^ 8 := g.data4.toNat_lt
  simp only [takeBytes?, toBytes, tailBytes, List.append_assoc,
    Bytes.take?_append (Bytes.length_littleEndian _ _),
    Bytes.take?_append (Bytes.length_bigEndian _ _), Option.bind_eq_bind, Option.bind_some,
    Option.pure_def, Bytes.ofLittleEndian_littleEndian h1, Bytes.ofLittleEndian_littleEndian h2,
    Bytes.ofLittleEndian_littleEndian h3, UInt32.ofNat_toNat, UInt16.ofNat_toNat]
  rw [Bytes.bigEndian, List.reverse_reverse, Bytes.ofLittleEndian_littleEndian h4,
    UInt64.ofNat_toNat]

end Guid

namespace Text

/-- Only a code point of one byte has a byte below 128. So no byte of a longer code can be taken for
a NUL. -/
theorem le_of_mem_codeBytes {mark count v : Nat} (hMark : 0x80 ≤ mark)
    (hFirst : v / Nat.pow 64 count + mark < 0x100) {byte : UInt8}
    (h : byte ∈ codeBytes mark count v) : 0x80 ≤ byte.toNat := by
  induction count generalizing v with
  | zero =>
      have hv : v + mark < 0x100 := by simpa [Nat.pow] using hFirst
      rw [codeBytes, List.mem_singleton] at h
      rw [h, UInt8.toNat_ofNat']
      omega
  | succ count ih =>
      rcases List.mem_append.mp h with h | h
      · refine ih ?_ h
        rwa [Nat.div_div_eq_div_mul, Nat.mul_comm]
      · rw [List.mem_singleton.mp h, UInt8.toNat_ofNat']
        omega

theorem zero_mem_utf8EncodeChar_iff {c : Char} :
    0 ∈ String.utf8EncodeChar c ↔ c = '\x00' := by
  have hLater {mark count : Nat} (hMark : 0x80 ≤ mark) (hSize : 0x80 ≤ c.val.toNat)
      (hFirst : c.val.toNat / Nat.pow 64 count + mark < 0x100) :
      0 ∈ codeBytes mark count c.val.toNat ↔ c = '\x00' := by
    refine iff_of_false (fun h => absurd (le_of_mem_codeBytes hMark hFirst h) (by decide)) ?_
    rintro rfl
    exact absurd hSize (by decide)
  rcases utf8EncodeChar_cases c with ⟨hc, hBytes⟩ | ⟨hLow, hc, hBytes⟩ | ⟨hLow, hc, hBytes⟩ |
    ⟨hLow, hc, hBytes⟩ <;> rw [hBytes]
  · rw [codeBytes, List.mem_singleton, ← UInt8.toNat_inj, UInt8.toNat_ofNat', ← Char.val_inj,
      ← UInt32.toNat_inj]
    change 0 = (c.val.toNat + 0) % 256 ↔ c.val.toNat = 0
    omega
  all_goals
    refine hLater (by decide) (by omega) ?_
    simp only [Nat.pow, Nat.mul_eq]
    omega

/-- The bytes of a text have a NUL exactly if the text has one. No other character has a zero
byte. -/
theorem zero_mem_toUTF8_iff {s : String} : 0 ∈ s.toUTF8.toList ↔ '\x00' ∈ s.toList := by
  rw [toUTF8_toList, List.mem_flatMap]
  simp only [zero_mem_utf8EncodeChar_iff, exists_eq_right]

end Text

namespace Traits

/-- What a reader finds in traits. -/
structure Contents where
  size : Nat
  name : List UInt8
  group : Option Guid
deriving DecidableEq, Repr

/-- Read what follows the name: nothing, or one group part and nothing behind it. -/
def readGroup? (bytes : List UInt8) : Option (Option Guid) :=
  if bytes.isEmpty then some none
  else do
    let (size, bytes) ← Bytes.take? 2 bytes
    let (type, bytes) ← Bytes.take? 1 bytes
    let (group, bytes) ← Guid.takeBytes? bytes
    if Bytes.ofLittleEndian size = 19 ∧ type = [1] ∧ bytes = [] then some (some group) else none

/-- Read traits by their layout. -/
def read? (bytes : List UInt8) : Option Contents := do
  let (size, bytes) ← Bytes.take? 2 bytes
  let (name, bytes) ← Bytes.takeTerminated? bytes
  let group ← readGroup? bytes
  return ⟨Bytes.ofLittleEndian size, name, group⟩

/-- The bytes of the group part, if the provider is in a group. -/
def groupPart (p : Provider) : List UInt8 :=
  (p.controlGuid.map groupBytes).getD []

/-- The name with its end, and then the group part if there is one. -/
theorem body_eq (p : Provider) : body p = nameBytes p ++ 0 :: groupPart p := by
  rw [body, groupPart]
  cases p.controlGuid <;> rfl

/-- The group is read back, and so is that there is none. -/
theorem readGroup?_groupPart (p : Provider) : readGroup? (groupPart p) = some p.controlGuid := by
  rw [groupPart]
  cases p.controlGuid with
  | none => rfl
  | some group =>
      have hGuid : Guid.takeBytes? group.toBytes = some (group, []) := by
        simpa using group.takeBytes?_toBytes []
      have hPart : groupBytes group = Bytes.littleEndian 2 19 ++ ([1] ++ group.toBytes) := rfl
      rw [Option.map_some, Option.getD_some, readGroup?, if_neg (by simp [hPart]), hPart,
        Bytes.take?_append (Bytes.length_littleEndian _ _)]
      simp only [Option.bind_eq_bind, Option.bind_some, Bytes.take?_append List.length_singleton,
        hGuid]
      rfl

/-- The steps of reading what was written for a provider. The name ends where its first NUL is, or
else where it was meant to. -/
theorem read?_ofProvider {p : Provider} {bytes : List UInt8}
    (h : ofProvider p = .ok (some bytes)) :
    read? bytes =
      (readGroup? (((nameBytes p).dropWhile (· ≠ 0)) ++ 0 :: groupPart p).tail).map fun group =>
        ⟨bytes.length, (nameBytes p).takeWhile (· ≠ 0), group⟩ := by
  rw [ofProvider] at h
  split at h
  · cases h
  · dsimp only at h
    split at h
    · rename_i hSize
      cases h
      have hWord : 2 + (body p).length < 256 ^ 2 := hSize
      rw [read?, Bytes.take?_append (Bytes.length_littleEndian _ _), body_eq]
      simp only [Option.bind_eq_bind, Option.bind_some, Bytes.takeTerminated?_append]
      rw [← body_eq, Bytes.ofLittleEndian_littleEndian hWord]
      rw [List.length_append, Bytes.length_littleEndian, Option.map_eq_bind]
      rfl
    · cases h

/-- Traits give back their size and the beginning of the name up to its first NUL, if anything. They
give back the whole name, and the group of the provider or its absence, exactly if the name was not
asked for or has no NUL. -/
theorem read?_eq_iff_of_ofProvider {p : Provider} {bytes : List UInt8}
    (h : ofProvider p = .ok (some bytes)) :
    (∀ found, read? bytes = some found → found.size = bytes.length ∧
      found.name = (nameBytes p).takeWhile (· ≠ 0)) ∧
    (read? bytes = some {
        size := bytes.length
        name := if p.includeNameInTraits then p.name.toUTF8.toList else []
        group := p.controlGuid } ↔
      (p.includeNameInTraits = true → '\x00' ∉ p.name.toList)) := by
  have hRead := read?_ofProvider h
  have hName : (if p.includeNameInTraits then p.name.toUTF8.toList else []) = nameBytes p := rfl
  have hZero : (p.includeNameInTraits = true → '\x00' ∉ p.name.toList) ↔ 0 ∉ nameBytes p := by
    rw [nameBytes, ← Text.zero_mem_toUTF8_iff]
    cases p.includeNameInTraits <;> simp
  rw [hRead, hName, hZero]
  refine ⟨fun found hFound => ?_, fun hFound hMem => ?_, fun hAbsent => ?_⟩
  · obtain ⟨group, _, rfl⟩ := Option.map_eq_some_iff.mp hFound
    exact ⟨rfl, rfl⟩
  · obtain ⟨group, _, hSame⟩ := Option.map_eq_some_iff.mp hFound
    have hWhole : (nameBytes p).takeWhile (· ≠ 0) = nameBytes p := congrArg Contents.name hSame
    simpa using List.takeWhile_eq_self_iff.mp hWhole 0 hMem
  · have hAll : ∀ byte ∈ nameBytes p, decide (byte ≠ 0) = true := fun byte hByte =>
      decide_eq_true fun hNul => hAbsent (hNul ▸ hByte)
    rw [List.takeWhile_eq_self_iff.mpr hAll, List.dropWhile_eq_nil_iff.mpr hAll, List.nil_append,
      List.tail_cons, readGroup?_groupPart]
    rfl

/-- A provider in no group, whose name goes on behind a NUL as a group part would. -/
def maskedProvider : Provider :=
  { Provider.bare "A\x00\x13\x00\x01GGGGGGGGGGGGGGG" [] with includeNameInTraits := true }

/-- The reader takes the rest of the name, with the NUL that ends it, for a group. Nothing in the
writing of traits keeps a name from having a NUL. -/
theorem read?_maskedProvider :
    ∃ bytes, ofProvider maskedProvider = .ok (some bytes) ∧
      read? bytes =
        some ⟨23, [0x41], some ⟨0x47474747, 0x4747, 0x4747, 0x4747474747474700⟩⟩ ∧
      maskedProvider.controlGuid = none ∧
      read? bytes ≠ some {
        size := bytes.length
        name := maskedProvider.name.toUTF8.toList
        group := maskedProvider.controlGuid } := by
  have hName : nameBytes maskedProvider =
      [0x41, 0, 0x13, 0, 1] ++ List.replicate 15 0x47 := by
    rw [nameBytes, Text.toUTF8_toList]
    decide
  have hTraits : ofProvider maskedProvider =
      .ok (some ([23, 0, 0x41, 0, 0x13, 0, 1] ++ List.replicate 15 0x47 ++ [0])) := by
    rw [ofProvider, body_eq, hName]
    rfl
  have hNul : '\x00' ∈ maskedProvider.name.toList := by decide
  refine ⟨_, hTraits, by decide, rfl, fun hRead => ?_⟩
  exact (read?_eq_iff_of_ofProvider hTraits).2.mp hRead rfl hNul

end Traits

end EventManifest
