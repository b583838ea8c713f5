import EventManifest.Json.Damage
import EventManifest.Number.Shortest

/-!
Numerals of a document and the numbers they denote. Integers of 64 bits are exact; every other
numeral denotes a floating-point number, and one that is too large for these denotes nothing.
-/

namespace EventManifest.Json

/-- A number as a reader sees it. -/
inductive Number where
  | natural (n : Nat)
  /-- The integer `-n`, which is below zero. -/
  | negative (n : Nat)
  | real (below : Bool) (x : Binary64)
deriving DecidableEq, Repr

/-- A numeral in its parts. The digits are characters; the first part has at least one of them, and
zero is not followed by further digits. -/
structure Numeral where
  below : Bool
  whole : List Char
  fraction : Option (List Char)
  /-- Whether the exponent is negative, and its digits. -/
  exponent : Option (Bool × List Char)
deriving DecidableEq, Repr

namespace Numeral

def digitValue (c : Char) : Nat :=
  c.toNat - '0'.toNat

/-- Extend a number by digits as long as it fits 64 bits; the digits left over are returned. -/
def absorb (value : Nat) : List Char → Nat × List Char
  | [] => (value, [])
  | c :: rest =>
      if 10 * value + digitValue c < UInt64.size then absorb (10 * value + digitValue c) rest
      else (value, c :: rest)

/-- The number `±significand * 10 ^ exponent`, unless it is too large. -/
def real? (below : Bool) (significand : Nat) (exponent : Int) : Option Number :=
  (Binary64.ofDecimal? significand exponent).map (.real below)

/-- What a numeral without fraction and exponent denotes. Zero with a sign is no integer. -/
def integer? (below : Bool) (value : Nat) : Option Number :=
  if !below then some (.natural value)
  else if 0 < value ∧ value ≤ 0x8000000000000000 then some (.negative value)
  else real? true value 0

/-- The number that a numeral denotes. Of a long numeral only the first digits that fit 64 bits
count for the significand. An exponent of more than 31 bits stands for zero or for a number that is
too large. -/
def value? (n : Numeral) : Option Number :=
  let (significand, dropped) := absorb 0 n.whole
  match n.fraction, n.exponent with
  | none, none =>
      if dropped.isEmpty then integer? n.below significand
      else real? n.below significand dropped.length
  | fraction, exponent =>
      let digits := fraction.getD []
      let (significand, ignored) := absorb significand digits
      let start : Int := dropped.length - (digits.length - ignored.length)
      match exponent with
      | none => real? n.below significand start
      | some (negative, digits) =>
          let size := digits.foldl (fun value c => 10 * value + digitValue c) 0
          if size < 0x80000000 then
            real? n.below significand (if negative then start - size else start + size)
          else if significand = 0 ∨ negative then some (.real n.below ⟨0, -1074⟩)
          else none

/-- The number, where a numeral without one breaks the grammar. -/
def read (n : Numeral) : Except Damage Number :=
  match n.value? with
  | some value => .ok value
  | none => .error .malformed

/-- The written form. An exponent always has its sign. -/
def text (n : Numeral) : List Char :=
  (if n.below then ['-'] else []) ++ n.whole ++
    (match n.fraction with
      | some digits => '.' :: digits
      | none => []) ++
    (match n.exponent with
      | some (negative, digits) => 'e' :: (if negative then '-' else '+') :: digits
      | none => [])

/-- The numeral of a decimal: positional from `10 ^ -5` up to `10 ^ 16`, and there with at least
one digit on each side of the point; with an exponent elsewhere. -/
def ofDecimal (below : Bool) (x : Decimal) : Numeral :=
  let digits := Nat.toDigits 10 x.digits
  let place : Int := digits.length + x.exponent
  if 0 ≤ x.exponent ∧ place ≤ 16 then
    ⟨below, digits ++ List.replicate x.exponent.toNat '0', some ['0'], none⟩
  else if 0 < place ∧ place ≤ 16 then
    ⟨below, digits.take place.toNat, some (digits.drop place.toNat), none⟩
  else if -5 < place ∧ place ≤ 0 then
    ⟨below, ['0'], some (List.replicate (-place).toNat '0' ++ digits), none⟩
  else
    let power := (decide (place - 1 < 0), Nat.toDigits 10 (place - 1).natAbs)
    ⟨below, digits.take 1, if digits.length = 1 then none else some (digits.drop 1), some power⟩

end Numeral

/-- The numeral of a number: an integer's digits, or the shortest decimal. -/
def Number.numeral : Number → Numeral
  | .natural n => ⟨false, Nat.toDigits 10 n, none, none⟩
  | .negative n => ⟨true, Nat.toDigits 10 n, none, none⟩
  | .real below x =>
      if x.mantissa = 0 then ⟨below, ['0'], some ['0'], none⟩
      else Numeral.ofDecimal below x.shortest

def Number.text (n : Number) : String :=
  String.ofList n.numeral.text

end EventManifest.Json
