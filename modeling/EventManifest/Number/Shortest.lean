import EventManifest.Number.Binary64

/-!
The fewest decimal digits that denote a floating-point number: of all decimals that round to it,
one with the least number of digits, and of those the nearest. An exact tie goes to the even digit.
-/

namespace EventManifest

/-- The decimal `digits * 10 ^ exponent`. -/
structure Decimal where
  digits : Nat
  exponent : Int
deriving DecidableEq, Repr

namespace Decimal

/-- The decimal as an exact fraction. -/
def toRatio (x : Decimal) : Nat × Nat :=
  if 0 ≤ x.exponent then (x.digits * Nat.pow 10 x.exponent.toNat, 1)
  else (x.digits, Nat.pow 10 (-x.exponent).toNat)

/-- Leave out zeros at the end of the digits. The fuel is the number of digits. -/
def stripZeros : (fuel : Nat) → Decimal → Decimal
  | 0, x => x
  | fuel + 1, x =>
      if x.digits ≠ 0 ∧ x.digits % 10 = 0 then stripZeros fuel ⟨x.digits / 10, x.exponent + 1⟩
      else x

end Decimal

namespace Binary64

/-- Whether a decimal rounds to the number. -/
def isDenotedBy (x : Binary64) (y : Decimal) : Bool :=
  let (num, den) := y.toRatio
  ofRatio? num den == some x

/-- The position of the first digit: the number lies in `10 ^ (place - 1)` to `10 ^ place`. It is
estimated from the bit lengths and then corrected, the estimate being at most one place off. -/
def decimalPlace (x : Binary64) : Int :=
  let (num, den) := x.toRatio
  let atLeast (k : Int) : Bool :=
    if 0 ≤ k then den * Nat.pow 10 k.toNat ≤ num else den ≤ num * Nat.pow 10 (-k).toNat
  let estimate := (((num.log2 : Int) - den.log2) * 30103) / 100000
  if atLeast (estimate + 1) then estimate + 2
  else if atLeast estimate then estimate + 1
  else if atLeast (estimate - 1) then estimate
  else estimate - 1

/-- The number's two neighbours among the decimals with `count` digits, the nearer first. -/
def neighbours (x : Binary64) (count : Nat) : List Decimal :=
  let exponent := x.decimalPlace - count
  let (num, den) := x.toRatio
  let (num, den) :=
    if 0 ≤ exponent then (num, den * Nat.pow 10 exponent.toNat)
    else (num * Nat.pow 10 (-exponent).toNat, den)
  let below := num / den
  if roundDiv num den = below then [⟨below, exponent⟩, ⟨below + 1, exponent⟩]
  else [⟨below + 1, exponent⟩, ⟨below, exponent⟩]

/-- The nearest decimal with `count` digits that denotes the number, if there is one. -/
def nearestWith? (x : Binary64) (count : Nat) : Option Decimal :=
  ((x.neighbours count).find? x.isDenotedBy).map (Decimal.stripZeros count)

/-- The shortest decimal of a number that is not zero. Seventeen digits always suffice. -/
def shortest (x : Binary64) : Decimal :=
  ((List.range 17).findSome? fun k => x.nearestWith? (k + 1)).getD ⟨0, 0⟩

end Binary64

end EventManifest
