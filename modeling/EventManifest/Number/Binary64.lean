/-!
Non-negative binary floating-point numbers of 53 bits, with the rounding of IEEE 754: to nearest,
a half going to the even mantissa. All arithmetic is on natural numbers.
-/

namespace EventManifest

/-- The number `mantissa * 2 ^ exponent`. The functions below keep the mantissa under `2 ^ 53` and
the exponent between -1074 and 971, with the mantissa at least `2 ^ 52` above the least
exponent. -/
structure Binary64 where
  mantissa : Nat
  exponent : Int
deriving DecidableEq, Repr

namespace Binary64

/-- A quotient rounded to the nearest integer, a half going to the even one. -/
def roundDiv (num den : Nat) : Nat :=
  let quotient := num / den
  let twice := 2 * (num % den)
  if twice < den ∨ (twice = den ∧ quotient % 2 = 0) then quotient else quotient + 1

/-- `num / den / 2 ^ exponent` as a fraction. -/
def scaleDown (num den : Nat) (exponent : Int) : Nat × Nat :=
  if 0 ≤ exponent then (num, den * Nat.pow 2 exponent.toNat)
  else (num * Nat.pow 2 (-exponent).toNat, den)

/-- The exponent at which the quotient needs at most 53 bits before its point, and no fewer unless
that would pass the least exponent. -/
def exponentFor (num den : Nat) : Int :=
  let least := max (-1074) ((num.log2 : Int) - den.log2 - 53)
  let (n, d) := scaleDown num den least
  if n / d < 0x20000000000000 then least else least + 1

/-- The number nearest to a quotient, or nothing when that is too large. -/
def ofRatio? (num den : Nat) : Option Binary64 :=
  if num = 0 then some ⟨0, -1074⟩
  else
    let exponent := exponentFor num den
    let (n, d) := scaleDown num den exponent
    let rounded := roundDiv n d
    let (mantissa, exponent) :=
      if rounded = 0x20000000000000 then (0x10000000000000, exponent + 1) else (rounded, exponent)
    if exponent ≤ 971 then some ⟨mantissa, exponent⟩ else none

/-- The number as an exact fraction. -/
def toRatio (x : Binary64) : Nat × Nat :=
  if 0 ≤ x.exponent then (x.mantissa * Nat.pow 2 x.exponent.toNat, 1)
  else (x.mantissa, Nat.pow 2 (-x.exponent).toNat)

def mul? (x y : Binary64) : Option Binary64 :=
  let (a, b) := x.toRatio
  let (c, d) := y.toRatio
  ofRatio? (a * c) (b * d)

def div? (x y : Binary64) : Option Binary64 :=
  let (a, b) := x.toRatio
  let (c, d) := y.toRatio
  ofRatio? (a * d) (b * c)

/-- The nearest number to a natural number, where there is one. -/
def ofNat? (n : Nat) : Option Binary64 :=
  ofRatio? n 1

/-- The nearest number to a power of ten, where there is one. The last is `10 ^ 308`. -/
def powerOfTen? (k : Nat) : Option Binary64 :=
  ofNat? (Nat.pow 10 k)

/-- `significand * 10 ^ exponent`, computed with one rounding for the significand, one for the
power of ten and one for their product or quotient. A quotient by a power beyond `10 ^ 308` is
taken in steps of `10 ^ 308`, each rounded; the fuel bounds these steps. The result can differ
from the nearest number in its last bit. -/
def scaleByTen? : (fuel : Nat) → Binary64 → (exponent : Int) → Option Binary64
  | fuel, x, exponent =>
      if 0 ≤ exponent then
        if exponent ≤ 308 then (powerOfTen? exponent.toNat).bind x.mul?
        else if x.mantissa = 0 then some x else none
      else if -308 ≤ exponent then (powerOfTen? (-exponent).toNat).bind x.div?
      else if x.mantissa = 0 then some x
      else match fuel with
        | 0 => some x
        | fuel + 1 => do
            let y ← (powerOfTen? 308).bind x.div?
            scaleByTen? fuel y (exponent + 308)

/-- Two divisions by `10 ^ 308` bring every 64-bit significand to zero, so four steps suffice. -/
def ofDecimal? (significand : Nat) (exponent : Int) : Option Binary64 := do
  scaleByTen? 4 (← ofNat? significand) exponent

end Binary64

end EventManifest
