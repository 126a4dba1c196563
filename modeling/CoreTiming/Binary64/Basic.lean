/-!
# Binary64 numbers

A finite number is a sign, a significand below `2 ^ 53` and a power of two; beside the finite
numbers there are two infinities and one value that is no number. Its exact value is a dyadic
rational (`value?`), so numbers and integers compare exactly.

`ofRatio` rounds a quotient to the nearest number, a tie to the even significand
(`roundHalfEven_mul` fixes the exact case).
-/

namespace CoreTiming

/-- A binary64 number. -/
inductive Binary64 where
  /-- The number `significand * 2 ^ exponent`, with its sign. -/
  | finite (negative : Bool) (significand : Nat) (exponent : Int)
  | infinite (negative : Bool)
  | notANumber
  deriving DecidableEq

namespace Binary64

/-- The exponent of the smallest numbers. -/
def leastExponent : Int := -1074

/-- The exponent of the largest numbers. -/
def greatestExponent : Int := 971

/-- The least significand of 53 bits. Only the least exponent goes with smaller ones. -/
def leastNormal : Nat := 0x10000000000000

/-- The exact value of a finite number. -/
def value? : Binary64 → Option Dyadic
  | finite negative significand exponent =>
    some (.ofIntWithPrec (if negative then -significand else significand) (-exponent))
  | infinite _ => none
  | notANumber => none

/-- Whether two numbers are equal as numbers: zeros of either sign are, and a value that is no
number equals nothing. -/
def agrees : Binary64 → Binary64 → Bool
  | finite s m e, finite s' m' e' => (finite s m e).value? == (finite s' m' e').value?
  | infinite s, infinite s' => s == s'
  | _, _ => false

/-! ## Rounding -/

/-- The integer nearest to `num / den`, the even one of two equally near. -/
def roundHalfEven (num den : Nat) : Nat :=
  let floor := num / den
  let twice := 2 * (num % den)
  if twice < den ∨ (twice = den ∧ floor % 2 = 0) then floor else floor + 1

/-- A whole quotient is its own rounding. -/
theorem roundHalfEven_mul (n : Nat) {den : Nat} (h : 0 < den) :
    roundHalfEven (n * den) den = n := by
  simp [roundHalfEven, Nat.mul_div_cancel n h, h]

/-- The quotient `num / den` over a power of two, as a quotient of natural numbers. -/
def scaleDown (num den : Nat) (exponent : Int) : Nat × Nat :=
  if 0 ≤ exponent then (num, den * Nat.pow 2 exponent.toNat)
  else (num * Nat.pow 2 (-exponent).toNat, den)

/-- The exponent at which a quotient has a significand of 53 bits, or the least exponent. -/
def exponentFor (num den : Nat) : Int :=
  let first : Int := (num.log2 : Int) - (den.log2 : Int) - 53
  let (n, d) := scaleDown num den first
  max leastExponent (if n / d < 2 * leastNormal then first else first + 1)

/-- The number nearest to a quotient. -/
def ofRatio (negative : Bool) (num den : Nat) : Binary64 :=
  if num = 0 then finite negative 0 leastExponent
  else
    let exponent := exponentFor num den
    let (n, d) := scaleDown num den exponent
    let significand := roundHalfEven n d
    let (significand, exponent) :=
      if significand = 2 * leastNormal then (leastNormal, exponent + 1) else (significand, exponent)
    if exponent ≤ greatestExponent then finite negative significand exponent
    else infinite negative

/-- The number nearest to `coefficient * 10 ^ exponent`. -/
def ofDecimal (negative : Bool) (coefficient : Nat) (exponent : Int) : Binary64 :=
  if 0 ≤ exponent then ofRatio negative (coefficient * Nat.pow 10 exponent.toNat) 1
  else ofRatio negative coefficient (Nat.pow 10 (-exponent).toNat)

end Binary64

end CoreTiming
