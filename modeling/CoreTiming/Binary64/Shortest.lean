import CoreTiming.Binary64.Basic
import CoreTiming.Numeral.Digits

/-!
# The shortest decimal of a number

Among the decimals that round to a binary64 number, `shortest` takes the one with the fewest
digits, and of those the nearest. A decimal rounds to a number when it lies in the interval half
way to the neighbours, whose ends belong to it when the significand is even.

On the grid of the decimals with `n` digits only the two neighbours of the number can be the
nearest, so the search goes over `n` and tries these two; seventeen digits always suffice.
-/

namespace CoreTiming.Binary64

/-- A decimal: its coefficient and its power of ten. -/
abbrev Decimal := Nat × Int

/-- A positive number `value / scale` with the ends of the interval that rounds to it, over the
same denominator. -/
structure Rounding where
  value : Nat
  low : Nat
  high : Nat
  scale : Nat
  /-- Whether the ends round to the number. -/
  closed : Bool

/-- The interval that rounds to `significand * 2 ^ exponent`. Below a power of two the numbers
lie twice as close. -/
def roundingOf (significand : Nat) (exponent : Int) : Rounding :=
  let up := Nat.pow 2 exponent.toNat
  let down := Nat.pow 2 (-exponent).toNat
  let narrow := significand = leastNormal ∧ leastExponent < exponent
  { value := 4 * significand * up
    low := (4 * significand - if narrow then 1 else 2) * up
    high := (4 * significand + 2) * up
    scale := 4 * down
    closed := significand % 2 = 0 }

/-- The numerator and denominator of a power of ten. -/
def powerOfTen (exponent : Int) : Nat × Nat :=
  (Nat.pow 10 exponent.toNat, Nat.pow 10 (-exponent).toNat)

/-- Whether a decimal rounds to the number. -/
def Rounding.holds (r : Rounding) (d : Decimal) : Bool :=
  let (up, down) := powerOfTen d.2
  let point := d.1 * up * r.scale
  if r.closed then r.low * down ≤ point && point ≤ r.high * down
  else r.low * down < point && point < r.high * down

/-- The distance of a decimal from the number, in units that depend on its power of ten only. -/
def Rounding.distance (r : Rounding) (d : Decimal) : Nat :=
  let (up, down) := powerOfTen d.2
  let point := d.1 * up * r.scale
  let value := r.value * down
  (point - value) + (value - point)

/-- The neighbours of the number on the grid of multiples of a power of ten. -/
def Rounding.neighbours (r : Rounding) (exponent : Int) : List Decimal :=
  let (up, down) := powerOfTen exponent
  let floor := r.value * down / (r.scale * up)
  [(floor, exponent), (floor + 1, exponent)]

/-- The nearest of the neighbours that round to the number; of two equally near, the even. -/
def Rounding.best? (r : Rounding) (exponent : Int) : Option Decimal :=
  match (r.neighbours exponent).filter r.holds with
  | [below, above] =>
    if r.distance above < r.distance below
        ∨ (r.distance above = r.distance below ∧ above.1 % 2 = 0) then some above
    else some below
  | found => found.head?

/-- The exponent of the power of ten just above the number: the place of the decimal point in
front of its digits. -/
def Rounding.magnitude (r : Rounding) : Int :=
  ((Numeral.digits 10 (r.value * Nat.pow 10 400 / r.scale)).length : Int) - 400

/-- A decimal without zeros at the end of its coefficient. -/
def stripZeros (coefficient : Nat) (exponent : Int) : Decimal :=
  if h : coefficient ≠ 0 ∧ coefficient % 10 = 0 then
    stripZeros (coefficient / 10) (exponent + 1)
  else (coefficient, exponent)
termination_by coefficient
decreasing_by exact Nat.div_lt_self (by omega) (by omega)

/-- The shortest decimal of the positive number `significand * 2 ^ exponent`. -/
def shortest (significand : Nat) (exponent : Int) : Decimal :=
  let r := roundingOf significand exponent
  let magnitude := r.magnitude
  let found := (List.range 17).findSome? fun (n : Nat) => r.best? (magnitude - (n + 1))
  let (coefficient, power) := found.getD (0, 0)
  stripZeros coefficient power

end CoreTiming.Binary64
