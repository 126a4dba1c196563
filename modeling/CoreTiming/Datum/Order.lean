import CoreTiming.Datum.Basic

/-!
# The order of data

Numbers of all kinds are ordered by value, the infinities at the ends; a value that is no number
is below nothing and above nothing. Truth values count as integers, and any other datum cannot be
compared with a number (`Incomparable`). On integers the order is their own (`atMost_int`).
-/

namespace CoreTiming.Datum

/-- A place in the order of numbers. -/
inductive Position where
  /-- Below every finite number. -/
  | bottom
  /-- At a finite number. -/
  | finite (value : Dyadic)
  /-- Above every finite number. -/
  | top
  /-- Outside of the order. -/
  | unordered
  deriving DecidableEq

/-- Whether one place is not above another. -/
def Position.atMost : Position → Position → Bool
  | .unordered, _ => false
  | _, .unordered => false
  | .bottom, _ => true
  | _, .top => true
  | .finite x, .finite y => x ≤ y
  | _, _ => false

/-- The place of a number. -/
def position? : Datum → Option Position
  | float (.infinite negative) => some (if negative then .bottom else .top)
  | float .notANumber => some .unordered
  | datum => datum.quantity?.map .finite

/-- Two data that have no order, by the names of their kinds. -/
structure Incomparable where
  left : String
  right : String
  deriving DecidableEq

/-- The explanation of a missing order. -/
def Incomparable.message (e : Incomparable) : String :=
  "'<=' not supported between instances of '" ++ e.left ++ "' and '" ++ e.right ++ "'"

/-- Whether a datum is at most another, where one of them is a number. -/
def atMost (a b : Datum) : Except Incomparable Bool :=
  match a.position?, b.position? with
  | some x, some y => .ok (x.atMost y)
  | _, _ => .error ⟨a.kindName, b.kindName⟩

/-- Integers are ordered as they are. -/
theorem atMost_int (m n : Int) : (int m).atMost (int n) = .ok (decide (m ≤ n)) := by
  have value (n : Int) : (Dyadic.ofInt n).toRat = n := Dyadic.toRat_intCast n
  have order : Dyadic.ofInt m ≤ Dyadic.ofInt n ↔ m ≤ n := by
    rw [← Dyadic.toRat_le_toRat_iff, value, value, Rat.intCast_le_intCast]
  simp [atMost, position?, quantity?, Position.atMost, order]

end CoreTiming.Datum
