import CoreTiming.Numeral.Digits

/-!
# Written numbers

Numbers are written in lower-case digits without leading zeros (`natural`, `signed`), or padded
with zeros to a least width that counts the minus sign (`padded`). Padding never cuts a number
short (`width_le_length_padded`).

A decimal has a greatest length, in reading as in writing. `isWritable` tests a number against it
without writing the number (`isWritable_iff`).
-/

namespace CoreTiming.Numeral

/-- A natural number in the given base. -/
def natural (base n : Nat) : List Char := (digits base n).map Nat.digitChar

/-- The minus sign of a negative number. -/
def sign (n : Int) : List Char := if n < 0 then ['-'] else []

/-- An integer in the given base. -/
def signed (base : Nat) (n : Int) : List Char := sign n ++ natural base n.natAbs

/-- An integer in the given base, zeros filling the gap between sign and digits up to `width`. -/
def padded (base width : Nat) (n : Int) : List Char :=
  sign n ++ List.replicate (width - (signed base n).length) '0' ++ natural base n.natAbs

/-- An integer in decimal. -/
def decimal (n : Int) : String := String.ofList (signed 10 n)

/-- An integer in hexadecimal. -/
def hex (n : Int) : String := String.ofList (signed 16 n)

/-- An integer in hexadecimal on at least eight places. -/
def hex8 (n : Int) : String := String.ofList (padded 16 8 n)

/-! ## The limit of decimals -/

/-- The greatest number of digits of a decimal. -/
def digitLimit : Nat := 4300

/-- Whether an integer is within the limit of decimals. -/
def isWritable (n : Int) : Bool := n.natAbs < Nat.pow 10 digitLimit

/-- The complaint about a decimal beyond the limit, with what is known of its length. -/
def limitMessage (length : String) : String :=
  "Exceeds the limit (" ++ decimal digitLimit ++ " digits) for integer string conversion" ++ length
    ++ "; use sys.set_int_max_str_digits() to increase the limit"

/-! ## Laws -/

theorem width_le_length_padded (base width : Nat) (n : Int) :
    width ≤ (padded base width n).length := by
  simp only [padded, signed, List.length_append, List.length_replicate]
  omega

/-- An integer is writable exactly when its digits are within the limit. -/
theorem isWritable_iff (n : Int) :
    isWritable n = true ↔ (natural 10 n.natAbs).length ≤ digitLimit := by
  rw [natural, List.length_map, length_digits_le_iff (by decide) n.natAbs (by decide)]
  simp [isWritable]

end CoreTiming.Numeral
