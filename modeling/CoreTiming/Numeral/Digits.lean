/-!
# Positional digits

`digits` writes a natural number in a base and `ofDigits` reads it back: `ofDigits_digits` holds
in every base, `lt_of_mem_digits` says that only digits of the base are written, and
`length_digits_le_iff` how many of them there are. Both list the most significant digit first.
-/

namespace CoreTiming.Numeral

/-! ## Writing -/

/-- The digits of a number in a base, with more digits after them. -/
def digitsBefore (base n : Nat) (later : List Nat) : List Nat :=
  if 2 ≤ base ∧ base ≤ n then digitsBefore base (n / base) (n % base :: later) else n :: later
termination_by n
decreasing_by exact Nat.div_lt_self (by omega) (by omega)

/-- The digits of a number in a base of at least two; a smaller base leaves it undivided. -/
def digits (base n : Nat) : List Nat := digitsBefore base n []

theorem digitsBefore_append (base n : Nat) (later more : List Nat) :
    digitsBefore base n (later ++ more) = digitsBefore base n later ++ more := by
  fun_induction digitsBefore base n later with
  | case1 n later h ih => rw [digitsBefore, if_pos h, ← List.cons_append, ih]
  | case2 n later h => rw [digitsBefore, if_neg h, List.cons_append]

/-- A number of several digits has those of its quotient by the base, and the remainder. -/
theorem digits_of_le {base n : Nat} (h : 2 ≤ base ∧ base ≤ n) :
    digits base n = digits base (n / base) ++ [n % base] := by
  rw [digits, digitsBefore, if_pos h]
  exact digitsBefore_append base (n / base) [] [n % base]

/-- A number below the base is its own digit. -/
theorem digits_of_not_le {base n : Nat} (h : ¬(2 ≤ base ∧ base ≤ n)) : digits base n = [n] := by
  rw [digits, digitsBefore, if_neg h]

/-- What holds of single digits and carries over to one more digit holds of all numbers. -/
@[elab_as_elim]
theorem digits_induction (base : Nat) {motive : Nat → List Nat → Prop} (n : Nat)
    (more : ∀ n, 2 ≤ base ∧ base ≤ n → motive (n / base) (digits base (n / base)) →
      motive n (digits base (n / base) ++ [n % base]))
    (single : ∀ n, ¬(2 ≤ base ∧ base ≤ n) → motive n [n]) : motive n (digits base n) := by
  induction n using Nat.strongRecOn with
  | ind n ih =>
    by_cases h : 2 ≤ base ∧ base ≤ n
    · rw [digits_of_le h]
      exact more n h (ih _ (Nat.div_lt_self (by omega) (by omega)))
    · rw [digits_of_not_le h]
      exact single n h

theorem digits_ne_nil (base n : Nat) : digits base n ≠ [] := by
  by_cases h : 2 ≤ base ∧ base ≤ n
  · rw [digits_of_le h]
    exact List.concat_ne_nil _ _
  · rw [digits_of_not_le h]
    exact List.cons_ne_nil _ _

theorem lt_of_mem_digits {base n d : Nat} (hbase : 2 ≤ base) (h : d ∈ digits base n) :
    d < base := by
  induction n using digits_induction base with
  | more n _ ih =>
    rcases List.mem_append.1 h with h | h
    · exact ih h
    · rw [List.mem_singleton.1 h]
      exact Nat.mod_lt _ (by omega)
  | single n hn =>
    rw [List.mem_singleton.1 h]
    omega

/-- A number has at most `count` digits exactly when it is below that power of the base. -/
theorem length_digits_le_iff {base : Nat} (hbase : 2 ≤ base) (n : Nat) {count : Nat}
    (hcount : 0 < count) : (digits base n).length ≤ count ↔ n < Nat.pow base count := by
  induction n using digits_induction base generalizing count with
  | more n h ih =>
    obtain ⟨count, rfl⟩ : ∃ fewer, count = fewer + 1 := ⟨count - 1, by omega⟩
    rw [List.length_append, List.length_singleton, Nat.add_le_add_iff_right]
    rcases Nat.eq_zero_or_pos count with rfl | hpos
    · have := List.length_pos_iff.2 (digits_ne_nil base (n / base))
      simp only [Nat.pow_eq, Nat.pow_one, Nat.zero_add]
      omega
    · rw [ih hpos, Nat.div_lt_iff_lt_mul (by omega)]
      rfl
  | single n h =>
    have below : n < base := by omega
    have : base ≤ Nat.pow base count := Nat.le_pow hcount
    simp only [List.length_singleton]
    omega

/-! ## Reading -/

/-- The number that a list of digits denotes. -/
def ofDigits (base : Nat) (ds : List Nat) : Nat :=
  ds.foldl (fun value d => value * base + d) 0

@[simp] theorem ofDigits_append_singleton (base : Nat) (ds : List Nat) (d : Nat) :
    ofDigits base (ds ++ [d]) = ofDigits base ds * base + d := by
  simp [ofDigits]

/-- A number reads back from its digits. -/
theorem ofDigits_digits (base n : Nat) : ofDigits base (digits base n) = n := by
  induction n using digits_induction base with
  | more n _ ih => rw [ofDigits_append_singleton, ih, Nat.mul_comm, Nat.div_add_mod]
  | single n _ => simp [ofDigits]

end CoreTiming.Numeral
