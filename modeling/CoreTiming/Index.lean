/-!
# Indexes

An index of a list counts from its start, or from its end where it is below zero. An index that
leads to no entry is refused, with words of its own where it lies beyond the bound of indexes.

`position_ofNat` and `position_neg` say where the indexes from the start and from the end lead,
and a position always lies inside the list (`lt_of_position`).
-/

namespace CoreTiming

/-- An index that leads to no entry of a list. -/
structure OutOfRange where
  index : Int
  deriving DecidableEq

namespace Index

/-- Every index lies below the bound, and not below its negative. -/
def bound : Int := 0x8000000000000000

/-- The position that an index leads to in a list of the given length. -/
def position (length : Nat) (index : Int) : Except OutOfRange Nat :=
  if 0 ≤ index ∧ index < length then .ok index.toNat
  else if -length ≤ index ∧ index < 0 then .ok (length + index).toNat
  else .error ⟨index⟩

end Index

/-- The explanation of a refused index. -/
def OutOfRange.message (e : OutOfRange) : String :=
  if -Index.bound ≤ e.index ∧ e.index < Index.bound then "list index out of range"
  else "cannot fit 'int' into an index-sized integer"

namespace Index

/-! ## Laws -/

/-- An index from the start leads to its own position. -/
theorem position_ofNat {length n : Nat} (h : n < length) : position length n = .ok n := by
  rw [position, if_pos (by omega), Int.toNat_natCast]

/-- An index from the end leads to the position that far before the end. -/
theorem position_neg {length n : Nat} (positive : 0 < n) (h : n ≤ length) :
    position length (-n) = .ok (length - n) := by
  rw [position, if_neg (by omega), if_pos (by omega)]
  congr 1
  omega

/-- A position lies inside the list. -/
theorem lt_of_position {length p : Nat} {index : Int} (h : position length index = .ok p) :
    p < length := by
  unfold position at h
  split at h
  · simp only [Except.ok.injEq] at h
    omega
  · split at h
    · simp only [Except.ok.injEq] at h
      omega
    · cases h

end Index

end CoreTiming
