import CoreTiming.Text.Blank

/-!
# ASCII characters

A statement about the characters below U+0080 is decided code point by code point (`forall_ascii`).
Letters and digits are among them, and so is every character with one of them as its lower case.
-/

namespace CoreTiming.Text

/-- What holds of the code points below 128 holds of the characters that have them. -/
theorem forall_ascii {motive : Char → Prop} (h : ∀ code : Fin 128, motive (Char.ofNat code.1))
    {c : Char} (hc : c.toNat < 128) : motive c := by
  have hcode := h ⟨c.toNat, hc⟩
  rwa [Char.ofNat_toNat] at hcode

theorem toNat_lt_of_toLower {c : Char} (h : c.toLower.toNat < 128) : c.toNat < 128 := by
  unfold Char.toLower at h
  split at h
  · rename_i hupper
    have hle : c.toNat ≤ 90 := UInt32.le_iff_toNat_le.1 hupper.2
    omega
  · exact h

theorem toNat_lt_of_isAlphanum {c : Char} (h : c.isAlphanum = true) : c.toNat < 128 := by
  have hlast : ∀ last : UInt32, last.toNat < 128 → c.val ≤ last → c.toNat < 128 :=
    fun last hlast hle => Nat.lt_of_le_of_lt (UInt32.le_iff_toNat_le.1 hle) hlast
  obtain hletter | hdigit := Bool.or_eq_true_iff.1 (show (c.isAlpha || c.isDigit) = true from h)
  · obtain hupper | hlower :=
      Bool.or_eq_true_iff.1 (show (c.isUpper || c.isLower) = true from hletter)
    · exact hlast 'Z'.val (by decide) (of_decide_eq_true hupper).2
    · exact hlast 'z'.val (by decide) (of_decide_eq_true (Bool.and_eq_true_iff.1 hlower).2)
  · exact hlast '9'.val (by decide) (of_decide_eq_true (Bool.and_eq_true_iff.1 hdigit).2)

theorem of_isAlphanum {c : Char} (h : c.isAlphanum = true) :
    isSpace c = false ∧ isLineEnd c = false ∧ c ≠ ':' := by
  refine forall_ascii (motive := fun c => c.isAlphanum = true →
    isSpace c = false ∧ isLineEnd c = false ∧ c ≠ ':') ?_ (toNat_lt_of_isAlphanum h) h
  decide +kernel

end CoreTiming.Text
