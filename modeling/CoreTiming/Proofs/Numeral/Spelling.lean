import CoreTiming.Proofs.Numeral.Language
import CoreTiming.Proofs.Text.Ascii

/-!
# Numbers as they are spelled

A natural number may be spelled in decimal without padding, or in hexadecimal, octal or binary
behind a mark, padded with zeros at will and with every letter in either case (`Spells`). However it
is spelled, it is a literal that denotes the number (`Spells.unsigned`).
-/

namespace CoreTiming.Numeral

open CoreTiming.Text

variable {base n d : Nat} {text : List Char} {ds : List Nat}

/-! ## Digits of either letter case -/

/-- A digit in either letter case has its value, and is a letter or a decimal digit. -/
theorem value_of_toLower {c : Char} (hd : d < 16) (h : c.toLower = Nat.digitChar d) :
    (decimalValue? c).or (hexValue? c) = some d ∧ c.isAlphanum = true := by
  have hdigit : ∀ d : Fin 16, (Nat.digitChar d.1).toNat < 128 := by decide
  have hcode : c.toNat < 128 := toNat_lt_of_toLower (by rw [h]; exact hdigit ⟨d, hd⟩)
  have hall : ∀ d : Fin 16, c.toLower = Nat.digitChar d.1 →
      (decimalValue? c).or (hexValue? c) = some d.1 ∧ c.isAlphanum = true := by
    refine forall_ascii (motive := fun c => ∀ d : Fin 16, c.toLower = Nat.digitChar d.1 →
      (decimalValue? c).or (hexValue? c) = some d.1 ∧ c.isAlphanum = true) ?_ hcode
    decide +kernel
  exact hall ⟨d, hd⟩ h

/-- Digits of a base, each in either letter case, are a run. -/
theorem run_of_toLower (hbase : base ≤ 16) (hne : ds ≠ []) (hds : ∀ d ∈ ds, d < base)
    (h : text.map Char.toLower = ds.map Nat.digitChar) : Run base text ds := by
  induction ds generalizing text with
  | nil => exact absurd rfl hne
  | cons d later ih =>
    obtain ⟨hd, hlater⟩ := List.forall_mem_cons.1 hds
    obtain ⟨c, rest, rfl, hc, hrest⟩ := List.map_eq_cons_iff.1 h
    have hvalue : digitIn? base c = some d := by
      rw [digitIn?, (value_of_toLower (by omega) hc).1, Option.filter_some, if_pos (by simpa)]
    cases later with
    | nil =>
      obtain rfl := List.map_eq_nil_iff.1 hrest
      exact .last hvalue
    | cons => exact .cons hvalue (ih (List.cons_ne_nil _ _) hlater hrest)

theorem isAlphanum_of_toLower (hds : ∀ d ∈ ds, d < 16)
    (h : text.map Char.toLower = ds.map Nat.digitChar) {c : Char} (hc : c ∈ text) :
    c.isAlphanum = true := by
  have hlower : c.toLower ∈ ds.map Nat.digitChar := h ▸ List.mem_map_of_mem hc
  obtain ⟨d, hd, hdigit⟩ := List.mem_map.1 hlower
  exact (value_of_toLower (hds d hd) hdigit.symm).2

/-! ## Digits of a number -/

theorem map_toLower_natural (hbase : 2 ≤ base) (hle : base ≤ 16) (n : Nat) :
    (natural base n).map Char.toLower = (digits base n).map Nat.digitChar := by
  have hlower : ∀ d : Fin 16, (Nat.digitChar d.1).toLower = Nat.digitChar d.1 := by decide
  rw [natural, List.map_map]
  refine List.map_congr_left fun d hd => hlower ⟨d, ?_⟩
  exact Nat.lt_of_lt_of_le (lt_of_mem_digits hbase hd) hle

theorem run_natural (n : Nat) : Run 10 (natural 10 n) (digits 10 n) :=
  run_of_toLower (by decide) (digits_ne_nil 10 n) (fun _ hd => lt_of_mem_digits (by decide) hd)
    (map_toLower_natural (by decide) (by decide) n)

/-- Only zero starts with a zero. -/
theorem eq_zero_of_head?_digits (h : (digits base n).head? = some 0) : n = 0 := by
  induction n using digits_induction base with
  | more n hn ih =>
    have hquotient : 0 < n / base := Nat.div_pos hn.2 (by omega)
    obtain ⟨d, later, hdigits⟩ := List.exists_cons_of_ne_nil (digits_ne_nil base (n / base))
    rw [hdigits, List.cons_append] at h
    rw [hdigits] at ih
    have hzero : n / base = 0 := ih h
    omega
  | single n => exact Option.some.inj h

/-! ## Spellings -/

/-- The letters of the marks, in lower case, with their bases. -/
def marks : List (Char × Nat) := [('x', 16), ('o', 8), ('b', 2)]

/-- The ways to spell a number. -/
inductive Spells (n : Nat) : List Char → Prop
  | decimal (hlimit : (natural 10 n).length ≤ digitLimit) : Spells n (natural 10 n)
  | marked {mark : Char} {base zeros : Nat} {text : List Char} (hmark : (mark, base) ∈ marks)
      (htext : text.map Char.toLower
        = '0' :: mark :: (List.replicate zeros '0' ++ natural base n)) : Spells n text

theorem of_toLower_mark {zero letter mark : Char} (hmark : (mark, base) ∈ marks)
    (hzero : zero.toLower = '0') (hletter : letter.toLower = mark) :
    decimalValue? zero = some 0 ∧ markedBase? letter = some base ∧ letter.isAlphanum = true := by
  have hascii : ∀ known ∈ marks, known.1.toNat < 128 := by decide
  have hzeroCode : zero.toNat < 128 := toNat_lt_of_toLower (by rw [hzero]; decide)
  have hletterCode : letter.toNat < 128 := toNat_lt_of_toLower (hletter ▸ hascii _ hmark)
  have hvalue : zero.toLower = '0' → decimalValue? zero = some 0 := by
    refine forall_ascii (motive := fun c => c.toLower = '0' → decimalValue? c = some 0) ?_ hzeroCode
    decide +kernel
  have hletters : ∀ known ∈ marks, letter.toLower = known.1 →
      markedBase? letter = some known.2 ∧ letter.isAlphanum = true := by
    refine forall_ascii (motive := fun c => ∀ known ∈ marks, c.toLower = known.1 →
      markedBase? c = some known.2 ∧ c.isAlphanum = true) ?_ hletterCode
    decide +kernel
  exact ⟨hvalue hzero, hletters _ hmark hletter⟩

/-- The digits behind a mark. -/
def paddedDigits (zeros base n : Nat) : List Nat := List.replicate zeros 0 ++ digits base n

theorem lt_of_mem_paddedDigits {zeros : Nat} (hbase : 2 ≤ base)
    (h : d ∈ paddedDigits zeros base n) : d < base := by
  rcases List.mem_append.1 h with h | h
  · rw [List.eq_of_mem_replicate h]
    omega
  · exact lt_of_mem_digits hbase h

theorem two_le_of_mem_marks {mark : Char} (h : (mark, base) ∈ marks) : 2 ≤ base ∧ base ≤ 16 := by
  have hall : ∀ known ∈ marks, 2 ≤ known.2 ∧ known.2 ≤ 16 := by decide
  exact hall _ h

theorem exists_of_marked {mark : Char} {zeros : Nat}
    (htext : text.map Char.toLower = '0' :: mark :: (List.replicate zeros '0' ++ natural base n)) :
    ∃ zero letter rest, text = zero :: letter :: rest ∧ zero.toLower = '0'
      ∧ letter.toLower = mark
      ∧ rest.map Char.toLower = (paddedDigits zeros base n).map Nat.digitChar := by
  obtain ⟨zero, behind, rfl, hzero, hbehind⟩ := List.map_eq_cons_iff.1 htext
  obtain ⟨letter, rest, rfl, hletter, hrest⟩ := List.map_eq_cons_iff.1 hbehind
  refine ⟨zero, letter, rest, rfl, hzero, hletter, ?_⟩
  rw [hrest, paddedDigits, List.map_append, List.map_replicate, natural]
  rfl

/-- However a number is spelled, it is a literal that denotes the number. -/
theorem Spells.unsigned (h : Spells n text) : Unsigned .marked text n := by
  cases h with
  | decimal hlimit =>
    rw [natural, List.length_map] at hlimit
    have hpadding : (digits 10 n).head? = some 0 → ∀ d ∈ digits 10 n, d = 0 := by
      intro hhead
      rw [← ofDigits_eq_zero_iff (by decide : (10 : Nat) ≠ 0), ofDigits_digits]
      exact eq_zero_of_head?_digits hhead
    have hliteral := Unsigned.unmarked (run_natural n) hlimit hpadding
    rwa [ofDigits_digits] at hliteral
  | @marked mark base zeros _ hmark htext =>
    obtain ⟨zero, letter, rest, rfl, hzero, hletter, hrest⟩ := exists_of_marked htext
    obtain ⟨hbase, hle⟩ := two_le_of_mem_marks hmark
    obtain ⟨hvalue, hmarked, -⟩ := of_toLower_mark hmark hzero hletter
    have hne : paddedDigits zeros base n ≠ [] :=
      List.append_ne_nil_of_right_ne_nil _ (digits_ne_nil _ _)
    have hrun : Run base rest (paddedDigits zeros base n) :=
      run_of_toLower hle hne (fun _ hd => lt_of_mem_paddedDigits hbase hd) hrest
    have hliteral := Unsigned.marked hvalue hmarked (.inl rfl) hrun
    rwa [paddedDigits, Listing.ofDigits_replicate_zero_append, ofDigits_digits] at hliteral

theorem isAlphanum_of_mem_natural {c : Char} (h : c ∈ natural 10 n) : c.isAlphanum = true :=
  isAlphanum_of_toLower
    (fun _ hd => Nat.lt_of_lt_of_le (lt_of_mem_digits (by decide) hd) (by decide))
    (map_toLower_natural (by decide) (by decide) n) h

theorem Spells.isAlphanum (h : Spells n text) {c : Char} (hc : c ∈ text) : c.isAlphanum = true := by
  cases h with
  | decimal => exact isAlphanum_of_mem_natural hc
  | @marked mark base zeros _ hmark htext =>
    obtain ⟨zero, letter, rest, rfl, hzero, hletter, hrest⟩ := exists_of_marked htext
    obtain ⟨hbase, hle⟩ := two_le_of_mem_marks hmark
    rcases List.mem_cons.1 hc with rfl | hc
    · exact (value_of_toLower (by decide : 0 < 16) hzero).2
    · rcases List.mem_cons.1 hc with rfl | hc
      · exact (of_toLower_mark hmark hzero hletter).2.2
      · refine isAlphanum_of_toLower (fun _ hd => ?_) hrest hc
        exact Nat.lt_of_lt_of_le (lt_of_mem_paddedDigits hbase hd) hle

end CoreTiming.Numeral
