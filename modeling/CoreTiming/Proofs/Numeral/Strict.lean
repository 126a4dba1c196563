import CoreTiming.Proofs.Listing.Language
import CoreTiming.Proofs.Numeral.Language
import CoreTiming.Proofs.Text.Ascii

/-!
# Strict literals

A strict literal is an ASCII text without a sign, and a strict decimal is nothing but digits. What
is read is wider than that: it takes signs, digits of any script, and underscores in a decimal. A
literal without such a character is strict (`IsLiteral.strict_or_lax`), and a strict literal is a
literal unless it is too long (`Strict.isLiteral`).
-/

namespace CoreTiming.Numeral

open CoreTiming.Text

/-! ## Strict digits -/

/-- The ASCII digits of the bases in use. -/
def alphabet : Nat → List Char
  | 16 => Listing.hexAlphabet
  | 10 => "0123456789".toList
  | 8 => "01234567".toList
  | 2 => "01".toList
  | _ => []

/-- The bases in use. -/
def bases : List Nat := [16, 10, 8, 2]

/-- Characters of an alphabet, with at most one underscore between two of them. -/
inductive Grouped (letters : List Char) : List Char → Prop
  | last {c : Char} (hc : c ∈ letters) : Grouped letters [c]
  | cons {c : Char} {text : List Char} (hc : c ∈ letters) (hrest : Grouped letters text) :
      Grouped letters (c :: text)
  | apart {c : Char} {text : List Char} (hc : c ∈ letters) (hrest : Grouped letters text) :
      Grouped letters (c :: '_' :: text)

/-- The strict literals of a style: ASCII digits alone, or an unsigned literal in ASCII. Without a
    mark, a number other than zero has no zeros in front. -/
inductive Strict : Style → List Char → Prop
  | decimal {text : List Char} (hne : text ≠ []) (hdigits : ∀ c ∈ text, c ∈ alphabet 10) :
      Strict .decimal text
  | unmarked {text : List Char} (hdigits : Grouped (alphabet 10) text)
      (hpadding : text.head? = some '0' → ∀ c ∈ text, c = '0' ∨ c = '_') : Strict .marked text
  | marked {mark : Char} {base : Nat} {apart digits : List Char}
      (hmark : (mark, base) ∈ markedBases) (hapart : apart = [] ∨ apart = ['_'])
      (hdigits : Grouped (alphabet base) digits) :
      Strict .marked ('0' :: mark :: (apart ++ digits))

/-- The characters that only other literals of a style have: signs, characters beyond ASCII, and
    underscores in a decimal. -/
def isLax (style : Style) (c : Char) : Bool :=
  c = '+' || c = '-' || 128 ≤ c.toNat || (style = .decimal && c = '_')

/-- Whether a text has such a character. -/
def Lax (style : Style) (text : List Char) : Prop := ∃ c ∈ text, isLax style c = true

instance (style : Style) (text : List Char) : Decidable (Lax style text) :=
  decidable_of_iff (text.any (isLax style) = true) List.any_eq_true

variable {style : Style} {base n d : Nat} {c : Char} {text : List Char} {ds : List Nat}

/-! ## Literals are strict or lax -/

/-- A digit in ASCII is one of the alphabet, and the only one with the value zero is `0`. -/
theorem mem_alphabet (hbase : base ∈ bases) (hascii : c.toNat < 128)
    (hd : digitIn? base c = some d) : c ∈ alphabet base ∧ (d = 0 → c = '0') := by
  have hall : ∀ base ∈ bases, ∀ d ∈ digitIn? base c, c ∈ alphabet base ∧ (d = 0 → c = '0') := by
    refine forall_ascii (motive := fun c => ∀ base ∈ bases, ∀ d ∈ digitIn? base c,
      c ∈ alphabet base ∧ (d = 0 → c = '0')) ?_ hascii
    decide +kernel
  exact hall base hbase d hd

theorem Run.grouped {letters : List Char} (h : Run base text ds)
    (hletters : ∀ c ∈ text, ∀ d, digitIn? base c = some d → c ∈ letters) :
    Grouped letters text := by
  induction h with
  | last hd => exact .last (hletters _ (by simp) _ hd)
  | cons hd _ ih =>
    obtain ⟨hc, hrest⟩ := List.forall_mem_cons.1 hletters
    exact .cons (hc _ hd) (ih hrest)
  | apart hd _ ih =>
    obtain ⟨hc, hrest⟩ := List.forall_mem_cons.1 hletters
    exact .apart (hc _ hd) (ih (List.forall_mem_cons.1 hrest).2)

theorem Run.of_mem (h : Run base text ds) (hc : c ∈ text) :
    c = '_' ∨ ∃ d ∈ ds, digitIn? base c = some d := by
  induction h with
  | last hd =>
    obtain rfl := List.mem_singleton.1 hc
    exact .inr ⟨_, by simp, hd⟩
  | cons hd _ ih =>
    rcases List.mem_cons.1 hc with rfl | hc
    · exact .inr ⟨_, by simp, hd⟩
    · obtain hunderscore | ⟨d, hmem, hvalue⟩ := ih hc
      · exact .inl hunderscore
      · exact .inr ⟨d, List.mem_cons_of_mem _ hmem, hvalue⟩
  | apart hd _ ih =>
    rcases List.mem_cons.1 hc with rfl | hc
    · exact .inr ⟨_, by simp, hd⟩
    · rcases List.mem_cons.1 hc with rfl | hc
      · exact .inl rfl
      · obtain hunderscore | ⟨d, hmem, hvalue⟩ := ih hc
        · exact .inl hunderscore
        · exact .inr ⟨d, List.mem_cons_of_mem _ hmem, hvalue⟩

theorem ascii_of_not_isLax (h : isLax style c = false) : c.toNat < 128 := by
  simp only [isLax, Bool.or_eq_false_iff, decide_eq_false_iff_not] at h
  omega

/-- An unsigned literal without a lax character is strict. -/
theorem Unsigned.strict (h : Unsigned style text n) (hstrict : ∀ c ∈ text, isLax style c = false) :
    Strict style text := by
  have hascii : ∀ c ∈ text, c.toNat < 128 := fun c hc => ascii_of_not_isLax (hstrict c hc)
  cases h with
  | decimal hrun hlimit =>
    obtain ⟨first, d, behind, later, rfl, -, -⟩ := hrun.exists_cons
    refine .decimal (List.cons_ne_nil _ _) fun c hc => ?_
    obtain rfl | ⟨d, -, hd⟩ := hrun.of_mem hc
    · exact absurd (hstrict '_' hc) (by decide)
    · exact (mem_alphabet (by decide) (hascii c hc) hd).1
  | @unmarked _ ds hrun hlimit hpadding =>
    refine .unmarked (hrun.grouped fun c hc d hd =>
      (mem_alphabet (by decide) (hascii c hc) hd).1) ?_
    intro hzero c hc
    -- a zero in front has the value zero, so there are no other digits
    have hzeros : ∀ d ∈ ds, d = 0 := by
      refine hpadding ?_
      rw [← startsWithZero_run hrun]
      obtain ⟨rest, rfl⟩ := List.head?_eq_some_iff.1 hzero
      show decide (decimalValue? '0' = some 0) = true
      decide
    obtain rfl | ⟨d, hmem, hd⟩ := hrun.of_mem hc
    · exact .inr rfl
    · exact .inl ((mem_alphabet (by decide) (hascii c hc) hd).2 (hzeros d hmem))
  | @marked zero mark base apart digits ds hzero hmark hapart hrun =>
    have hbase : base ∈ bases := by
      have hall : ∀ known ∈ markedBases, known.2 ∈ bases := by decide
      exact hall _ (mem_markedBases hmark)
    have hfirst : zero = '0' := by
      rw [← digitIn?_ten] at hzero
      exact (mem_alphabet (by decide) (hascii zero (by simp)) hzero).2 rfl
    subst hfirst
    refine .marked (mem_markedBases hmark) hapart (hrun.grouped fun c hc d hd => ?_)
    exact (mem_alphabet hbase (hascii c (by simp [hc])) hd).1

/-- **Strict or lax.** Every literal is strict or has a character that no strict one has. -/
theorem IsLiteral.strict_or_lax {n : Int} (h : IsLiteral style text n) :
    Strict style text ∨ Lax style text := by
  cases h with
  | plain h =>
    by_cases hlax : Lax style text
    · exact .inr hlax
    · refine .inl (h.strict fun c hc => ?_)
      rw [← Bool.not_eq_true]
      exact fun hc' => hlax ⟨c, hc, hc'⟩
  | plus => exact .inr ⟨'+', by simp, by simp [isLax]⟩
  | minus => exact .inr ⟨'-', by simp, by simp [isLax]⟩

/-! ## Strict literals are literals -/

theorem exists_digitIn? (hbase : base ∈ bases) (hc : c ∈ alphabet base) :
    ∃ d, digitIn? base c = some d := by
  have hall : ∀ base ∈ bases, (alphabet base).all (fun c => (digitIn? base c).isSome) = true := by
    decide +kernel
  exact Option.isSome_iff_exists.1 (List.all_eq_true.1 (hall base hbase) c hc)

theorem Grouped.run (hbase : base ∈ bases) (h : Grouped (alphabet base) text) :
    ∃ ds, Run base text ds ∧ ds.length ≤ text.length := by
  induction h with
  | last hc =>
    obtain ⟨d, hd⟩ := exists_digitIn? hbase hc
    exact ⟨[d], .last hd, by simp⟩
  | cons hc _ ih =>
    obtain ⟨d, hd⟩ := exists_digitIn? hbase hc
    obtain ⟨ds, hrun, hlength⟩ := ih
    exact ⟨d :: ds, .cons hd hrun, by simpa using hlength⟩
  | apart hc _ ih =>
    obtain ⟨d, hd⟩ := exists_digitIn? hbase hc
    obtain ⟨ds, hrun, hlength⟩ := ih
    exact ⟨d :: ds, .apart hd hrun, by simp only [List.length_cons]; omega⟩

theorem grouped_of_forall_mem {letters : List Char} (hne : text ≠ [])
    (h : ∀ c ∈ text, c ∈ letters) : Grouped letters text := by
  induction text with
  | nil => exact absurd rfl hne
  | cons c rest ih =>
    obtain ⟨hc, hrest⟩ := List.forall_mem_cons.1 h
    by_cases hlast : rest = []
    · exact hlast ▸ .last hc
    · exact .cons hc (ih hlast hrest)

theorem Run.exists_of_mem (h : Run base text ds) (hd : d ∈ ds) :
    ∃ c ∈ text, digitIn? base c = some d := by
  induction h with
  | last hvalue =>
    obtain rfl := List.mem_singleton.1 hd
    exact ⟨_, by simp, hvalue⟩
  | cons hvalue _ ih =>
    rcases List.mem_cons.1 hd with rfl | hd
    · exact ⟨_, by simp, hvalue⟩
    · obtain ⟨c, hc, hvalue⟩ := ih hd
      exact ⟨c, by simp [hc], hvalue⟩
  | apart hvalue _ ih =>
    rcases List.mem_cons.1 hd with rfl | hd
    · exact ⟨_, by simp, hvalue⟩
    · obtain ⟨c, hc, hvalue⟩ := ih hd
      exact ⟨c, by simp [hc], hvalue⟩

/-- What starts with a digit of the alphabet with the value zero starts with `0`. -/
theorem Grouped.head?_eq_zero (h : Grouped (alphabet 10) text) (hrun : Run 10 text ds)
    (hzero : ds.head? = some 0) : text.head? = some '0' := by
  have hall : (alphabet 10).all (fun c => decide (digitIn? 10 c = some 0 → c = '0')) = true := by
    decide
  obtain ⟨first, d, behind, later, rfl, rfl, hd⟩ := hrun.exists_cons
  obtain rfl : d = 0 := Option.some.inj hzero
  have hfirst : first ∈ alphabet 10 := by
    cases h with
    | last hc => exact hc
    | cons hc => exact hc
    | apart hc => exact hc
  rw [of_decide_eq_true (List.all_eq_true.1 hall first hfirst) hd, List.head?_cons]

/-- A strict literal within the limit of decimals is a literal. -/
theorem Strict.isLiteral (h : Strict style text) (hlength : text.length ≤ digitLimit) :
    ∃ n, IsLiteral style text n := by
  cases h with
  | decimal hne hdigits =>
    obtain ⟨ds, hrun, hds⟩ := (grouped_of_forall_mem hne hdigits).run (by decide)
    exact ⟨_, .plain (.decimal hrun (by omega))⟩
  | unmarked hdigits hpadding =>
    obtain ⟨ds, hrun, hds⟩ := hdigits.run (by decide)
    refine ⟨_, .plain (.unmarked hrun (by omega) fun hzero d hd => ?_)⟩
    obtain ⟨c, hc, hvalue⟩ := hrun.exists_of_mem hd
    obtain rfl | rfl := hpadding (hdigits.head?_eq_zero hrun hzero) c hc
    · exact (Option.some.inj hvalue).symm
    · rw [digitIn?_underscore] at hvalue
      cases hvalue
  | @marked mark base apart digits hmark hapart hdigits =>
    have hall : ∀ known ∈ markedBases, known.2 ∈ bases ∧ markedBase? known.1 = some known.2 := by
      decide
    obtain ⟨hbase, hmarked⟩ := hall _ hmark
    obtain ⟨ds, hrun, -⟩ := hdigits.run hbase
    exact ⟨_, .plain (.marked (by decide) hmarked hapart hrun)⟩

end CoreTiming.Numeral
