import Mathlib.Data.List.Induction
import CoreTiming.Proofs.Listing.Written
import CoreTiming.Numeral.Literal

/-!
# The language of integer literals

What an integer literal is, said by its parts: a sign that may be missing, a mark of the base that
may be missing where the style allows one, and digits with at most one underscore between two of
them (`Run`, `Unsigned`, `IsLiteral`). The reader scans for digits from the left and looks only
afterwards at what it has found.

Results:
* `scan_run`, `run_of_scan`: the scan finds the run of digits in front, if there is one;
* `readUnsigned_eq_ok_iff`: what is read without a sign;
* `read_eq_ok_iff`: a text without blanks at its ends is read exactly when it is a literal, as the
  number that the literal denotes.
-/

namespace CoreTiming.Numeral

open CoreTiming.Text

/-! ## Digits -/

theorem digitIn?_eq_none (base : Nat) {c : Char} (hdecimal : decimalValue? c = none)
    (hhex : hexValue? c = none) : digitIn? base c = none := by
  rw [digitIn?, hdecimal, hhex]
  rfl

theorem digitIn?_underscore (base : Nat) : digitIn? base '_' = none :=
  digitIn?_eq_none base (by decide) (by decide)

/-- The marks with their bases. -/
def markedBases : List (Char × Nat) :=
  [('x', 16), ('X', 16), ('o', 8), ('O', 8), ('b', 2), ('B', 2)]

theorem mem_markedBases {mark : Char} {base : Nat} (h : markedBase? mark = some base) :
    (mark, base) ∈ markedBases := by
  simp only [markedBase?, Bool.or_eq_true, decide_eq_true_eq] at h
  split at h
  · rename_i hmark
    cases h
    rcases hmark with rfl | rfl <;> decide
  · split at h
    · rename_i hmark
      cases h
      rcases hmark with rfl | rfl <;> decide
    · split at h
      · rename_i hmark
        cases h
        rcases hmark with rfl | rfl <;> decide
      · cases h

theorem digitIn?_of_markedBase? {mark : Char} {base : Nat} (h : markedBase? mark = some base) :
    digitIn? 10 mark = none ∧ mark ≠ '_' ∧ base ≠ 10 := by
  have hall : ∀ known ∈ markedBases,
      digitIn? 10 known.1 = none ∧ known.1 ≠ '_' ∧ known.2 ≠ 10 := by decide
  exact hall _ (mem_markedBases h)

/-! ## Runs of digits -/

/-- Digits of a base with their values, with at most one underscore between two of them. -/
inductive Run (base : Nat) : List Char → List Nat → Prop
  | last {c : Char} {d : Nat} (hd : digitIn? base c = some d) : Run base [c] [d]
  | cons {c : Char} {d : Nat} {text : List Char} {ds : List Nat}
      (hd : digitIn? base c = some d) (hrun : Run base text ds) : Run base (c :: text) (d :: ds)
  | apart {c : Char} {d : Nat} {text : List Char} {ds : List Nat}
      (hd : digitIn? base c = some d) (hrun : Run base text ds) :
      Run base (c :: '_' :: text) (d :: ds)

/-- Whether no digit and no underscore stands in front. -/
def Stops (base : Nat) (rest : List Char) : Prop :=
  ∀ c, rest.head? = some c → c ≠ '_' ∧ digitIn? base c = none

variable {base : Nat} {text rest : List Char} {ds : List Nat}

theorem Run.exists_cons (h : Run base text ds) :
    ∃ c d behind later, text = c :: behind ∧ ds = d :: later ∧ digitIn? base c = some d := by
  cases h with
  | last hd => exact ⟨_, _, _, _, rfl, rfl, hd⟩
  | cons hd _ => exact ⟨_, _, _, _, rfl, rfl, hd⟩
  | apart hd _ => exact ⟨_, _, _, _, rfl, rfl, hd⟩

theorem Run.not_head (h : Run base text ds) {c : Char} (hc : digitIn? base c = none) :
    text.head? ≠ some c := by
  obtain ⟨first, d, behind, later, rfl, -, hd⟩ := h.exists_cons
  rintro ⟨⟩
  rw [hc] at hd
  cases hd

theorem ne_underscore_of_digitIn? {c : Char} {d : Nat} (h : digitIn? base c = some d) :
    c ≠ '_' := by
  rintro rfl
  rw [digitIn?_underscore] at h
  cases h

theorem scan_of_stops (h : Stops base rest) : scan base true rest = some ([], rest) := by
  cases rest with
  | nil => rfl
  | cons c rest =>
    obtain ⟨hc, hd⟩ := h c rfl
    simp [scan, hc, hd]

theorem scan_run (h : Run base text ds) (hrest : Stops base rest) (afterDigit : Bool) :
    scan base afterDigit (text ++ rest) = some (ds, rest) := by
  induction h generalizing afterDigit with
  | last hd =>
    rw [List.cons_append, List.nil_append, scan_digit (ne_underscore_of_digitIn? hd) hd,
      scan_of_stops hrest]
    rfl
  | cons hd _ ih =>
    rw [List.cons_append, scan_digit (ne_underscore_of_digitIn? hd) hd, ih]
    rfl
  | apart hd _ ih =>
    rw [List.cons_append, List.cons_append, scan_digit (ne_underscore_of_digitIn? hd) hd,
      scan_underscore, if_pos rfl, ih]
    rfl

/-- What the scan finds is a run, which it may stand behind already. -/
theorem run_of_scan {afterDigit : Bool} (h : scan base afterDigit text = some (ds, rest)) :
    Stops base rest
      ∧ ((afterDigit = true ∧ ds = [] ∧ text = rest)
        ∨ ∃ run, Run base run ds
          ∧ (text = run ++ rest ∨ (afterDigit = true ∧ text = '_' :: (run ++ rest)))) := by
  fun_induction scan base afterDigit text generalizing ds with
  | case1 =>
    cases h
    exact ⟨nofun, .inl ⟨rfl, rfl, rfl⟩⟩
  | case2 => cases h
  | case3 behind ih =>
    obtain ⟨hstops, ⟨hfalse, -⟩ | ⟨run, hrun, hsplit | ⟨hfalse, -⟩⟩⟩ := ih h
    · cases hfalse
    · exact ⟨hstops, .inr ⟨run, hrun, .inr ⟨rfl, by rw [hsplit]⟩⟩⟩
    · cases hfalse
  | case4 => cases h
  | case5 afterDigit c behind hc d hd ih =>
    obtain ⟨⟨ds', rest'⟩, hscan, hfound⟩ := Option.map_eq_some_iff.1 h
    cases hfound
    obtain ⟨hstops, ⟨-, rfl, rfl⟩ | ⟨run, hrun, rfl | ⟨-, rfl⟩⟩⟩ := ih hscan
    · exact ⟨hstops, .inr ⟨[c], .last hd, .inl rfl⟩⟩
    · exact ⟨hstops, .inr ⟨c :: run, .cons hd hrun, .inl rfl⟩⟩
    · exact ⟨hstops, .inr ⟨c :: '_' :: run, .apart hd hrun, .inl rfl⟩⟩
  | case6 c behind hc hd =>
    cases h
    exact ⟨by rintro _ ⟨⟩; exact ⟨hc, hd⟩, .inl ⟨rfl, rfl, rfl⟩⟩
  | case7 => cases h

/-- A scan from the front finds exactly the run in front. -/
theorem scan_false_eq_some_iff : scan base false text = some (ds, rest)
    ↔ ∃ run, text = run ++ rest ∧ Run base run ds ∧ Stops base rest := by
  constructor
  · intro h
    obtain ⟨hstops, ⟨hfalse, -⟩ | ⟨run, hrun, hsplit | ⟨hfalse, -⟩⟩⟩ := run_of_scan h
    · cases hfalse
    · exact ⟨run, hsplit, hrun, hstops⟩
    · cases hfalse
  · rintro ⟨run, rfl, hrun, hstops⟩
    exact scan_run hrun hstops false

/-! ## Texts without a blank at the end -/

/-- Whether the last character is no blank. -/
def EndsSolid (text : List Char) : Prop := ∀ c, text.getLast? = some c → isBlank c = false

theorem EndsSolid.of_suffix {text behind : List Char} (h : EndsSolid text)
    (hsuffix : behind <:+ text) : EndsSolid behind := by
  obtain ⟨front, rfl⟩ := hsuffix
  intro c hc
  exact h c (by rw [List.getLast?_append, hc, Option.some_or])

theorem eq_nil_of_endsSolid {blanks : List Char} (h : EndsSolid (text ++ blanks))
    (hblanks : ∀ c ∈ blanks, isBlank c = true) : blanks = [] := by
  rcases List.eq_nil_or_concat blanks with rfl | ⟨front, last, rfl⟩
  · rfl
  · have hlast := h last (by simp)
    rw [hblanks last (by simp)] at hlast
    cases hlast

theorem stops_nil (base : Nat) : Stops base [] := nofun

/-- Digits are read as the number that they denote, within the limit, and only as zero where
    nothing else is wanted. -/
theorem readDigits_eq_ok_iff (h : EndsSolid text) {onlyZero : Bool} {n : Nat} :
    readDigits base onlyZero text = .ok n
      ↔ ∃ ds, Run base text ds ∧ (base = 10 → ds.length ≤ digitLimit)
        ∧ (onlyZero = true → ofDigits base ds = 0) ∧ n = ofDigits base ds := by
  constructor
  · intro hread
    rw [readDigits] at hread
    split at hread
    · cases hread
    · rename_i ds rest hscan
      obtain ⟨run, rfl, hrun, -⟩ := scan_false_eq_some_iff.1 hscan
      split at hread
      · cases hread
      · rename_i hlimit
        split at hread
        · cases hread
        · rename_i hzero
          split at hread
          · rename_i hblank
            cases hread
            obtain rfl := eq_nil_of_endsSolid h (List.all_eq_true.1 hblank)
            refine ⟨ds, by simpa using hrun, ?_, ?_, rfl⟩
            · intro hbase
              exact Nat.not_lt.1 fun hlt => hlimit ⟨hbase, hlt⟩
            · intro hwanted
              exact Decidable.not_not.1 fun hne => hzero ⟨hwanted, hne⟩
          · cases hread
  · rintro ⟨ds, hrun, hlimit, hzero, rfl⟩
    have hscan : scan base false text = some (ds, []) := by
      simpa using scan_run hrun (stops_nil base) false
    have hshort : ¬ (base = 10 ∧ digitLimit < ds.length) := fun ⟨hbase, hlt⟩ =>
      Nat.not_lt.2 (hlimit hbase) hlt
    have hvalue : ¬ (onlyZero = true ∧ ofDigits base ds ≠ 0) := fun ⟨hwanted, hne⟩ =>
      hne (hzero hwanted)
    rw [readDigits, hscan]
    simp only
    rw [if_neg hshort, if_neg hvalue]
    rfl

/-! ## Decimal digits -/

theorem digitIn?_ten (c : Char) : digitIn? 10 c = decimalValue? c := by
  rw [digitIn?]
  cases hdecimal : decimalValue? c with
  | some d =>
    obtain ⟨first, hfirst, rfl⟩ := Option.map_eq_some_iff.1 hdecimal
    have hrange := List.find?_some hfirst
    simp only [Bool.and_eq_true, decide_eq_true_eq] at hrange
    rw [Option.some_or, Option.filter_some, if_pos (by simp; omega)]
  | none =>
    -- the hexadecimal digits below ten are decimal digits
    have hletter : ¬ ('0' ≤ c ∧ c ≤ '9') := by
      intro hdigit
      have hisDigit : c.isDigit = true := by simpa [Char.isDigit, Char.le_def] using hdigit
      rw [decimalValue?_of_isDigit hisDigit] at hdecimal
      cases hdecimal
    rw [Option.none_or, hexValue?, if_neg hletter, Option.filter_eq_none_iff]
    intro d hd
    split at hd
    · cases hd
      simp
    · split at hd
      · cases hd
        simp
      · cases hd

theorem ofDigits_eq_zero_iff {base : Nat} (hbase : base ≠ 0) {ds : List Nat} :
    ofDigits base ds = 0 ↔ ∀ d ∈ ds, d = 0 := by
  induction ds using List.reverseRecOn with
  | nil => simp [ofDigits]
  | append_singleton ds d ih =>
    rw [ofDigits_append_singleton, Nat.add_eq_zero_iff, Nat.mul_eq_zero, ih]
    simp [hbase, or_imp, forall_and]

theorem startsWithZero_run (h : Run 10 text ds) :
    startsWithZero text = true ↔ ds.head? = some 0 := by
  obtain ⟨c, d, behind, later, rfl, rfl, hd⟩ := h.exists_cons
  rw [digitIn?_ten] at hd
  simp [startsWithZero, hd]

/-! ## Marks -/

/-- A mark is found, and the underscore behind it belongs to it. -/
theorem splitMark?_marked {zero mark : Char} {apart : List Char}
    (hzero : decimalValue? zero = some 0) (hmark : markedBase? mark = some base)
    (hapart : apart = [] ∨ apart = ['_']) (hrest : rest.head? ≠ some '_') :
    splitMark? (zero :: mark :: (apart ++ rest)) = some (base, rest) := by
  have hbehind : ∀ later, rest ≠ '_' :: later := by
    rintro later rfl
    exact hrest rfl
  rcases hapart with rfl | rfl
  · simp [splitMark?, hzero, hmark]
  · simp [splitMark?, hzero, hmark]

theorem exists_of_splitMark? (h : splitMark? text = some (base, rest)) :
    ∃ zero mark apart, text = zero :: mark :: (apart ++ rest) ∧ decimalValue? zero = some 0
      ∧ markedBase? mark = some base ∧ (apart = [] ∨ apart = ['_']) := by
  unfold splitMark? at h
  split at h
  · rename_i zero mark behind
    split at h
    · rename_i hzero
      obtain ⟨base, hmark, hfound⟩ := Option.map_eq_some_iff.1 h
      split at hfound
      · cases hfound
        exact ⟨zero, mark, ['_'], rfl, hzero, hmark, .inr rfl⟩
      · cases hfound
        exact ⟨zero, mark, [], rfl, hzero, hmark, .inl rfl⟩
    · cases h
  · cases h

theorem splitMark?_run (h : Run 10 text ds) : splitMark? text = none := by
  rw [Option.eq_none_iff_forall_not_mem]
  rintro ⟨base, rest⟩ hsplit
  obtain ⟨zero, mark, apart, rfl, -, hmark, -⟩ := exists_of_splitMark? hsplit
  obtain ⟨hdigit, hunderscore, -⟩ := digitIn?_of_markedBase? hmark
  cases h with
  | cons _ hrun => exact hrun.not_head hdigit rfl
  | apart => exact hunderscore rfl

/-! ## Literals -/

/-- An unsigned literal of a style, and the number that it denotes. Without a mark it has decimal
    digits of any script within the limit, and in the marked style no zeros in front of a number
    other than zero. With a mark the zero in front of it is of any script too. -/
inductive Unsigned : Style → List Char → Nat → Prop
  | decimal {text : List Char} {ds : List Nat} (hrun : Run 10 text ds)
      (hlimit : ds.length ≤ digitLimit) : Unsigned .decimal text (ofDigits 10 ds)
  | unmarked {text : List Char} {ds : List Nat} (hrun : Run 10 text ds)
      (hlimit : ds.length ≤ digitLimit) (hpadding : ds.head? = some 0 → ∀ d ∈ ds, d = 0) :
      Unsigned .marked text (ofDigits 10 ds)
  | marked {zero mark : Char} {base : Nat} {apart text : List Char} {ds : List Nat}
      (hzero : decimalValue? zero = some 0) (hmark : markedBase? mark = some base)
      (hapart : apart = [] ∨ apart = ['_']) (hrun : Run base text ds) :
      Unsigned .marked (zero :: mark :: (apart ++ text)) (ofDigits base ds)

/-- A literal of a style, and the number that it denotes. -/
inductive IsLiteral (style : Style) : List Char → Int → Prop
  | plain {text : List Char} {n : Nat} (h : Unsigned style text n) : IsLiteral style text n
  | plus {text : List Char} {n : Nat} (h : Unsigned style text n) : IsLiteral style ('+' :: text) n
  | minus {text : List Char} {n : Nat} (h : Unsigned style text n) :
      IsLiteral style ('-' :: text) (-n)

variable {style : Style}

/-- What is read without a sign is an unsigned literal. -/
theorem readUnsigned_eq_ok_iff (h : EndsSolid text) {n : Nat} :
    readUnsigned style text = .ok n ↔ Unsigned style text n := by
  cases style with
  | decimal =>
    rw [readUnsigned, readDigits_eq_ok_iff h]
    constructor
    · rintro ⟨ds, hrun, hlimit, -, rfl⟩
      exact .decimal hrun (hlimit rfl)
    · rintro (⟨hrun, hlimit⟩ | _ | _)
      exact ⟨_, hrun, fun _ => hlimit, nofun, rfl⟩
  | marked =>
    rw [readUnsigned]
    constructor
    · intro hread
      split at hread
      · rename_i base rest hsplit
        obtain ⟨zero, mark, apart, rfl, hzero, hmark, hapart⟩ := exists_of_splitMark? hsplit
        have hsolid : EndsSolid rest := h.of_suffix ⟨zero :: mark :: apart, rfl⟩
        obtain ⟨ds, hrun, -, -, rfl⟩ := (readDigits_eq_ok_iff hsolid).1 hread
        exact .marked hzero hmark hapart hrun
      · obtain ⟨ds, hrun, hlimit, hzero, rfl⟩ := (readDigits_eq_ok_iff h).1 hread
        rw [startsWithZero_run hrun, ofDigits_eq_zero_iff (by decide)] at hzero
        exact .unmarked hrun (hlimit rfl) hzero
    · rintro (_ | ⟨hrun, hlimit, hpadding⟩ | ⟨hzero, hmark, hapart, hrun⟩)
      · rw [splitMark?_run hrun]
        refine (readDigits_eq_ok_iff h).2 ⟨_, hrun, fun _ => hlimit, ?_, rfl⟩
        rwa [startsWithZero_run hrun, ofDigits_eq_zero_iff (by decide)]
      · rw [splitMark?_marked hzero hmark hapart (hrun.not_head (digitIn?_underscore _))]
        have hbase := (digitIn?_of_markedBase? hmark).2.2
        exact (readDigits_eq_ok_iff (h.of_suffix ⟨_ :: _ :: _, rfl⟩)).2
          ⟨_, hrun, fun hten => absurd hten hbase, nofun, rfl⟩

theorem Unsigned.not_head {n : Nat} (h : Unsigned style text n) {c : Char}
    (hc : digitIn? 10 c = none) : text.head? ≠ some c := by
  cases h with
  | decimal hrun => exact hrun.not_head hc
  | unmarked hrun => exact hrun.not_head hc
  | marked hzero =>
    rintro ⟨⟩
    rw [digitIn?_ten, hzero] at hc
    cases hc

theorem splitSign_cases (text : List Char) :
    (∃ rest, text = '-' :: rest ∧ splitSign text = (true, rest))
      ∨ (∃ rest, text = '+' :: rest ∧ splitSign text = (false, rest))
      ∨ splitSign text = (false, text) := by
  unfold splitSign
  split
  · exact .inl ⟨_, rfl, rfl⟩
  · exact .inr (.inl ⟨_, rfl, rfl⟩)
  · exact .inr (.inr rfl)

theorem Unsigned.splitSign_eq {n : Nat} (h : Unsigned style text n) :
    splitSign text = (false, text) := by
  obtain ⟨rest, rfl, -⟩ | ⟨rest, rfl, -⟩ | hnone := splitSign_cases text
  · exact absurd rfl (h.not_head (by decide : digitIn? 10 '-' = none))
  · exact absurd rfl (h.not_head (by decide : digitIn? 10 '+' = none))
  · exact hnone

/-- What is read of a text without a blank in front: its sign and an unsigned literal. -/
theorem read_eq_ok_iff_splitSign (hstart : ∀ c, text.head? = some c → isBlank c = false) {n : Int} :
    read style text = .ok n ↔ ∃ value : Nat, readUnsigned style (splitSign text).2 = .ok value
      ∧ n = if (splitSign text).1 then -(value : Int) else value := by
  have hdrop : ([] ++ text).dropWhile isBlank = text := Listing.dropWhile_run nofun hstart
  rw [read, show text.dropWhile isBlank = text from hdrop]
  cases hcase : readUnsigned style (splitSign text).2 with
  | error reason =>
    simp only [hcase]
    exact ⟨nofun, nofun⟩
  | ok value =>
    simp only [hcase, Except.ok.injEq, exists_eq_left']
    exact ⟨fun h => (Except.ok.inj h).symm, fun h => congrArg Except.ok h.symm⟩

/-- A text without blanks at its ends is read exactly when it is a literal, as the number that it
    denotes. -/
theorem read_eq_ok_iff (hstart : ∀ c, text.head? = some c → isBlank c = false)
    (hend : EndsSolid text) {n : Int} : read style text = .ok n ↔ IsLiteral style text n := by
  rw [read_eq_ok_iff_splitSign hstart]
  constructor
  · rintro ⟨value, hread, rfl⟩
    obtain ⟨rest, rfl, hsplit⟩ | ⟨rest, rfl, hsplit⟩ | hsplit := splitSign_cases text
    · rw [hsplit] at hread ⊢
      exact .minus ((readUnsigned_eq_ok_iff (hend.of_suffix ⟨['-'], rfl⟩)).1 hread)
    · rw [hsplit] at hread ⊢
      exact .plus ((readUnsigned_eq_ok_iff (hend.of_suffix ⟨['+'], rfl⟩)).1 hread)
    · rw [hsplit] at hread ⊢
      exact .plain ((readUnsigned_eq_ok_iff hend).1 hread)
  · rintro (h | h | h)
    · rw [h.splitSign_eq]
      exact ⟨_, (readUnsigned_eq_ok_iff hend).2 h, rfl⟩
    · exact ⟨_, (readUnsigned_eq_ok_iff (hend.of_suffix ⟨['+'], rfl⟩)).2 h, rfl⟩
    · exact ⟨_, (readUnsigned_eq_ok_iff (hend.of_suffix ⟨['-'], rfl⟩)).2 h, rfl⟩

end CoreTiming.Numeral
