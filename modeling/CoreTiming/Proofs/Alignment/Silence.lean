import CoreTiming.Proofs.Alignment.Run

/-!
# Lines that report nothing

A line that reports nothing may still move the index of a pass: over the placeholders in front of
the instruction that is expected. From there the same instruction is expected at the same index, so
nothing that comes later can tell the new state from the old one.

Results:
* `upcoming_add`, `expected_expected`: going on from the expected index finds the same instruction
  at the same index, whatever index the search started from;
* `step_of_unreported`: one more line does the same in both states;
* `indistinguishable_of_unreported`: so does every continuation of the listing.

None of this asks that opcodes can be looked up or that the index lies in the subroutine.
-/

namespace CoreTiming.Alignment

open CoreTiming CoreTiming.Listing

variable {rules : Rules} {program : Program} {instructions : List Instruction} {index : Int}

/-! ## The expected index -/

/-- The instructions from a later index on are those that follow as many instructions. -/
theorem upcoming_add {ahead : List Instruction} (h : upcoming instructions index = .ok ahead)
    (count : Nat) : upcoming instructions (index + count) = .ok (ahead.drop count) := by
  unfold upcoming at h
  split at h
  · rename_i hindex
    cases h
    rw [upcoming, if_pos (by omega), List.drop_drop, Int.toNat_add hindex (by omega),
      Int.toNat_natCast]
  · rename_i hindex
    cases hposition : Index.position instructions.length index with
    | error e => simp [hposition] at h
    | ok position =>
      obtain rfl : instructions.drop position ++ instructions = ahead := by
        simpa [hposition] using h
      obtain ⟨n, rfl⟩ : ∃ n : Nat, index = -n := ⟨index.natAbs, by omega⟩
      have hn : n ≤ instructions.length := by
        by_contra hlt
        rw [Index.position, if_neg (by omega), if_neg (by omega)] at hposition
        cases hposition
      rw [Index.position_neg (by omega) hn] at hposition
      obtain rfl : instructions.length - n = position := by simpa using hposition
      rw [List.drop_append, List.length_drop, List.drop_drop]
      by_cases hback : count < n
      · -- the later index still counts from the end
        obtain ⟨left, rfl⟩ : ∃ left, n = count + left := ⟨n - count, by omega⟩
        rw [upcoming, if_neg (by omega),
          show (-((count + left : Nat) : Int)) + (count : Int) = -(left : Int) by omega,
          Index.position_neg (by omega) (by omega)]
        simp only
        rw [show instructions.length - (count + left) + count = instructions.length - left by omega,
          show count - (instructions.length - (instructions.length - (count + left))) = 0 by omega,
          List.drop_zero]
      · -- the search has come round to the first instruction
        have hfront : instructions.drop (instructions.length - n + count) = [] :=
          List.drop_eq_nil_of_le (by omega)
        rw [upcoming, if_pos (by omega), hfront, List.nil_append]
        congr 2
        omega

theorem passPlaceholders_drop {count : Nat} {found : Option Instruction}
    (h : passPlaceholders rules instructions = .ok (count, found)) :
    passPlaceholders rules (instructions.drop count) = .ok (0, found) := by
  obtain ⟨hat, -, hshown⟩ := passPlaceholders_eq_ok h
  cases found with
  | none =>
    rw [List.drop_eq_nil_of_le (List.getElem?_eq_none_iff.1 hat)]
    rfl
  | some i =>
    obtain ⟨hlt, rfl⟩ := List.getElem?_eq_some_iff.1 hat
    rw [List.drop_eq_getElem_cons hlt, passPlaceholders, hshown _ rfl]

theorem expected_expected {next : Int} {found : Option Instruction}
    (h : expected rules instructions index = .ok (next, found)) :
    expected rules instructions next = .ok (next, found) := by
  unfold expected at h
  cases hahead : upcoming instructions index with
  | error e => simp [hahead, bind, Except.bind] at h
  | ok ahead =>
    cases hpassed : passPlaceholders rules ahead with
    | error e => simp [hahead, hpassed, bind, Except.bind] at h
    | ok passed =>
      obtain ⟨rfl, rfl⟩ : index + passed.1 = next ∧ passed.2 = found := by
        simpa [hahead, hpassed, bind, Except.bind, pure, Except.pure] using h
      rw [expected, upcoming_add hahead]
      simp [passPlaceholders_drop hpassed, bind, Except.bind, pure, Except.pure]

theorem judge_of_judge {next : Int} {mnemonic : String} {verdict : Verdict}
    (h : judge rules instructions index mnemonic = .ok (next, verdict)) (other : String) :
    judge rules instructions next other = judge rules instructions index other := by
  cases hexpected : expected rules instructions index with
  | error e => simp [judge, hexpected] at h
  | ok found =>
    obtain ⟨place, i⟩ := found
    have hplace : place = next := by
      cases i with
      | none => exact (show place = next ∧ _ by simpa [judge, hexpected] using h).1
      | some i =>
        cases hverdict : verdictFor rules mnemonic i with
        | error e => simp [judge, hexpected, hverdict] at h
        | ok verdict =>
          exact (show place = next ∧ _ by simpa [judge, hexpected, hverdict] using h).1
    subst hplace
    rw [judge, judge, expected_expected hexpected, hexpected]

/-! ## Silent steps -/

/-- A line that reports nothing leaves a pass in the subroutine where it stands, at the index where
    the line was expected. -/
theorem stepWithin_of_unreported {label owner mnemonic : String} {address : Datum}
    {journal : Journal} {next : State}
    (h : stepWithin rules instructions label owner index address mnemonic = (journal, .ok next))
    (hsilent : journal.reports = []) :
    ∃ (j : Int) (verdict : Verdict), next = .within label owner j
      ∧ judge rules instructions index mnemonic = .ok (j, verdict) := by
  obtain ⟨e, hstep⟩ | ⟨j, verdict, hjudge, hstep⟩ :=
    stepWithin_cases rules instructions label owner index address mnemonic
  · rw [hstep] at h
    cases h
  · rcases hstep with ⟨_, -, hstep⟩ | ⟨check, -, hjournal, -⟩
    · rw [hstep] at h
      cases h
      exact ⟨j, verdict, rfl, hjudge⟩
    · rw [h] at hjournal
      simp only at hjournal
      rw [hjournal] at hsilent
      cases hsilent

/-- After a line that reports nothing any line does what it would have done before. -/
theorem step_of_unreported {state next : State} {line : Line} {journal : Journal}
    (h : step rules program state line = (journal, .ok next)) (hsilent : journal.reports = [])
    (later : Line) : step rules program next later = step rules program state later := by
  cases line with
  | label address label =>
    rw [step_label rules program state .outside, step] at h
    cases h
    cases hsilent
  | instruction address mnemonic =>
    cases state with
    | outside =>
      cases h
      rfl
    | within label owner index =>
      obtain ⟨j, verdict, rfl, hjudge⟩ := stepWithin_of_unreported h hsilent
      cases later with
      | label address label => exact step_label rules program _ _ address label
      | instruction address mnemonic =>
        simp only [step, stepWithin, judge_of_judge hjudge]

/-! ## Continuations -/

/-- Two states that no continuation of a listing can tell apart: it leaves the same reports, counts
    and records from both, and ends early with the same fault or from neither. Past the first line
    of it the pass is in the same state. -/
structure State.Indistinguishable (rules : Rules) (program : Program) (s t : State) : Prop where
  journal_eq (lines : List Line) :
    (Alignment.run rules program s lines).1 = (Alignment.run rules program t lines).1
  fault_iff (lines : List Line) (e : Fault) :
    (Alignment.run rules program s lines).2 = .error e
      ↔ (Alignment.run rules program t lines).2 = .error e
  state_eq (line : Line) :
    (Alignment.step rules program s line).2 = (Alignment.step rules program t line).2
  run_eq (line : Line) (rest : List Line) :
    Alignment.run rules program s (line :: rest) = Alignment.run rules program t (line :: rest)

theorem State.Indistinguishable.of_step_eq {s t : State}
    (h : ∀ line, step rules program s line = step rules program t line) :
    s.Indistinguishable rules program t := by
  have hrun : ∀ line rest,
      run rules program s (line :: rest) = run rules program t (line :: rest) :=
    fun line rest => by rw [run, run, h]
  constructor
  case run_eq => exact hrun
  case state_eq => exact fun line => by rw [h]
  case journal_eq =>
    rintro (_ | ⟨line, rest⟩)
    · rfl
    · rw [hrun]
  case fault_iff =>
    rintro (_ | ⟨line, rest⟩) e
    · simp only [run_nil, reduceCtorEq]
    · rw [hrun]

/-- **Lines that report nothing keep a pass in step.** Let a line neither report an address nor end
    the pass, whatever the rules, the program and the state are. Then the state after it is
    indistinguishable from the state before it, under the same label and in the same subroutine,
    although the index may be another one. -/
theorem indistinguishable_of_unreported {state next : State} {line : Line} {journal : Journal}
    (h : step rules program state line = (journal, .ok next)) (hsilent : journal.reports = []) :
    next.Indistinguishable rules program state
      ∧ (next = state ∨ ∃ label owner index j,
          state = .within label owner index ∧ next = .within label owner j) := by
  refine ⟨.of_step_eq (step_of_unreported h hsilent), ?_⟩
  cases line with
  | label address label =>
    rw [step_label rules program state .outside, step] at h
    cases h
    cases hsilent
  | instruction address mnemonic =>
    cases state with
    | outside =>
      cases h
      exact .inl rfl
    | within label owner index =>
      obtain ⟨j, -, rfl, -⟩ := stepWithin_of_unreported h hsilent
      exact .inr ⟨label, owner, index, j, rfl, rfl⟩

/-- A subroutine with placeholders at its start and at its end. -/
def fencedProgram : Program :=
  ⟨[⟨"f", [{ opcode := .int 8 }, { opcode := .opcode .addi }, { opcode := .text "IMPLICIT_DEF" }]⟩],
    by decide⟩

/-- Data in front of the only instruction moves the index over a placeholder, and so does a surplus
    line behind it. -/
theorem indistinguishable_of_unreported_fenced :
    step {} fencedProgram (.within "f" "f" 0) (.instruction (.int 0x10) ".word")
        = ({ records := [skippedRecord "f" (.int 0x10) ".word"] }, .ok (.within "f" "f" 1))
      ∧ State.within "f" "f" 1 ≠ .within "f" "f" 0
      ∧ (State.within "f" "f" 1).Indistinguishable {} fencedProgram (.within "f" "f" 0)
      ∧ step {} fencedProgram (.within "f" "f" 2) (.instruction (.int 0x14) "ret")
        = (surplusJournal "f" 3 "ret", .ok (.within "f" "f" 3))
      ∧ (State.within "f" "f" 3).Indistinguishable {} fencedProgram (.within "f" "f" 2) := by
  have hskipped : step {} fencedProgram (.within "f" "f" 0) (.instruction (.int 0x10) ".word")
      = ({ records := [skippedRecord "f" (.int 0x10) ".word"] }, .ok (.within "f" "f" 1)) := by
    decide +kernel
  have hsurplus : step {} fencedProgram (.within "f" "f" 2) (.instruction (.int 0x14) "ret")
      = (surplusJournal "f" 3 "ret", .ok (.within "f" "f" 3)) := by
    decide +kernel
  exact ⟨hskipped, by decide, (indistinguishable_of_unreported hskipped rfl).1, hsurplus,
    (indistinguishable_of_unreported hsurplus rfl).1⟩

end CoreTiming.Alignment
