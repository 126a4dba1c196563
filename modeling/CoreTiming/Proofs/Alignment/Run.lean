import CoreTiming.Proofs.Alignment.Visible

/-!
# Steps and runs

What one line does to a state that a pass can be in, and how the steps of several lines join.

A pass is outside of any subroutine or stands in the subroutine of its own label, with an index
that is at most the number of its instructions (`State.Reached`). A step keeps this and a run keeps
it (`Reached.step`, `Reached.run`), whatever the opcodes are.

Where opcodes can be looked up a step never fails but for a mismatch: `step_known` and
`step_unknown` are the steps of label lines, `step_surplus`, `step_skipped` and `step_paired` those
of instruction lines, by what is `visible`.
-/

namespace CoreTiming.Alignment

open CoreTiming CoreTiming.Listing

variable {rules : Rules} {program : Program}

/-! ## Runs over joined lists of lines -/

theorem run_append (rules : Rules) (program : Program) (state : State) (front rest : List Line) :
    run rules program state (front ++ rest)
      = match run rules program state front with
        | (journal, .error e) => (journal, .error e)
        | (journal, .ok next) =>
          (journal ++ (run rules program next rest).1, (run rules program next rest).2) := by
  induction front generalizing state with
  | nil => simp
  | cons line front ih =>
    rcases hstep : step rules program state line with ⟨journal, _ | next⟩
    · rw [List.cons_append, run_cons_error hstep, run_cons_error hstep]
    · rw [List.cons_append, run_cons_ok hstep, run_cons_ok hstep, ih]
      rcases run rules program next front with ⟨later, _ | last⟩
      · rfl
      · simp only [Journal.append_assoc]

theorem run_append_ok {state next : State} {front : List Line} {journal : Journal}
    (h : run rules program state front = (journal, .ok next)) (rest : List Line) :
    run rules program state (front ++ rest)
      = (journal ++ (run rules program next rest).1, (run rules program next rest).2) := by
  rw [run_append, h]

theorem run_append_error {state : State} {front : List Line} {journal : Journal} {e : Fault}
    (h : run rules program state front = (journal, .error e)) (rest : List Line) :
    run rules program state (front ++ rest) = (journal, .error e) := by
  rw [run_append, h]

theorem run_singleton (rules : Rules) (program : Program) (state : State) (line : Line) :
    run rules program state [line] = step rules program state line := by
  rcases hstep : step rules program state line with ⟨journal, _ | next⟩
  · rw [run_cons_error hstep]
  · rw [run_cons_ok hstep]
    simp

theorem align_of_run_error {texts : List String} {journal : Journal} {e : Fault}
    (h : run rules program .outside (readAll texts) = (journal, .error e)) :
    align rules program texts = (journal, .error e) := by
  rw [align, alignLines, h]

theorem align_of_run_ok {texts : List String} {journal : Journal} {last : State}
    (h : run rules program .outside (readAll texts) = (journal, .ok last)) :
    align rules program texts
      = (journal ++ { records := [summary journal.tally] }, .ok journal.tally) := by
  rw [align, alignLines, h]

theorem reports_align (rules : Rules) (program : Program) (texts : List String) :
    (align rules program texts).1.reports
      = (run rules program .outside (readAll texts)).1.reports := by
  rcases hrun : run rules program .outside (readAll texts) with ⟨journal, e | last⟩
  · rw [align_of_run_error hrun]
  · rw [align_of_run_ok hrun]
    simp

/-! ## The states of a pass -/

/-- The states that a pass can be in. -/
inductive State.Reached (program : Program) : State → Prop
  | outside : Reached program .outside
  | within {label : String} {s : Subroutine} {index : Nat}
      (known : program.find? label = some s) (inside : index ≤ s.instructions.length) :
      Reached program (.within label label index)

/-- A report names something that exists: a label line of any label, or an instruction of the
    program that is no placeholder. -/
inductive Report.Names (rules : Rules) (program : Program) : Report → Prop
  | symbol (label : String) (address : Datum) : Names rules program (.symbol label address)
  | instruction {label : String} {s : Subroutine} {index : Nat} {i : Instruction}
      (known : program.find? label = some s) (stands : s.instructions[index]? = some i)
      (shown : rules.isPlaceholder i = .ok false) (address : Datum) :
      Names rules program (.instruction label index address)

/-! ## What any step keeps -/

theorem reports_surplusJournal (label : String) (index : Int) (mnemonic : String) :
    (surplusJournal label index mnemonic).reports = [] := by
  unfold surplusJournal
  split <;> rfl

/-- A line in a subroutine ends the pass, or reports nothing and moves to the expected index, or is
    reported for the instruction expected there and moves behind it. -/
theorem stepWithin_cases (rules : Rules) (instructions : List Instruction) (label owner : String)
    (index : Int) (address : Datum) (mnemonic : String) :
    (∃ e, stepWithin rules instructions label owner index address mnemonic = (.empty, .error e))
    ∨ ∃ j verdict, judge rules instructions index mnemonic = .ok (j, verdict)
        ∧ ((∃ journal, journal.reports = []
              ∧ stepWithin rules instructions label owner index address mnemonic
                  = (journal, .ok (.within label owner j)))
          ∨ ∃ check, verdict = .paired check
              ∧ (stepWithin rules instructions label owner index address mnemonic).1
                  = pairedJournal label j address
              ∧ ∀ next,
                  (stepWithin rules instructions label owner index address mnemonic).2 = .ok next →
                  next = .within label owner (j + 1)) := by
  unfold stepWithin
  rcases judge rules instructions index mnemonic with e | ⟨j, verdict⟩
  · exact .inl ⟨e, rfl⟩
  · cases verdict with
    | surplus =>
      exact .inr ⟨j, _, rfl, .inl ⟨_, reports_surplusJournal label j mnemonic, rfl⟩⟩
    | skipped => exact .inr ⟨j, _, rfl, .inl ⟨_, rfl, rfl⟩⟩
    | paired check =>
      refine .inr ⟨j, _, rfl, .inr ⟨check, rfl, rfl, fun next hnext => ?_⟩⟩
      simp only at hnext
      split at hnext
      · cases hnext
      · cases hnext
        rfl

/-- A line in a subroutine reports nothing but an instruction of that subroutine that is no
    placeholder, and leads no further than behind the last instruction. -/
theorem stepWithin_spec {label : String} {s : Subroutine} {index : Nat} {address : Datum}
    {mnemonic : String} (known : program.find? label = some s)
    (inside : index ≤ s.instructions.length) :
    (∀ report ∈ (stepWithin rules s.instructions label label index address mnemonic).1.reports,
        report.Names rules program)
    ∧ ∀ next, (stepWithin rules s.instructions label label index address mnemonic).2 = .ok next →
        next.Reached program := by
  obtain ⟨e, hstep⟩ | ⟨reached, verdict, hjudge, hstep⟩ :=
    stepWithin_cases rules s.instructions label label index address mnemonic
  · rw [hstep]
    simp [Journal.empty]
  · obtain ⟨j, rfl, hle, hpaired⟩ := exists_of_judge hjudge
    rcases hstep with ⟨journal, hreports, hstep⟩ | ⟨check, rfl, hjournal, hnext⟩
    · rw [hstep]
      refine ⟨by simp [hreports], ?_⟩
      rintro next ⟨⟩
      exact .within known (by omega)
    · obtain ⟨i, stands, shown⟩ := hpaired check rfl
      constructor
      · intro report hreport
        obtain rfl : report = .instruction label j address := by
          simpa [hjournal, pairedJournal] using hreport
        exact .instruction known stands shown address
      · intro next hok
        obtain rfl := hnext next hok
        exact .within known (List.getElem?_eq_some_iff.1 stands).1

/-- What a pass reports in a state that it can be in names something that exists, and the next
    state is again one that it can be in. -/
theorem State.Reached.step {state : State} (h : state.Reached program) (rules : Rules)
    (line : Line) :
    (∀ report ∈ (Alignment.step rules program state line).1.reports,
        report.Names rules program)
    ∧ ∀ next, (Alignment.step rules program state line).2 = .ok next → next.Reached program := by
  cases line with
  | label address label =>
    rw [step_label rules program state .outside]
    constructor
    · intro report hreport
      obtain rfl : report = .symbol label address := by
        simpa [Alignment.step, labelJournal] using hreport
      exact .symbol label address
    · intro next hnext
      simp only [Alignment.step, Except.ok.injEq] at hnext
      cases hfind : program.find? label with
      | none =>
        obtain rfl : State.outside = next := by simpa [hfind] using hnext
        exact .outside
      | some s =>
        obtain rfl : State.within label label 0 = next := by simpa [hfind] using hnext
        exact @State.Reached.within program label s 0 hfind (Nat.zero_le _)
  | instruction address mnemonic =>
    cases h with
    | outside =>
      rw [step_outside]
      refine ⟨by simp [Journal.empty], ?_⟩
      rintro next ⟨⟩
      exact .outside
    | within known inside =>
      rw [Alignment.step, Program.instructionsOf_of_find? known]
      exact stepWithin_spec known inside

/-- All that a run reports names something that exists, also when the run ends early, and a run
    ends in a state that a pass can be in. -/
theorem State.Reached.run {state : State} (h : state.Reached program) (rules : Rules)
    (lines : List Line) :
    (∀ report ∈ (Alignment.run rules program state lines).1.reports, report.Names rules program)
    ∧ ∀ next, (Alignment.run rules program state lines).2 = .ok next → next.Reached program := by
  induction lines generalizing state with
  | nil =>
    refine ⟨by simp [Journal.empty], ?_⟩
    rintro next ⟨⟩
    exact h
  | cons line rest ih =>
    obtain ⟨hreports, hnext⟩ := h.step rules line
    rcases hstep : Alignment.step rules program state line with ⟨journal, e | next⟩
    · rw [hstep] at hreports
      rw [run_cons_error hstep]
      exact ⟨hreports, by simp⟩
    · rw [hstep] at hreports hnext
      rw [run_cons_ok hstep]
      obtain ⟨hlater, hlast⟩ := ih (hnext next rfl)
      refine ⟨fun report hreport => ?_, hlast⟩
      rcases List.mem_append.1 hreport with hreport | hreport
      · exact hreports report hreport
      · exact hlater report hreport

/-! ## The steps of lines read from text -/

theorem step_known {label : String} {s : Subroutine} (known : program.find? label = some s)
    (rules : Rules) (state : State) (address : Datum) :
    step rules program state (.label address label)
      = (labelJournal label address true, .ok (.within label label 0)) := by
  rw [step_label rules program state .outside]
  simp [step, known]

theorem step_unknown {label : String} (unknown : program.find? label = none)
    (rules : Rules) (state : State) (address : Datum) :
    step rules program state (.label address label)
      = (labelJournal label address false, .ok .outside) := by
  rw [step_label rules program state .outside]
  simp [step, unknown]

section Known

variable {label mnemonic : String} {s : Subroutine} {index : Nat} {i : Instruction} {j : Nat}
  {rest : List (Instruction × Nat)}

theorem step_surplus (h : program.IsHashable) (known : program.find? label = some s)
    (inside : index ≤ s.instructions.length)
    (hvisible : visible rules s.instructions index = []) (address : Datum) :
    step rules program (.within label label index) (.instruction address mnemonic)
      = (surplusJournal label s.instructions.length mnemonic,
          .ok (.within label label s.instructions.length)) := by
  rw [step, Program.instructionsOf_of_find? known,
    stepWithin_surplus (h s (Program.mem_of_find? known)) hvisible, Nat.max_eq_right inside]

theorem step_skipped (h : program.IsHashable) (known : program.find? label = some s)
    (hvisible : visible rules s.instructions index = (i, j) :: rest)
    (hskip : (isDirective mnemonic && !rules.isPooled i) = true) (address : Datum) :
    step rules program (.within label label index) (.instruction address mnemonic)
      = (skippedJournal label address mnemonic, .ok (.within label label j)) := by
  rw [step, Program.instructionsOf_of_find? known]
  exact stepWithin_skipped (h s (Program.mem_of_find? known)) hvisible hskip

theorem step_paired (h : program.IsHashable) (known : program.find? label = some s)
    (hvisible : visible rules s.instructions index = (i, j) :: rest)
    (hpair : (isDirective mnemonic && !rules.isPooled i) = false) (address : Datum) :
    step rules program (.within label label index) (.instruction address mnemonic)
      = (pairedJournal label j address,
          match (rules.demand? i).filter fun pattern => !pattern.found mnemonic with
          | some pattern => .error (.mismatch address mnemonic pattern.source)
          | none => .ok (.within label label (j + 1 : Nat))) := by
  rw [step, Program.instructionsOf_of_find? known]
  exact stepWithin_paired (h s (Program.mem_of_find? known)) hvisible hpair

end Known

end CoreTiming.Alignment
