import CoreTiming.Proofs.Alignment.Segment

/-!
# Patterns only observe

A pass under rules with patterns and the pass under the same rules without them take the same
steps up to the first line whose mnemonic contradicts the pattern of the instruction that it is
reported for. There the pass with patterns ends, after the report.

`trail` lists the lines that a pass takes, each with what its step leaves, and `violated?` finds
the pattern that such a line contradicts.

Results:
* `step_unchecked`: one step under both rules;
* `run_of_not_violated`, `run_of_violated`: what the runs under both rules have in common;
* `align_of_not_violated`, `align_of_violated`, `mismatch_iff_violated`: the same of whole passes,
  where a pass with patterns fails exactly when some line is violated, and no line behind the first
  such line matters; `align_unchecked` puts them together.
-/

namespace CoreTiming.Alignment

open CoreTiming CoreTiming.Listing

/-- The lines that a run takes, each with what its step leaves. -/
def trail (rules : Rules) (program : Program) : State → List Line → List (Line × Journal)
  | _, [] => []
  | state, line :: rest =>
    match step rules program state line with
    | (journal, .error _) => [(line, journal)]
    | (journal, .ok next) => (line, journal) :: trail rules program next rest

/-- The lines that a pass over a listing takes where no patterns end it. -/
def takenLines (rules : Rules) (program : Program) (texts : List String) : List (Line × Journal) :=
  trail rules.unchecked program .outside (readAll texts)

/-- The pattern that a line contradicts: the pattern of the instruction that the line is reported
    for, where it is not found in the mnemonic. -/
def violated? (rules : Rules) (program : Program) : Line × Journal → Option Pattern
  | (.instruction _ mnemonic, ⟨[.instruction label index _], _, _⟩) =>
    ((program.instructionsOf label)[index.toNat]?.bind rules.demand?).filter
      fun pattern => !pattern.found mnemonic
  | _ => none

variable {rules : Rules} {program : Program}

theorem trail_cons_ok {state next : State} {line : Line} {journal : Journal}
    (h : step rules program state line = (journal, .ok next)) (rest : List Line) :
    trail rules program state (line :: rest)
      = (line, journal) :: trail rules program next rest := by
  simp [trail, h]

/-! ## One step -/

/-- The step of a line is the same with and without patterns, but that a line which contradicts its
    pattern fails after its report. -/
theorem step_unchecked (h : program.IsHashable) {state : State} (hstate : state.Reached program)
    (rules : Rules) (line : Line) :
    ∃ journal next, step rules.unchecked program state line = (journal, .ok next)
      ∧ ((violated? rules program (line, journal) = none
            ∧ step rules program state line = (journal, .ok next))
        ∨ ∃ address mnemonic pattern, line = .instruction address mnemonic
            ∧ violated? rules program (line, journal) = some pattern
            ∧ step rules program state line
                = (journal, .error (.mismatch address mnemonic pattern.source))) := by
  cases line with
  | label address label =>
    cases known : program.find? label with
    | none =>
      exact ⟨_, _, step_unknown known _ _ _, .inl ⟨rfl, step_unknown known _ _ _⟩⟩
    | some s => exact ⟨_, _, step_known known _ _ _, .inl ⟨rfl, step_known known _ _ _⟩⟩
  | instruction address mnemonic =>
    cases hstate with
    | outside => exact ⟨_, _, step_outside _ _ _ _, .inl ⟨rfl, step_outside _ _ _ _⟩⟩
    | @within label s index known inside =>
      have hsame := visible_unchecked rules s.instructions index
      rcases hvisible : visible rules s.instructions index with _ | ⟨⟨i, j⟩, rest⟩
      · rw [hvisible] at hsame
        refine ⟨_, _, step_surplus h known inside hsame _, .inl ⟨?_, ?_⟩⟩
        · unfold surplusJournal
          split <;> rfl
        · exact step_surplus h known inside hvisible _
      · rw [hvisible] at hsame
        cases hverdict : isDirective mnemonic && !rules.isPooled i with
        | true =>
          exact ⟨_, _, step_skipped h known hsame hverdict address,
            .inl ⟨rfl, step_skipped h known hvisible hverdict address⟩⟩
        | false =>
          -- both rules pair the line, and only one of them looks at the mnemonic
          have hstep := step_paired h known hvisible hverdict address
          have hquiet : step rules.unchecked program (.within label label index)
                (.instruction address mnemonic)
              = (pairedJournal label j address, .ok (.within label label (j + 1 : Nat))) :=
            step_paired h known hsame hverdict _
          have hviolated : violated? rules program
                (.instruction address mnemonic, pairedJournal label j address)
              = (rules.demand? i).filter fun pattern => !pattern.found mnemonic := by
            have hat := (visible_tail hvisible).2.1
            simp [violated?, pairedJournal, Program.instructionsOf_of_find? known, hat]
          refine ⟨_, _, hquiet, ?_⟩
          rw [hviolated, hstep]
          cases (rules.demand? i).filter fun pattern => !pattern.found mnemonic with
          | none => exact .inl ⟨rfl, rfl⟩
          | some pattern => exact .inr ⟨address, mnemonic, pattern, rfl, rfl, rfl⟩

/-! ## Runs -/

/-- Without patterns a run takes all lines, and its trail adds up to what it leaves. -/
theorem run_unchecked (h : program.IsHashable) (rules : Rules) {state : State}
    (hstate : state.Reached program) (lines : List Line) :
    (trail rules.unchecked program state lines).map (·.1) = lines
      ∧ ∃ last, run rules.unchecked program state lines
          = (Journal.join ((trail rules.unchecked program state lines).map (·.2)), .ok last) := by
  induction lines generalizing state with
  | nil => exact ⟨rfl, state, rfl⟩
  | cons line rest ih =>
    obtain ⟨journal, next, hquiet, -⟩ := step_unchecked h hstate rules line
    have hnext := (hstate.step rules.unchecked line).2 next (by rw [hquiet])
    obtain ⟨hlines, last, hrun⟩ := ih hnext
    rw [trail_cons_ok hquiet, run_cons_ok hquiet, hrun]
    exact ⟨by rw [List.map_cons, hlines], last, rfl⟩

theorem run_of_not_violated (h : program.IsHashable) {state : State}
    (hstate : state.Reached program) {lines : List Line}
    (hnone : ∀ taken ∈ trail rules.unchecked program state lines,
      violated? rules program taken = none) :
    run rules program state lines = run rules.unchecked program state lines := by
  induction lines generalizing state with
  | nil => rfl
  | cons line rest ih =>
    obtain ⟨journal, next, hquiet, hstep⟩ := step_unchecked h hstate rules line
    have hnext := (hstate.step rules.unchecked line).2 next (by rw [hquiet])
    rw [trail_cons_ok hquiet] at hnone
    obtain ⟨hline, hlater⟩ := List.forall_mem_cons.1 hnone
    rcases hstep with ⟨-, hstep⟩ | ⟨address, mnemonic, pattern, -, hviolated, -⟩
    · rw [run_cons_ok hquiet, run_cons_ok hstep, ih hnext hlater]
    · simp [hline] at hviolated

/-- The first violated line ends the run after its report, whatever lines come behind it. -/
theorem run_of_violated (h : program.IsHashable) {state : State}
    (hstate : state.Reached program) {lines : List Line}
    {before after : List (Line × Journal)} {taken : Line × Journal} {pattern : Pattern}
    (htrail : trail rules.unchecked program state lines = before ++ taken :: after)
    (hbefore : ∀ earlier ∈ before, violated? rules program earlier = none)
    (hviolated : violated? rules program taken = some pattern) :
    ∃ address mnemonic, taken.1 = .instruction address mnemonic
      ∧ run rules program state (before.map (·.1) ++ [taken.1])
          = (Journal.join ((before ++ [taken]).map (·.2)),
              .error (.mismatch address mnemonic pattern.source)) := by
  -- induction on the lines before the violated one
  induction before generalizing state lines with
  | nil =>
    cases lines with
    | nil => cases htrail
    | cons line rest =>
      obtain ⟨journal, next, hquiet, hstep⟩ := step_unchecked h hstate rules line
      rw [trail_cons_ok hquiet, List.nil_append] at htrail
      obtain rfl : (line, journal) = taken := (List.cons.inj htrail).1
      rcases hstep with ⟨hnone, -⟩ | ⟨address, mnemonic, found, rfl, hfound, hstep⟩
      · simp [hnone] at hviolated
      · obtain rfl : found = pattern := by simpa [hfound] using hviolated
        refine ⟨address, mnemonic, rfl, ?_⟩
        rw [List.map_nil, List.nil_append, run_singleton, hstep]
        simp
  | cons first before ih =>
    cases lines with
    | nil => cases htrail
    | cons line rest =>
      obtain ⟨journal, next, hquiet, hstep⟩ := step_unchecked h hstate rules line
      have hnext := (hstate.step rules.unchecked line).2 next (by rw [hquiet])
      rw [trail_cons_ok hquiet, List.cons_append] at htrail
      obtain ⟨rfl, hrestTrail⟩ := List.cons.inj htrail
      obtain ⟨hnone, hlater⟩ := List.forall_mem_cons.1 hbefore
      obtain ⟨address, mnemonic, htaken, hrun⟩ := ih hnext hrestTrail hlater
      refine ⟨address, mnemonic, htaken, ?_⟩
      rcases hstep with ⟨-, hstep⟩ | ⟨_, _, _, -, hfound, -⟩
      · rw [List.map_cons, List.cons_append, run_cons_ok hstep, hrun]
        rfl
      · simp [hnone] at hfound

/-! ## Passes -/

theorem exists_first_of_ne_none {α β : Type} {f : α → Option β} {items : List α}
    (h : ∃ item ∈ items, f item ≠ none) :
    ∃ before item after b, items = before ++ item :: after
      ∧ (∀ earlier ∈ before, f earlier = none) ∧ f item = some b := by
  induction items with
  | nil => simp at h
  | cons first rest ih =>
    cases hfirst : f first with
    | some b => exact ⟨[], first, rest, b, rfl, by simp, hfirst⟩
    | none =>
      have hrest : ∃ item ∈ rest, f item ≠ none := by simpa [hfirst] using h
      obtain ⟨before, item, after, b, rfl, hbefore, hitem⟩ := ih hrest
      exact ⟨first :: before, item, after, b, rfl,
        List.forall_mem_cons.2 ⟨hfirst, hbefore⟩, hitem⟩

section Passes

variable {texts : List String}

theorem run_takenLines (h : program.IsHashable) (rules : Rules) (texts : List String) :
    (takenLines rules program texts).map (·.1) = readAll texts
      ∧ ∃ last, run rules.unchecked program .outside (readAll texts)
          = (Journal.join ((takenLines rules program texts).map (·.2)), .ok last) :=
  run_unchecked h rules .outside (readAll texts)

theorem align_of_not_violated (h : program.IsHashable)
    (hnone : ∀ taken ∈ takenLines rules program texts, violated? rules program taken = none) :
    align rules program texts = align rules.unchecked program texts := by
  obtain ⟨-, last, hquiet⟩ := run_takenLines h rules texts
  have hrun := run_of_not_violated h .outside hnone
  rw [align_of_run_ok (hrun.trans hquiet), align_of_run_ok hquiet]

/-- The first violated line ends the pass, over every listing that starts with the lines up to
    it. -/
theorem align_of_violated (h : program.IsHashable) {before after : List (Line × Journal)}
    {taken : Line × Journal} {pattern : Pattern}
    (htrail : takenLines rules program texts = before ++ taken :: after)
    (hbefore : ∀ earlier ∈ before, violated? rules program earlier = none)
    (hviolated : violated? rules program taken = some pattern) :
    ∃ (n : Nat) (mnemonic : String), taken.1 = .instruction (.int n) mnemonic
      ∧ ∀ others, before.map (·.1) ++ [taken.1] <+: readAll others →
          align rules program others
            = (Journal.join ((before ++ [taken]).map (·.2)),
                .error (.mismatch (.int n) mnemonic pattern.source)) := by
  obtain ⟨address, mnemonic, htaken, hrun⟩ := run_of_violated h .outside htrail hbefore hviolated
  have hread : taken.1 ∈ readAll texts := by
    rw [← (run_takenLines h rules texts).1, htrail]
    simp
  obtain ⟨n, hn⟩ := exists_int_of_mem_readAll hread
  obtain rfl : address = .int n := by rwa [htaken] at hn
  refine ⟨n, mnemonic, htaken, ?_⟩
  rintro others ⟨more, hothers⟩
  apply align_of_run_error
  rw [← hothers]
  exact run_append_error hrun more

/-- A pass fails for a mismatch exactly when some line is violated. -/
theorem mismatch_iff_violated (h : program.IsHashable) :
    (∃ address mnemonic source,
        (align rules program texts).2 = .error (.mismatch address mnemonic source))
      ↔ ∃ taken ∈ takenLines rules program texts, violated? rules program taken ≠ none := by
  obtain ⟨hlines, last, hquiet⟩ := run_takenLines h rules texts
  constructor
  · rintro ⟨address, mnemonic, source, hmismatch⟩
    by_contra hno
    have hnone : ∀ taken ∈ takenLines rules program texts,
        violated? rules program taken = none := by
      intro taken htaken
      by_contra hviolated
      exact hno ⟨taken, htaken, hviolated⟩
    rw [align_of_not_violated h hnone, align_of_run_ok hquiet] at hmismatch
    cases hmismatch
  · intro hsome
    obtain ⟨before, taken, after, pattern, htrail, hbefore, hviolated⟩ :=
      exists_first_of_ne_none hsome
    obtain ⟨n, mnemonic, htaken, hpass⟩ := align_of_violated h htrail hbefore hviolated
    refine ⟨.int n, mnemonic, pattern.source, ?_⟩
    rw [hpass texts]
    rw [← hlines, htrail]
    exact ⟨after.map (·.1), by simp⟩

end Passes

/-- **Patterns only observe.** The pass without patterns takes every line and completes. Where no
    line that it takes is violated, the pass with patterns is the same pass. Otherwise the pass
    with patterns ends at the first violated line, with the reports up to the report of that line
    and with the address and the mnemonic of that line, and so does the pass over every other
    listing that starts with the same lines. There is no other mismatch. -/
theorem align_unchecked (h : program.IsHashable) (rules : Rules) (texts : List String) :
    (takenLines rules program texts).map (·.1) = readAll texts
    ∧ (align rules.unchecked program texts).1.reports
        = (takenLines rules program texts).flatMap (·.2.reports)
    ∧ (∃ tally, (align rules.unchecked program texts).2 = .ok tally)
    ∧ ((∀ taken ∈ takenLines rules program texts, violated? rules program taken = none) →
        align rules program texts = align rules.unchecked program texts)
    ∧ (∀ before taken after pattern,
        takenLines rules program texts = before ++ taken :: after →
        (∀ earlier ∈ before, violated? rules program earlier = none) →
        violated? rules program taken = some pattern →
        ∃ (n : Nat) (mnemonic : String), taken.1 = .instruction (.int n) mnemonic
          ∧ (mismatchDiagnostic (.int n) mnemonic pattern.source).map (·.cause)
              = .ok (.alignment (.int n) (.text mnemonic))
          ∧ ∀ others, before.map (·.1) ++ [taken.1] <+: readAll others →
              (align rules program others).1.reports
                  = before.flatMap (·.2.reports) ++ taken.2.reports
              ∧ (align rules program others).2
                  = .error (.mismatch (.int n) mnemonic pattern.source))
    ∧ ((∃ address mnemonic source,
          (align rules program texts).2 = .error (.mismatch address mnemonic source))
        ↔ ∃ taken ∈ takenLines rules program texts, violated? rules program taken ≠ none) := by
  obtain ⟨hlines, last, hquiet⟩ := run_takenLines h rules texts
  refine ⟨hlines, ?_, ⟨_, by rw [align_of_run_ok hquiet]⟩, align_of_not_violated h, ?_,
    mismatch_iff_violated h⟩
  · rw [align_of_run_ok hquiet]
    simp [List.flatMap_map]
  · intro before taken after pattern htrail hbefore hviolated
    obtain ⟨n, mnemonic, htaken, hpass⟩ := align_of_violated h htrail hbefore hviolated
    refine ⟨n, mnemonic, htaken, rfl, fun others hothers => ?_⟩
    rw [hpass others hothers]
    exact ⟨by simp [List.flatMap_map], rfl⟩

/-- A subroutine whose second instruction has a pattern. -/
def patternedProgram : Program :=
  ⟨[⟨"f", [{ opcode := .text "ADDI" }, { opcode := .opcode .lui }, { opcode := .text "ADDI" }]⟩],
    by decide⟩

/-- A listing that shows another instruction in place of the second one. -/
def swappedListing : List String :=
  ["00000010 <f>:", "10: addi", "14: addi", "18: lui"]

theorem align_unchecked_swapped :
    patternedProgram.IsHashable
      ∧ (align {} patternedProgram swappedListing).1.reports
          = [.symbol "f" (.int 0x10), .instruction "f" 0 (.int 0x10),
            .instruction "f" 1 (.int 0x14)]
      ∧ (align {} patternedProgram swappedListing).2
          = .error (.mismatch (.int 0x14) "addi" "lui") := by
  have h : patternedProgram.IsHashable := by decide
  have hbefore : ∀ earlier ∈ (takenLines {} patternedProgram swappedListing).take 2,
      violated? {} patternedProgram earlier = none := by
    simp only [← Option.isNone_iff_eq_none]
    decide +kernel
  have hsource : (violated? {} patternedProgram
      (.instruction (.int 0x14) "addi", pairedJournal "f" 1 (.int 0x14))).map (·.source)
        = some "lui" := by decide +kernel
  obtain ⟨pattern, hviolated, hsource⟩ := Option.map_eq_some_iff.1 hsource
  obtain ⟨-, -, -, -, hfirst, -⟩ := align_unchecked h {} swappedListing
  obtain ⟨n, mnemonic, htaken, -, hpass⟩ :=
    hfirst ((takenLines {} patternedProgram swappedListing).take 2)
      (.instruction (.int 0x14) "addi", pairedJournal "f" 1 (.int 0x14))
      ((takenLines {} patternedProgram swappedListing).drop 3) pattern
      (by decide +kernel) hbefore hviolated
  obtain ⟨hn, rfl⟩ : 0x14 = (n : Int) ∧ "addi" = mnemonic := by simpa using htaken
  obtain ⟨hreports, hfault⟩ := hpass swappedListing (by decide +kernel)
  rw [← hn, hsource] at hfault
  exact ⟨h, hreports.trans (by decide +kernel), hfault⟩

end CoreTiming.Alignment
