import CoreTiming.Alignment.Step
import CoreTiming.Listing.Reader

/-!
# Alignment passes

A pass takes the lines of a listing one by one, from outside of any subroutine. The first fault
ends it, with the journal up to there. A pass that runs to the end logs its tally.
-/

namespace CoreTiming.Alignment

open CoreTiming CoreTiming.Listing

/-- The loop of `align_disassembly`: the steps of a list of lines from a state on. -/
def run (rules : Rules) (program : Program) : State → List Line → Journal × Except Fault State
  | state, [] => (.empty, .ok state)
  | state, line :: rest =>
    match step rules program state line with
    | (journal, .error e) => (journal, .error e)
    | (journal, .ok next) =>
      let (later, last) := run rules program next rest
      (journal ++ later, last)

/-- The record of a completed pass. -/
def summary (tally : Tally) : Log.Record :=
  logged .info ("Aligned " ++ Numeral.decimal tally.instructions ++ " instructions in "
    ++ Numeral.decimal tally.symbols ++ " symbols (" ++ Numeral.decimal tally.warnings
    ++ " warnings)")

/-- `align_disassembly` over the lines that carry an address. -/
def alignLines (rules : Rules) (program : Program) (lines : List Line) :
    Journal × Except Fault Tally :=
  match run rules program .outside lines with
  | (journal, .error e) => (journal, .error e)
  | (journal, .ok _) => (journal ++ { records := [summary journal.tally] }, .ok journal.tally)

/-- `align_disassembly`: the pass over a listing. -/
def align (rules : Rules) (program : Program) (texts : List String) :
    Journal × Except Fault Tally :=
  alignLines rules program (readAll texts)

/-! ## Laws -/

@[simp] theorem run_nil (rules : Rules) (program : Program) (state : State) :
    run rules program state [] = (.empty, .ok state) := rfl

theorem run_cons_ok {rules : Rules} {program : Program} {state next : State} {line : Line}
    {journal : Journal} (h : step rules program state line = (journal, .ok next))
    (rest : List Line) :
    run rules program state (line :: rest)
      = (journal ++ (run rules program next rest).1, (run rules program next rest).2) := by
  simp [run, h]

/-- A fault ends the pass, whatever lines are left. -/
theorem run_cons_error {rules : Rules} {program : Program} {state : State} {line : Line}
    {journal : Journal} {e : Fault} (h : step rules program state line = (journal, .error e))
    (rest : List Line) : run rules program state (line :: rest) = (journal, .error e) := by
  simp [run, h]

end CoreTiming.Alignment
