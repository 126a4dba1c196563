import CoreTiming.Proofs.Alignment.Run

/-!
# Segments of a listing

A listing is cut at its label lines. Each label line opens a segment, which holds the instruction
lines up to the next label line; the instruction lines in front of the first label line belong to
no segment. `flatten_cut` says that cutting loses nothing.

Results:
* `run_segment`: a segment is run from everywhere as from outside of any subroutine, so the run of
  one segment knows nothing of the segments before it;
* `alignLines_eq_join`: a pass in which every segment runs to its end adds up what the segments
  leave one by one, and the instruction lines in front of them leave nothing.
-/

namespace CoreTiming.Alignment

open CoreTiming CoreTiming.Listing

/-- An instruction line of a listing. -/
structure Entry where
  address : Datum
  mnemonic : String
  deriving DecidableEq

/-- The line itself. -/
def Entry.line (entry : Entry) : Line := .instruction entry.address entry.mnemonic

/-- A label line, with the instruction lines up to the next label line. -/
structure Segment where
  address : Datum
  label : String
  entries : List Entry
  deriving DecidableEq

/-- The lines of a segment. -/
def Segment.lines (segment : Segment) : List Line :=
  .label segment.address segment.label :: segment.entries.map Entry.line

/-- The instruction lines in front of the first label line, and the segments. -/
def cut : List Line → List Entry × List Segment
  | [] => ([], [])
  | .label address label :: rest => ([], ⟨address, label, (cut rest).1⟩ :: (cut rest).2)
  | .instruction address mnemonic :: rest => (⟨address, mnemonic⟩ :: (cut rest).1, (cut rest).2)

/-- The segments of a listing, in order. -/
def segments (lines : List Line) : List Segment := (cut lines).2

theorem flatten_cut (lines : List Line) :
    (cut lines).1.map Entry.line ++ (segments lines).flatMap Segment.lines = lines := by
  unfold segments
  induction lines with
  | nil => rfl
  | cons line rest ih =>
    cases line with
    | label address label =>
      simp only [cut, List.map_nil, List.nil_append, List.flatMap_cons, Segment.lines,
        List.cons_append]
      rw [ih]
    | instruction address mnemonic =>
      simp only [cut, List.map_cons, List.cons_append, Entry.line]
      exact congrArg _ ih

/-! ## Journals end to end -/

/-- The journals one after the other. -/
def Journal.join : List Journal → Journal
  | [] => .empty
  | journal :: rest => journal ++ join rest

@[simp] theorem Journal.join_nil : Journal.join [] = .empty := rfl

@[simp] theorem Journal.join_cons (journal : Journal) (rest : List Journal) :
    Journal.join (journal :: rest) = journal ++ Journal.join rest := rfl

@[simp] theorem Journal.reports_join (journals : List Journal) :
    (Journal.join journals).reports = journals.flatMap (·.reports) := by
  induction journals with
  | nil => rfl
  | cons journal rest ih => simp [ih]

@[simp] theorem Journal.records_join (journals : List Journal) :
    (Journal.join journals).records = journals.flatMap (·.records) := by
  induction journals with
  | nil => rfl
  | cons journal rest ih => simp [ih]

/-! ## Running segments -/

variable {rules : Rules} {program : Program}

theorem run_outside (rules : Rules) (program : Program) (entries : List Entry) :
    run rules program .outside (entries.map Entry.line) = (.empty, .ok .outside) := by
  induction entries with
  | nil => rfl
  | cons entry rest ih =>
    rw [List.map_cons, Entry.line, run_cons_ok (step_outside _ _ _ _), ih, Journal.empty_append]

theorem run_segment (rules : Rules) (program : Program) (state : State) (segment : Segment) :
    run rules program state segment.lines = run rules program .outside segment.lines := by
  rw [Segment.lines, run, run, step_label rules program state .outside]

theorem run_segments {journal : Segment → Journal} {segments : List Segment} (state : State)
    (h : ∀ segment ∈ segments, ∃ last,
      run rules program .outside segment.lines = (journal segment, .ok last)) :
    ∃ last, run rules program state (segments.flatMap Segment.lines)
      = (Journal.join (segments.map journal), .ok last) := by
  induction segments generalizing state with
  | nil => exact ⟨state, rfl⟩
  | cons segment rest ih =>
    obtain ⟨⟨next, hsegment⟩, hrest⟩ := List.forall_mem_cons.1 h
    obtain ⟨last, hlast⟩ := ih next hrest
    refine ⟨last, ?_⟩
    rw [List.flatMap_cons, run_append_ok ((run_segment rules program state segment).trans hsegment),
      hlast]
    rfl

/-- A pass adds up what its segments leave. -/
theorem alignLines_eq_join {journal : Segment → Journal} {lines : List Line}
    (h : ∀ segment ∈ segments lines, ∃ last,
      run rules program .outside segment.lines = (journal segment, .ok last)) :
    alignLines rules program lines
      = (Journal.join ((segments lines).map journal)
            ++ { records := [summary (Journal.join ((segments lines).map journal)).tally] },
          .ok (Journal.join ((segments lines).map journal)).tally) := by
  obtain ⟨last, hlast⟩ := run_segments .outside h
  have hrun : run rules program .outside lines
      = (Journal.join ((segments lines).map journal), .ok last) := by
    conv_lhs => rw [← flatten_cut lines]
    rw [run_append_ok (run_outside rules program _), hlast, Journal.empty_append]
  rw [alignLines, hrun]

end CoreTiming.Alignment
