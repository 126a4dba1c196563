import CoreTiming.Proofs.Alignment.Segment
import Mathlib.Algebra.BigOperators.Group.Finset.Piecewise

/-!
# Subroutines do not interfere

What a pass reports under a label depends on the subroutine of that label and on the segments of
that label only. The other side of this is a pass of its own for the label: over the texts that
stand under its label lines (`listingOf`), with a program that holds its subroutine and no other
(`Program.only`).

Results:
* `reports_run_segment`, `run_segment_congr`: the run of a segment reports under the label of the
  segment, and looks up nothing else in the program;
* `segments_listingOf`: the segments of the texts under a label are the segments of that label;
* `align_separate`: a completed pass reports under every label what the pass of its own for that
  label reports, and its tally is the sum of the tallies of those passes.
-/

namespace CoreTiming

/-! ## One label -/

/-- The program of the subroutine with a label alone; there may be none. -/
def Program.only (program : Program) (label : String) : Program where
  subroutines := (program.find? label).toList
  nodup_labels := by cases program.find? label <;> simp

theorem Program.find?_only (program : Program) (label : String) :
    (program.only label).find? label = program.find? label := by
  have honly : (program.only label).subroutines = (program.find? label).toList := rfl
  cases h : program.find? label with
  | none => rw [find?, honly, h, Option.toList_none, List.find?_nil]
  | some s =>
    have hlabel : s.label = label := by
      have hfound := List.find?_some (p := fun t : Subroutine => t.label == label) h
      simpa using hfound
    rw [find?, honly, h, Option.toList_some]
    simp [hlabel]

theorem Program.only_congr {program other : Program} {label : String}
    (h : other.find? label = program.find? label) : other.only label = program.only label := by
  simp only [only, h]

namespace Alignment

open CoreTiming.Listing

/-- The label that a report is made under. -/
def Report.label : Report → String
  | .symbol label _ => label
  | .instruction label _ _ => label

/-- The texts from a label line of a label to the next label line. The flag says whether the texts
    before end under such a label line. -/
def textsUnder (label : String) (inside : Bool) : List String → List String
  | [] => []
  | text :: rest =>
    let inside :=
      match read? text with
      | some (.label _ name) => name == label
      | _ => inside
    if inside then text :: textsUnder label inside rest else textsUnder label inside rest

/-- The texts of a listing that stand under the label lines of a label. -/
def listingOf (label : String) (texts : List String) : List String := textsUnder label false texts

variable {rules : Rules} {program other : Program}

/-! ## Segments of one label -/

/-- Cutting the texts under a label leaves the segments of that label. The lines in front of the
    first of them are there when the texts start under the label. -/
theorem cut_readAll_textsUnder (label : String) (inside : Bool) (texts : List String) :
    cut (readAll (textsUnder label inside texts))
      = (if inside then (cut (readAll texts)).1 else [],
          (segments (readAll texts)).filter (·.label == label)) := by
  unfold segments
  induction texts generalizing inside with
  | nil => cases inside <;> rfl
  | cons text rest ih =>
    rcases hread : read? text with _ | line
    · have hrest : readAll (text :: rest) = readAll rest := List.filterMap_cons_none hread
      rw [hrest, textsUnder, hread]
      cases inside with
      | false => exact ih false
      | true =>
        have htext : readAll (text :: textsUnder label true rest)
            = readAll (textsUnder label true rest) := List.filterMap_cons_none hread
        simp only [if_true, htext]
        exact ih true
    · have hrest : readAll (text :: rest) = line :: readAll rest := List.filterMap_cons_some hread
      have htext : ∀ more, readAll (text :: more) = line :: readAll more :=
        fun more => List.filterMap_cons_some hread
      rw [hrest, textsUnder, hread]
      cases line with
      | label address name =>
        cases hname : name == label <;> cases inside <;>
          simp [hname, htext, cut, ih]
      | instruction address mnemonic =>
        cases inside <;> simp [htext, cut, ih]

theorem segments_listingOf (label : String) (texts : List String) :
    segments (readAll (listingOf label texts))
      = (segments (readAll texts)).filter (·.label == label) := by
  rw [listingOf, segments, cut_readAll_textsUnder]

/-! ## Runs under one label -/

/-- The states of a pass behind a label line. -/
inductive State.Under (label : String) : State → Prop
  | outside : Under label .outside
  | within (index : Int) : Under label (.within label label index)

/-- A line in a subroutine is reported under its label, and leads nowhere else. -/
theorem stepWithin_under (rules : Rules) (instructions : List Instruction) (label : String)
    (index : Int) (address : Datum) (mnemonic : String) :
    (∀ report ∈ (stepWithin rules instructions label label index address mnemonic).1.reports,
        report.label = label)
    ∧ ∀ next, (stepWithin rules instructions label label index address mnemonic).2 = .ok next →
        next.Under label := by
  obtain ⟨e, hstep⟩ | ⟨j, verdict, -, ⟨journal, hreports, hstep⟩ | ⟨check, -, hjournal, hnext⟩⟩ :=
    stepWithin_cases rules instructions label label index address mnemonic
  · rw [hstep]
    simp [Journal.empty]
  · rw [hstep]
    refine ⟨by simp [hreports], ?_⟩
    rintro next ⟨⟩
    exact .within j
  · constructor
    · intro report hreport
      obtain rfl : report = .instruction label j address := by
        simpa [hjournal, pairedJournal] using hreport
      rfl
    · intro next hok
      obtain rfl := hnext next hok
      exact .within (j + 1)

theorem State.Under.step {label : String} {state : State} (h : state.Under label) (rules : Rules)
    (program : Program) (entry : Entry) :
    (∀ report ∈ (Alignment.step rules program state entry.line).1.reports, report.label = label)
    ∧ ∀ next, (Alignment.step rules program state entry.line).2 = .ok next →
        next.Under label := by
  cases h with
  | outside =>
    rw [Entry.line, step_outside]
    refine ⟨by simp [Journal.empty], ?_⟩
    rintro next ⟨⟩
    exact .outside
  | within index => exact stepWithin_under rules _ label index entry.address entry.mnemonic

/-- An instruction line looks up the subroutine of the label that it stands under. -/
theorem State.Under.step_congr {label : String} {state : State} (h : state.Under label)
    (rules : Rules) (same : other.find? label = program.find? label) (entry : Entry) :
    Alignment.step rules other state entry.line
      = Alignment.step rules program state entry.line := by
  cases h with
  | outside => rfl
  | within index =>
    have hinstructions : other.instructionsOf label = program.instructionsOf label := by
      rw [Program.instructionsOf, same, Program.instructionsOf]
    rw [Entry.line, Alignment.step, Alignment.step, hinstructions]

theorem State.Under.reports_run {label : String} {state : State} (h : state.Under label)
    (rules : Rules) (program : Program) (entries : List Entry) :
    ∀ report ∈ (Alignment.run rules program state (entries.map Entry.line)).1.reports,
      report.label = label := by
  induction entries generalizing state with
  | nil => simp [Journal.empty]
  | cons entry rest ih =>
    obtain ⟨hreports, hnext⟩ := h.step rules program entry
    rw [List.map_cons]
    rcases hstep : Alignment.step rules program state entry.line with ⟨journal, e | next⟩
    · rw [hstep] at hreports
      rwa [run_cons_error hstep]
    · rw [hstep] at hreports hnext
      rw [run_cons_ok hstep]
      intro report hreport
      rcases List.mem_append.1 hreport with hreport | hreport
      · exact hreports report hreport
      · exact ih (hnext next rfl) report hreport

theorem State.Under.run_congr {label : String} {state : State} (h : state.Under label)
    (rules : Rules) (same : other.find? label = program.find? label) (entries : List Entry) :
    Alignment.run rules other state (entries.map Entry.line)
      = Alignment.run rules program state (entries.map Entry.line) := by
  induction entries generalizing state with
  | nil => rfl
  | cons entry rest ih =>
    have hsame := h.step_congr rules same entry
    rw [List.map_cons]
    rcases hstep : Alignment.step rules program state entry.line with ⟨journal, e | next⟩
    · rw [run_cons_error hstep, run_cons_error (hsame.trans hstep)]
    · have hnext := (h.step rules program entry).2 next (by rw [hstep])
      rw [run_cons_ok hstep, run_cons_ok (hsame.trans hstep), ih hnext]

/-- A label line is reported under its label, and what comes behind it stands under that label. -/
theorem step_label_under (rules : Rules) (program : Program) (address : Datum) (label : String) :
    ∃ next, next.Under label
      ∧ step rules program .outside (.label address label)
          = (labelJournal label address (program.find? label).isSome, .ok next) := by
  cases known : program.find? label with
  | none => exact ⟨.outside, .outside, step_unknown known rules _ address⟩
  | some s => exact ⟨.within label label 0, .within 0, step_known known rules _ address⟩

theorem reports_run_segment (rules : Rules) (program : Program) (segment : Segment) :
    ∀ report ∈ (run rules program .outside segment.lines).1.reports,
      report.label = segment.label := by
  obtain ⟨next, hunder, hstep⟩ := step_label_under rules program segment.address segment.label
  rw [Segment.lines, run_cons_ok hstep]
  intro report hreport
  rcases List.mem_append.1 hreport with hreport | hreport
  · obtain rfl : report = .symbol segment.label segment.address := by
      simpa [labelJournal] using hreport
    rfl
  · exact hunder.reports_run rules program segment.entries report hreport

/-- The run of a segment looks up the subroutine of its label and no other. -/
theorem run_segment_congr (rules : Rules) {segment : Segment}
    (same : other.find? segment.label = program.find? segment.label) :
    run rules other .outside segment.lines = run rules program .outside segment.lines := by
  obtain ⟨next, hunder, hstep⟩ := step_label_under rules program segment.address segment.label
  have hother : step rules other .outside (.label segment.address segment.label)
      = (labelJournal segment.label segment.address (program.find? segment.label).isSome,
          .ok next) := by
    rw [← hstep, step, step, same]
  rw [Segment.lines, run_cons_ok hstep, run_cons_ok hother, hunder.run_congr rules same]

/-! ## Passes segment by segment -/

/-- What a segment leaves. -/
def Segment.left (rules : Rules) (program : Program) (segment : Segment) : Journal :=
  (run rules program .outside segment.lines).1

/-- Whether a segment runs to its end. -/
def Segment.Completes (rules : Rules) (program : Program) (segment : Segment) : Prop :=
  ∃ last, run rules program .outside segment.lines = (segment.left rules program, .ok last)

/-- Segments that run to the end one after the other do so one by one. -/
theorem completes_of_run_segments {segments : List Segment} {state last : State}
    (h : (run rules program state (segments.flatMap Segment.lines)).2 = .ok last) :
    ∀ segment ∈ segments, segment.Completes rules program := by
  induction segments generalizing state with
  | nil => simp
  | cons segment rest ih =>
    rw [List.flatMap_cons] at h
    rcases hsegment : run rules program state segment.lines with ⟨journal, e | next⟩
    · rw [run_append_error hsegment] at h
      cases h
    · rw [run_append_ok hsegment] at h
      rw [run_segment] at hsegment
      refine List.forall_mem_cons.2 ⟨⟨next, ?_⟩, ih h⟩
      rw [Segment.left, hsegment]

theorem completes_of_align {texts : List String} {tally : Tally}
    (h : (align rules program texts).2 = .ok tally) :
    ∀ segment ∈ segments (readAll texts), segment.Completes rules program := by
  rcases hrun : run rules program .outside (readAll texts) with ⟨journal, e | last⟩
  · rw [align_of_run_error hrun] at h
    cases h
  · rw [← flatten_cut (readAll texts), run_append_ok (run_outside rules program _)] at hrun
    have hsegments : (run rules program .outside
        ((segments (readAll texts)).flatMap Segment.lines)).2 = .ok last := (Prod.mk.inj hrun).2
    exact completes_of_run_segments hsegments

/-- A pass whose segments run to their ends completes, with what they leave. -/
theorem align_of_completes {texts : List String}
    (h : ∀ segment ∈ segments (readAll texts), segment.Completes rules program) :
    (align rules program texts).1.reports
        = (segments (readAll texts)).flatMap (fun segment => (segment.left rules program).reports)
      ∧ (align rules program texts).2
          = .ok (Journal.join
              ((segments (readAll texts)).map (Segment.left rules program))).tally := by
  rw [align, alignLines_eq_join h]
  constructor
  · simp [List.flatMap_map]
  · rfl

/-! ## Sums by label -/

instance : Zero Tally := ⟨{}⟩

instance : AddCommMonoid Tally where
  add_assoc := Tally.add_assoc
  zero_add a := by
    change Tally.add {} a = a
    simp [Tally.add]
  add_zero a := by
    change Tally.add a {} = a
    simp [Tally.add]
  add_comm a b := by
    change Tally.add a b = Tally.add b a
    simp [Tally.add, Nat.add_comm]
  nsmul := nsmulRec

theorem Journal.tally_join (journals : List Journal) :
    (Journal.join journals).tally = (journals.map (·.tally)).sum := by
  induction journals with
  | nil => rfl
  | cons journal rest ih => rw [Journal.join_cons, Journal.tally_append, ih, List.map_cons,
      List.sum_cons]

theorem filter_reports_segments (rules : Rules) (program : Program) (label : String)
    (segments : List Segment) :
    (segments.flatMap fun segment => (segment.left rules program).reports).filter
        (·.label == label)
      = (segments.filter (·.label == label)).flatMap
          fun segment => (segment.left rules program).reports := by
  induction segments with
  | nil => rfl
  | cons segment rest ih =>
    have hreports := reports_run_segment rules program segment
    rw [List.flatMap_cons, List.filter_append, ih]
    cases hlabel : segment.label == label with
    | true =>
      have hall : (segment.left rules program).reports.filter (·.label == label)
          = (segment.left rules program).reports := by
        rw [List.filter_eq_self]
        intro report hreport
        rw [hreports report hreport, hlabel]
      rw [hall, List.filter_cons_of_pos (by simpa using hlabel), List.flatMap_cons]
    | false =>
      have hnone : (segment.left rules program).reports.filter (·.label == label) = [] := by
        rw [List.filter_eq_nil_iff]
        intro report hreport
        rw [hreports report hreport, hlabel]
        exact Bool.false_ne_true
      rw [hnone, List.filter_cons_of_neg (by simp [hlabel]), List.nil_append]

/-- A sum over segments is the sum over labels of the sums over their segments. -/
theorem sum_eq_sum_by_label (left : Segment → Tally) {segments : List Segment}
    {labels : Finset String} (h : ∀ segment ∈ segments, segment.label ∈ labels) :
    (segments.map left).sum
      = ∑ label ∈ labels, ((segments.filter (·.label == label)).map left).sum := by
  induction segments with
  | nil => simp
  | cons segment rest ih =>
    obtain ⟨hsegment, hrest⟩ := List.forall_mem_cons.1 h
    have hsplit : ∀ label, (((segment :: rest).filter (·.label == label)).map left).sum
        = (if segment.label = label then left segment else 0)
          + ((rest.filter (·.label == label)).map left).sum := by
      intro label
      by_cases hlabel : segment.label = label
      · rw [List.filter_cons_of_pos (by simpa using hlabel), if_pos hlabel, List.map_cons,
          List.sum_cons]
      · rw [List.filter_cons_of_neg (by simpa using hlabel), if_neg hlabel, zero_add]
    simp only [hsplit]
    rw [Finset.sum_add_distrib, Finset.sum_ite_eq, if_pos hsegment, List.map_cons, List.sum_cons,
      ih hrest]

/-! ## The pass of one label -/

/-- Where a pass completes, so does the pass of its own for a label. It reports what the whole pass
    reports under the label, and counts what the segments of the label leave. -/
theorem align_listingOf {texts : List String} {tally : Tally}
    (h : (align rules program texts).2 = .ok tally) (label : String) :
    (align rules (program.only label) (listingOf label texts)).1.reports
        = (align rules program texts).1.reports.filter (·.label == label)
      ∧ (align rules (program.only label) (listingOf label texts)).2
          = .ok (((segments (readAll texts)).filter (·.label == label)).map
              fun segment => (segment.left rules program).tally).sum := by
  have hcompletes := completes_of_align h
  have hrun : ∀ segment ∈ (segments (readAll texts)).filter (·.label == label),
      run rules (program.only label) .outside segment.lines
        = run rules program .outside segment.lines := by
    intro segment hsegment
    obtain rfl : segment.label = label := by simpa using (List.mem_filter.1 hsegment).2
    exact run_segment_congr rules (program.find?_only segment.label)
  have hleft : ∀ segment ∈ (segments (readAll texts)).filter (·.label == label),
      segment.left rules (program.only label) = segment.left rules program := by
    intro segment hsegment
    rw [Segment.left, hrun segment hsegment, Segment.left]
  have hown : ∀ segment ∈ segments (readAll (listingOf label texts)),
      segment.Completes rules (program.only label) := by
    rw [segments_listingOf]
    intro segment hsegment
    obtain ⟨last, hlast⟩ := hcompletes segment (List.mem_filter.1 hsegment).1
    exact ⟨last, by rw [hrun segment hsegment, hlast, hleft segment hsegment]⟩
  obtain ⟨hreports, htally⟩ := align_of_completes hown
  rw [segments_listingOf] at hreports htally
  constructor
  · rw [hreports, (align_of_completes hcompletes).1, filter_reports_segments]
    exact List.flatMap_congr fun segment hsegment => by rw [hleft segment hsegment]
  · rw [htally, Journal.tally_join, List.map_map]
    exact congrArg (fun tallies => Except.ok (List.sum tallies))
      (List.map_congr_left fun segment hsegment => by
        rw [Function.comp_apply, hleft segment hsegment])

/-- **Subroutines do not interfere.** Let a pass complete. Under every label it reports what the
    pass reports, and completes with, that is given only the texts under that label and only the
    subroutine of that label. Its tally is the sum of the tallies of those passes, over any labels
    that include those of all segments. Another program and another listing that have the same
    subroutine and the same texts under a label leave the reports under it as they are. -/
theorem align_separate {texts : List String} {tally : Tally}
    (h : (align rules program texts).2 = .ok tally) :
    ∃ own : String → Tally,
      (∀ label,
        (align rules program texts).1.reports.filter (·.label == label)
            = (align rules (program.only label) (listingOf label texts)).1.reports
          ∧ (align rules (program.only label) (listingOf label texts)).2 = .ok (own label))
      ∧ (∀ labels : Finset String,
          (∀ segment ∈ segments (readAll texts), segment.label ∈ labels) →
          tally = ∑ label ∈ labels, own label)
      ∧ ∀ (label : String) (other : Program) (others : List String) (counted : Tally),
          other.find? label = program.find? label →
          listingOf label others = listingOf label texts →
          (align rules other others).2 = .ok counted →
          (align rules other others).1.reports.filter (·.label == label)
            = (align rules program texts).1.reports.filter (·.label == label) := by
  refine ⟨fun label => (((segments (readAll texts)).filter (·.label == label)).map
    fun segment => (segment.left rules program).tally).sum, fun label => ?_, ?_, ?_⟩
  · obtain ⟨hreports, htally⟩ := align_listingOf h label
    exact ⟨hreports.symm, htally⟩
  · intro labels hlabels
    have hwhole := (align_of_completes (completes_of_align h)).2
    rw [h, Journal.tally_join, List.map_map] at hwhole
    rw [Except.ok.inj hwhole, ← sum_eq_sum_by_label _ hlabels]
    rfl
  · intro label other others counted same hothers hcounted
    rw [← (align_listingOf h label).1, ← (align_listingOf hcounted label).1,
      Program.only_congr same, hothers]

/-- Two subroutines. -/
def pairedProgram : Program :=
  ⟨[⟨"f", [{ opcode := .text "ADDI" }, { opcode := .opcode .lui }]⟩,
    ⟨"g", [{ opcode := .text "IMPLICIT_DEF" }, { opcode := .text "ADDI" }]⟩], by decide⟩

/-- A listing with a stray line at its start, an unknown label, a subroutine that comes twice, first
    cut short and then too long, and another one in between that is too long. -/
def interleavedListing : List String :=
  ["8: addi", "00000010 <f>:", "10: addi", "00000020 <g>:", "20: addi", "24: addi",
    "00000030 <h>:", "30: addi", "00000040 <f>:", "40: addi", "44: lui", "48: ret"]

theorem align_separate_interleaved :
    (align {} pairedProgram interleavedListing).2
        = .ok { symbols := 4, instructions := 4, warnings := 2 }
      ∧ (align {} pairedProgram interleavedListing).1.reports.filter (·.label == "g")
          = [.symbol "g" (.int 0x20), .instruction "g" 1 (.int 0x20)]
      ∧ ∃ own : String → Tally, own "f" = ⟨2, 3, 1⟩ ∧ own "g" = ⟨1, 1, 1⟩ ∧ own "h" = ⟨1, 0, 0⟩
          ∧ (⟨4, 4, 2⟩ : Tally) = ∑ label ∈ {"f", "g", "h"}, own label := by
  have h : (align {} pairedProgram interleavedListing).2 = .ok ⟨4, 4, 2⟩ := by decide +kernel
  obtain ⟨own, hown, hsum, -⟩ := align_separate h
  have hlabels : ∀ segment ∈ segments (readAll interleavedListing),
      segment.label ∈ ({"f", "g", "h"} : Finset String) := by decide +kernel
  refine ⟨h, (hown "g").1.trans (by decide +kernel), own, ?_, ?_, ?_, hsum _ hlabels⟩
  · exact Except.ok.inj ((hown "f").2.symm.trans (by decide +kernel))
  · exact Except.ok.inj ((hown "g").2.symm.trans (by decide +kernel))
  · exact Except.ok.inj ((hown "h").2.symm.trans (by decide +kernel))

end Alignment

end CoreTiming
