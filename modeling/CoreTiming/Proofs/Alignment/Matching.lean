import CoreTiming.Proofs.Alignment.Segment
import Mathlib.Data.List.Induction

/-!
# Alignment as a matching

Without patterns an alignment is one matching of instruction lines with instructions, whatever the
listing looks like. Within a segment, let `real` be the instructions that are no placeholders, in
order and with their indexes. A line with `r` matched lines before it is matched exactly when
`real` has an entry at `r` and the line is no directive or that entry is a constant (`fits`). The
matched lines are paired with `real` in order, the lines that come when all of `real` is matched
are surplus, and the others are skipped (`Segment.journal`).

Results:
* `Linked.step`, `run_entries`: the index of the pass stays linked to the number of matched lines,
  in that the instructions visible from the index are those of `real` behind that number;
* `align_eq_matching`: the pass over a listing leaves what the matchings of its segments leave.
-/

namespace CoreTiming.Alignment

open CoreTiming CoreTiming.Listing

/-! ## The matching -/

section Definitions

variable (rules : Rules) (real : List (Instruction × Nat))

/-- Whether a line is matched that has `r` matched lines before it. -/
def fits (r : Nat) (mnemonic : String) : Bool :=
  real[r]?.any fun next => !isDirective mnemonic || rules.isPooled next.1

/-- The matched lines among the lines of a segment. -/
def matched (entries : List Entry) : List Entry :=
  entries.foldl
    (fun before entry =>
      if fits rules real before.length entry.mnemonic then before ++ [entry] else before) []

/-- The lines of a segment, each with the number of matched lines before it. -/
def ranked (entries : List Entry) : List (Entry × Nat) :=
  entries.mapIdx fun k entry => (entry, (matched rules real (entries.take k)).length)

/-- The surplus lines worth a warning: those that come when all instructions are matched, and are
    no padding. -/
def warned (entries : List Entry) : List (Entry × Nat) :=
  (ranked rules real entries).filter fun entry =>
    decide (entry.2 = real.length) && !isPadding entry.1.mnemonic

/-- The records of a line with `r` matched lines before it, in a subroutine of `count`
    instructions. -/
def recordsAt (label : String) (count : Nat) (entry : Entry × Nat) : List Log.Record :=
  if entry.2 = real.length then
    if isPadding entry.1.mnemonic then [] else [surplusRecord label count entry.1.mnemonic]
  else if fits rules real entry.2 entry.1.mnemonic then []
  else [skippedRecord label entry.1.address entry.1.mnemonic]

/-- What the instruction lines of a segment leave. -/
def activation (label : String) (count : Nat) (entries : List Entry) : Journal where
  reports :=
    List.zipWith (fun next entry => .instruction label next.2 entry.address) real
      (matched rules real entries)
  tally :=
    { instructions := (matched rules real entries).length
      warnings := (warned rules real entries).length }
  records := (ranked rules real entries).flatMap (recordsAt rules real label count)

end Definitions

/-- What a segment leaves. -/
def Segment.journal (rules : Rules) (program : Program) (segment : Segment) : Journal :=
  match program.find? segment.label with
  | none =>
    { reports := [.symbol segment.label segment.address]
      tally := { symbols := 1 }
      records := [logged .debug ("Skipping code of unknown function " ++ segment.label)] }
  | some s =>
    { reports := [.symbol segment.label segment.address], tally := { symbols := 1 } }
      ++ activation rules (visible rules s.instructions 0) segment.label s.instructions.length
        segment.entries

/-! ## One more line -/

variable {rules : Rules} {program : Program} {real : List (Instruction × Nat)}
  {entries : List Entry} {entry : Entry}

theorem matched_concat (rules : Rules) (real : List (Instruction × Nat)) (entries : List Entry)
    (entry : Entry) :
    matched rules real (entries ++ [entry])
      = if fits rules real (matched rules real entries).length entry.mnemonic then
          matched rules real entries ++ [entry]
        else matched rules real entries := by
  rw [matched, List.foldl_append]
  rfl

theorem ranked_concat (rules : Rules) (real : List (Instruction × Nat)) (entries : List Entry)
    (entry : Entry) :
    ranked rules real (entries ++ [entry])
      = ranked rules real entries ++ [(entry, (matched rules real entries).length)] := by
  rw [ranked, List.mapIdx_concat, ranked, List.take_left' rfl]
  congr 1
  apply List.mapIdx_eq_mapIdx_iff.2
  intro k hk
  rw [List.take_append_of_le_length (by omega)]

theorem lt_length_of_fits {r : Nat} {mnemonic : String} (h : fits rules real r mnemonic = true) :
    r < real.length := by
  by_contra hle
  rw [fits, List.getElem?_eq_none (by omega)] at h
  cases h

theorem length_matched_le (rules : Rules) (real : List (Instruction × Nat))
    (entries : List Entry) : (matched rules real entries).length ≤ real.length := by
  induction entries using List.reverseRecOn with
  | nil => exact Nat.zero_le _
  | append_singleton entries entry ih =>
    rw [matched_concat]
    split
    · rename_i hfits
      have := lt_length_of_fits hfits
      rw [List.length_append, List.length_singleton]
      omega
    · exact ih

theorem zipWith_concat {α β γ : Type} (f : α → β → γ) (items : List α) (others : List β) (b : β)
    {a : α} (h : items[others.length]? = some a) :
    List.zipWith f items (others ++ [b]) = List.zipWith f items others ++ [f a b] := by
  induction others generalizing items with
  | nil =>
    cases items with
    | nil => cases h
    | cons item items =>
      obtain rfl : item = a := by simpa using h
      simp
  | cons other others ih =>
    cases items with
    | nil => cases h
    | cons item items => simpa using ih items h

section OneMore

variable {label : String} {count : Nat}

theorem activation_concat_paired {i : Instruction} {j : Nat}
    (hnext : real[(matched rules real entries).length]? = some (i, j))
    (hfits : fits rules real (matched rules real entries).length entry.mnemonic = true) :
    activation rules real label count (entries ++ [entry])
      = activation rules real label count entries ++ pairedJournal label j entry.address := by
  have hlt := lt_length_of_fits hfits
  have hmatched : matched rules real (entries ++ [entry])
      = matched rules real entries ++ [entry] := by
    rw [matched_concat, if_pos hfits]
  ext1
  · simp only [activation, pairedJournal, Journal.reports_append]
    rw [hmatched, zipWith_concat _ _ _ _ hnext]
  · simp only [activation, pairedJournal, Journal.tally_append, warned, ranked_concat, hmatched,
      List.filter_append, List.length_append]
    simp [Tally.add_def, Nat.ne_of_lt hlt]
  · simp only [activation, pairedJournal, Journal.records_append, ranked_concat,
      List.flatMap_append]
    simp [recordsAt, Nat.ne_of_lt hlt, hfits]

theorem activation_concat_skipped
    (hlt : (matched rules real entries).length < real.length)
    (hfits : fits rules real (matched rules real entries).length entry.mnemonic = false) :
    activation rules real label count (entries ++ [entry])
      = activation rules real label count entries
        ++ skippedJournal label entry.address entry.mnemonic := by
  have hmatched : matched rules real (entries ++ [entry]) = matched rules real entries := by
    rw [matched_concat, if_neg (by simp [hfits])]
  ext1
  · simp only [activation, skippedJournal, Journal.reports_append, hmatched, List.append_nil]
  · simp only [activation, skippedJournal, Journal.tally_append, warned, ranked_concat, hmatched,
      List.filter_append, List.length_append]
    simp [Tally.add_def, Nat.ne_of_lt hlt]
  · simp only [activation, skippedJournal, Journal.records_append, ranked_concat,
      List.flatMap_append]
    simp [recordsAt, Nat.ne_of_lt hlt, hfits]

theorem activation_concat_surplus
    (hall : (matched rules real entries).length = real.length) :
    activation rules real label count (entries ++ [entry])
      = activation rules real label count entries
        ++ surplusJournal label count entry.mnemonic := by
  have hmatched : matched rules real (entries ++ [entry]) = matched rules real entries := by
    rw [matched_concat, if_neg]
    intro hfits
    exact absurd (lt_length_of_fits hfits) (by omega)
  ext1
  · simp only [activation, surplusJournal, Journal.reports_append, hmatched]
    split <;> simp [Journal.empty]
  · simp only [activation, surplusJournal, Journal.tally_append, warned, ranked_concat, hmatched,
      List.filter_append, List.length_append]
    cases hpadding : isPadding entry.mnemonic <;>
      simp [Tally.add_def, hall, hpadding, Journal.empty]
  · simp only [activation, surplusJournal, Journal.records_append, ranked_concat,
      List.flatMap_append]
    cases hpadding : isPadding entry.mnemonic <;> simp [recordsAt, hall, hpadding, Journal.empty]

end OneMore

/-! ## The pass -/

/-- The index of a pass after some lines of a segment: the instructions that are visible from it are
    those behind the number of matched lines. -/
structure Linked (rules : Rules) (s : Subroutine) (entries : List Entry) (index : Nat) : Prop where
  inside : index ≤ s.instructions.length
  visible_eq : visible rules s.instructions index
    = (visible rules s.instructions 0).drop
        (matched rules (visible rules s.instructions 0) entries).length

section Linked

variable {s : Subroutine} {index : Nat}

theorem Linked.length_matched_eq (linked : Linked rules s entries index)
    (hnone : visible rules s.instructions index = []) :
    (matched rules (visible rules s.instructions 0) entries).length
      = (visible rules s.instructions 0).length := by
  have hle := length_matched_le rules (visible rules s.instructions 0) entries
  have hdrop := linked.visible_eq
  rw [hnone] at hdrop
  have := List.drop_eq_nil_iff.1 hdrop.symm
  omega

/-- The next instruction to match is the first visible one. -/
theorem Linked.getElem?_eq (linked : Linked rules s entries index) {i : Instruction} {j : Nat}
    {rest : List (Instruction × Nat)}
    (hnext : visible rules s.instructions index = (i, j) :: rest) :
    (visible rules s.instructions 0)[
        (matched rules (visible rules s.instructions 0) entries).length]? = some (i, j) := by
  rw [← List.head?_drop, ← linked.visible_eq, hnext, List.head?_cons]

/-- One more line moves the index so that it stays linked, and adds to the activation what its step
    leaves. -/
theorem Linked.step (h : program.IsHashable) (hchecks : rules.checks = .empty) {label : String}
    (known : program.find? label = some s) (linked : Linked rules s entries index)
    (entry : Entry) :
    ∃ next, Linked rules s (entries ++ [entry]) next
      ∧ ∃ journal,
          step rules program (.within label label index) entry.line
              = (journal, .ok (.within label label next))
          ∧ activation rules (visible rules s.instructions 0) label s.instructions.length
                (entries ++ [entry])
              = activation rules (visible rules s.instructions 0) label s.instructions.length
                  entries
                ++ journal := by
  rw [Entry.line]
  rcases hnext : visible rules s.instructions index with _ | ⟨⟨i, j⟩, rest⟩
  · -- all instructions are matched, and the index moves behind the last one
    have hall := linked.length_matched_eq hnext
    have hno : fits rules (visible rules s.instructions 0)
        (matched rules (visible rules s.instructions 0) entries).length entry.mnemonic ≠ true := by
      intro hfits
      have := lt_length_of_fits hfits
      omega
    refine ⟨s.instructions.length, ⟨Nat.le_refl _, ?_⟩, _,
      step_surplus h known linked.inside hnext _, activation_concat_surplus hall⟩
    rw [visible_of_length_le rules (Nat.le_refl _), matched_concat, if_neg hno, hall,
      List.drop_length]
  · -- the next instruction to match is the one behind the matched ones
    obtain ⟨-, -, -, hstay, hafter⟩ := visible_tail hnext
    have hr := linked.getElem?_eq hnext
    have hfits : fits rules (visible rules s.instructions 0)
          (matched rules (visible rules s.instructions 0) entries).length entry.mnemonic
        = !(isDirective entry.mnemonic && !rules.isPooled i) := by
      simp [fits, hr]
    cases hverdict : isDirective entry.mnemonic && !rules.isPooled i with
    | true =>
      rw [hverdict, Bool.not_true] at hfits
      have hlt := (List.getElem?_eq_some_iff.1 hr).1
      refine ⟨j, ⟨Nat.le_of_lt (lt_of_visible hnext), ?_⟩, _, ?_,
        activation_concat_skipped hlt hfits⟩
      · rw [matched_concat, if_neg (by simp [hfits]), hstay, ← linked.visible_eq, hnext]
      · exact step_skipped h known hnext hverdict entry.address
    | false =>
      rw [hverdict, Bool.not_false] at hfits
      have hdemand : rules.demand? i = none := by simp [Rules.demand?, hchecks]
      refine ⟨j + 1, ⟨lt_of_visible hnext, ?_⟩, _, ?_, activation_concat_paired hr hfits⟩
      · rw [matched_concat, if_pos hfits, List.length_append, List.length_singleton, hafter,
          ← List.tail_drop, ← linked.visible_eq, hnext, List.tail_cons]
      · rw [step_paired h known hnext hverdict, hdemand]
        rfl

/-- Running the lines of a segment leaves its activation. -/
theorem run_entries {label : String} (h : program.IsHashable) (hchecks : rules.checks = .empty)
    (known : program.find? label = some s) (entries : List Entry) :
    ∃ index, Linked rules s entries index
      ∧ run rules program (.within label label (0 : Nat)) (entries.map Entry.line)
          = (activation rules (visible rules s.instructions 0) label s.instructions.length entries,
              .ok (.within label label index)) := by
  induction entries using List.reverseRecOn with
  | nil =>
    refine ⟨0, ⟨Nat.zero_le _, rfl⟩, ?_⟩
    simp [activation, matched, warned, ranked]
    rfl
  | append_singleton entries entry ih =>
    obtain ⟨index, linked, hrun⟩ := ih
    obtain ⟨next, hlinked, journal, hstep, hactivation⟩ := linked.step h hchecks known entry
    refine ⟨next, hlinked, ?_⟩
    rw [List.map_append, List.map_singleton, run_append_ok hrun, run_singleton, hstep,
      hactivation]

end Linked

theorem run_segment_lines (h : program.IsHashable) (hchecks : rules.checks = .empty)
    (segment : Segment) :
    ∃ last, run rules program .outside segment.lines
      = (segment.journal rules program, .ok last) := by
  unfold Segment.lines Segment.journal
  cases known : program.find? segment.label with
  | none =>
    refine ⟨.outside, ?_⟩
    rw [run_cons_ok (step_unknown known rules _ _), run_outside, Journal.append_empty]
    rfl
  | some s =>
    obtain ⟨index, -, hrun⟩ := run_entries h hchecks known segment.entries
    refine ⟨.within segment.label segment.label index, ?_⟩
    rw [run_cons_ok (step_known known rules _ _)]
    simp only [Int.natCast_zero] at hrun
    rw [hrun]
    rfl

/-- **The matching.** Without patterns the pass over any listing leaves, one after the other, what
    the matchings of its segments leave, and completes. In no segment are more lines matched than
    there are instructions to match. -/
theorem align_eq_matching (h : program.IsHashable) (hchecks : rules.checks = .empty)
    (texts : List String) :
    align rules program texts
        = (Journal.join ((segments (readAll texts)).map (Segment.journal rules program))
              ++ { records := [summary (Journal.join
                    ((segments (readAll texts)).map (Segment.journal rules program))).tally] },
            .ok (Journal.join
              ((segments (readAll texts)).map (Segment.journal rules program))).tally)
      ∧ ∀ segment ∈ segments (readAll texts), ∀ s, program.find? segment.label = some s →
          (matched rules (visible rules s.instructions 0) segment.entries).length
            ≤ (visible rules s.instructions 0).length :=
  ⟨alignLines_eq_join fun segment _ => run_segment_lines h hchecks segment,
    fun segment _ _ _ => length_matched_le rules _ segment.entries⟩

/-- Rules without patterns. -/
def patternless : Rules := { checks := .empty }

/-- A subroutine with placeholders at its start, in a row and at its end. -/
def gappedProgram : Program :=
  ⟨[⟨"f", [{ opcode := .int 8 }, { opcode := .opcode .addi }, { opcode := .text "IMPLICIT_DEF" },
      { opcode := .float (.finite false 8 0) }, { opcode := .text "CONSTPOOL_ENTRY" },
      { opcode := .text "IMPLICIT_DEF" }]⟩], by decide⟩

/-- A listing with data in front of an instruction and of a constant, with padding and a surplus
    line behind the last instruction, an unknown label, and a label that comes twice. -/
def gappedListing : List String :=
  ["10: nop", "00000010 <f>:", "", " 10:\t.word 1", "14: addi a0", "18: .word 2", "1c: nop",
    "20: ret", "00000024 <g>:", "24: addi", "00000028 <f>:", "28: nop"]

theorem align_eq_matching_gapped :
    gappedProgram.IsHashable ∧ patternless.checks = .empty
      ∧ (align patternless gappedProgram gappedListing).1.reports
          = [.symbol "f" (.int 0x10), .instruction "f" 1 (.int 0x14),
            .instruction "f" 4 (.int 0x18), .symbol "g" (.int 0x24), .symbol "f" (.int 0x28),
            .instruction "f" 1 (.int 0x28)]
      ∧ (align patternless gappedProgram gappedListing).2
          = .ok { symbols := 3, instructions := 3, warnings := 1 } := by
  have h : gappedProgram.IsHashable := by decide
  have hchecks : patternless.checks = .empty := rfl
  obtain ⟨hall, -⟩ := align_eq_matching h hchecks gappedListing
  rw [hall]
  exact ⟨h, rfl, by decide +kernel, by decide +kernel⟩

end CoreTiming.Alignment
