import CoreTiming.Proofs.Alignment.Segment
import CoreTiming.Proofs.Listing.Written
import Mathlib.Data.List.Forall2

/-!
# Laid-out listings

A layout gives every instruction of a subroutine its place in a listing. The block of a known
subroutine has a label line, a `Slot` for each instruction that is no placeholder, and padding; a
slot is the line of its instruction with the data lines in front of it. The block of an unknown
label holds anything but label lines. Blocks come in any order.

Which instructions a slot can show is `Slot.Shows`: data stands in front of instructions that are
no constants, only constants are shown as directives, and a mnemonic contains the pattern of its
instruction.

Results:
* `run_slots`: every slot is paired with its instruction, and none is left over;
* `align_eq_join_blocks`: a pass over a layout reports, counts and logs what its blocks say
  (`Block.journal`), whatever other lines stand in between.
-/

namespace CoreTiming.Alignment

open CoreTiming CoreTiming.Listing

/-! ## Layouts -/

/-- The line of an instruction, with the data lines in front of it. -/
structure Slot where
  data : List InstructionText := []
  line : InstructionText
  deriving DecidableEq

/-- The lines of a slot, in order. -/
def Slot.texts (slot : Slot) : List InstructionText := slot.data ++ [slot.line]

/-- A slot can show an instruction. -/
structure Slot.Shows (rules : Rules) (i : Instruction) (slot : Slot) : Prop where
  data_directive : ∀ text ∈ slot.data, isDirective text.mnemonic = true
  data_apart : slot.data ≠ [] → rules.isPooled i = false
  line_pooled : isDirective slot.line.mnemonic = true → rules.isPooled i = true
  line_demanded : ∀ pattern, rules.demand? i = some pattern →
    pattern.found slot.line.mnemonic = true

/-- A label line and the lines under it. -/
inductive Block where
  /-- A subroutine of the program: its slots, and padding behind them. -/
  | known (head : LabelText) (slots : List Slot) (padding : List InstructionText)
  /-- Anything else: lines of any kind but label lines. -/
  | unknown (head : LabelText) (texts : List String)

namespace Block

/-- The label line of a block. -/
def head : Block → LabelText
  | known head _ _ => head
  | unknown head _ => head

/-- The slots of a block. -/
def slots : Block → List Slot
  | known _ slots _ => slots
  | unknown _ _ => []

/-- The label of a known subroutine. -/
def knownLabel? : Block → Option String
  | known head _ _ => some head.label
  | unknown _ _ => none

/-- The texts of a block. -/
def texts : Block → List String
  | known head slots padding =>
    head.render :: (slots.flatMap Slot.texts ++ padding).map InstructionText.render
  | unknown head texts => head.render :: texts

/-- A block shows the subroutine of its label, one slot for each instruction that is no
    placeholder, or its label is unknown. -/
inductive Fits (rules : Rules) (program : Program) : Block → Prop
  | known {head : LabelText} {slots : List Slot} {padding : List InstructionText} {s : Subroutine}
      (found : program.find? head.label = some s)
      (shows : List.Forall₂ (Slot.Shows rules)
        (s.instructions.filter fun i => !rules.isHidden i) slots)
      (padded : ∀ text ∈ padding, isPadding text.mnemonic = true) :
      Fits rules program (.known head slots padding)
  | unknown {head : LabelText} {texts : List String} (missing : program.find? head.label = none)
      (unlabelled : ∀ line ∈ readAll texts, line.isLabel = false) :
      Fits rules program (.unknown head texts)

end Block

/-- A layout of a program: blocks that fit it, at most one for each of its subroutines. -/
structure Layout (rules : Rules) (program : Program) where
  blocks : List Block
  fits : ∀ block ∈ blocks, block.Fits rules program
  nodup_known : (blocks.filterMap Block.knownLabel?).Nodup

/-- Texts show a layout: but for lines that carry no address they are its texts. -/
def Layout.IsShownBy {rules : Rules} {program : Program} (layout : Layout rules program)
    (texts : List String) : Prop :=
  texts.filter (fun text => (read? text).isSome)
    = (layout.blocks.flatMap Block.texts).filter fun text => (read? text).isSome

/-! ## What a layout leaves -/

/-- The reports of the lines of slots, each for the index of its instruction. -/
def pairings (label : String) (real : List (Instruction × Nat)) (slots : List Slot) :
    List Report :=
  (real.zip slots).map fun pair => .instruction label pair.1.2 (.int pair.2.line.address)

/-- The reports of a block. -/
def Block.reports (rules : Rules) (program : Program) : Block → List Report
  | .known head slots _ =>
    .symbol head.label (.int head.address)
      :: pairings head.label (visible rules (program.instructionsOf head.label) 0) slots
  | .unknown head _ => [.symbol head.label (.int head.address)]

/-- The records of the data lines of a slot. -/
def Slot.records (label : String) (slot : Slot) : List Log.Record :=
  slot.data.map fun text => skippedRecord label (.int text.address) text.mnemonic

/-- What a block leaves. -/
def Block.journal (rules : Rules) (program : Program) (block : Block) : Journal where
  reports := block.reports rules program
  tally := { symbols := 1, instructions := block.slots.length }
  records :=
    match block with
    | .known head slots _ => slots.flatMap (Slot.records head.label)
    | .unknown head _ => [logged .debug ("Skipping code of unknown function " ++ head.label)]

/-- The tally of blocks: their label lines and their slots. -/
def tallyOf (blocks : List Block) : Tally :=
  { symbols := blocks.length, instructions := (blocks.flatMap Block.slots).length }

/-! ## Reading the texts -/

/-- The line of a text, as an instruction line of a segment. -/
def textEntry (text : InstructionText) : Entry := ⟨.int text.address, text.mnemonic⟩

/-- The segment that a block is read as. -/
def Block.segment : Block → Segment
  | .known head slots padding =>
    ⟨.int head.address, head.label, (slots.flatMap Slot.texts ++ padding).map textEntry⟩
  | .unknown head texts => ⟨.int head.address, head.label, (cut (readAll texts)).1⟩

theorem readAll_render (texts : List InstructionText) :
    readAll (texts.map InstructionText.render) = (texts.map textEntry).map Entry.line := by
  induction texts with
  | nil => rfl
  | cons text rest ih =>
    rw [List.map_cons, readAll, List.filterMap_cons_some text.read?_render, ← readAll, ih]
    rfl

theorem segments_eq_nil {lines : List Line} (h : ∀ line ∈ lines, line.isLabel = false) :
    segments lines = [] := by
  unfold segments
  induction lines with
  | nil => rfl
  | cons line rest ih =>
    obtain ⟨hline, hrest⟩ := List.forall_mem_cons.1 h
    cases line with
    | label address label => cases hline
    | instruction address mnemonic => exact ih hrest

variable {rules : Rules} {program : Program}

theorem Block.Fits.readAll_texts {block : Block} (h : block.Fits rules program) :
    readAll block.texts = block.segment.lines := by
  cases h with
  | @known head slots padding s found shows padded =>
    show readAll (head.render :: _) = _
    rw [readAll, List.filterMap_cons_some head.read?_render, ← readAll, readAll_render]
    rfl
  | @unknown head texts missing unlabelled =>
    have hcut := flatten_cut (readAll texts)
    rw [segments_eq_nil unlabelled, List.flatMap_nil, List.append_nil] at hcut
    show readAll (head.render :: _) = _
    rw [readAll, List.filterMap_cons_some head.read?_render, ← readAll, Segment.lines, segment,
      hcut]
    rfl

theorem readAll_filter (texts : List String) :
    readAll (texts.filter fun text => (read? text).isSome) = readAll texts := by
  rw [readAll, List.filterMap_filter, readAll]
  congr 1
  funext text
  cases read? text <;> rfl

theorem Layout.IsShownBy.readAll_eq {layout : Layout rules program} {texts : List String}
    (h : layout.IsShownBy texts) :
    readAll texts = (layout.blocks.map Block.segment).flatMap Segment.lines := by
  rw [← readAll_filter, h, readAll_filter, readAll, List.filterMap_flatMap, List.flatMap_map]
  apply List.flatMap_congr
  intro block hblock
  exact (layout.fits block hblock).readAll_texts

/-! ## Running the lines of a block -/

section Known

variable {label : String} {s : Subroutine} {index : Nat}

/-- Data in front of an instruction that is no constant is skipped, and the instruction stays the
    one that is expected. -/
theorem run_data (h : program.IsHashable) (known : program.find? label = some s) {i : Instruction}
    {j : Nat} {rest : List (Instruction × Nat)}
    (hvisible : visible rules s.instructions index = (i, j) :: rest) {data : List InstructionText}
    (hdata : ∀ text ∈ data, isDirective text.mnemonic = true)
    (hapart : data ≠ [] → rules.isPooled i = false) :
    ∃ next, visible rules s.instructions next = (i, j) :: rest
      ∧ run rules program (.within label label index) (data.map InstructionText.line)
          = ({ records := data.map fun text =>
                skippedRecord label (.int text.address) text.mnemonic },
              .ok (.within label label next)) := by
  induction data generalizing index with
  | nil => exact ⟨index, hvisible, rfl⟩
  | cons text data ih =>
    obtain ⟨htext, hdata⟩ := List.forall_mem_cons.1 hdata
    have hpooled := hapart (by simp)
    have hskip : (isDirective text.mnemonic && !rules.isPooled i) = true := by
      simp [htext, hpooled]
    obtain ⟨-, -, -, hat, -⟩ := visible_tail hvisible
    obtain ⟨next, hnext, hrun⟩ := ih hat hdata fun _ => hpooled
    refine ⟨next, hnext, ?_⟩
    rw [List.map_cons, InstructionText.line,
      run_cons_ok (step_skipped h known hvisible hskip (.int text.address)), hrun]
    rfl

/-- The slots of the visible instructions are paired with them one by one, and no visible
    instruction is left. -/
theorem run_slots (h : program.IsHashable) (known : program.find? label = some s)
    (inside : index ≤ s.instructions.length) {real : List (Instruction × Nat)} {slots : List Slot}
    (hshows : List.Forall₂ (fun next slot => Slot.Shows rules next.1 slot) real slots)
    (hvisible : visible rules s.instructions index = real) :
    ∃ next ≤ s.instructions.length, visible rules s.instructions next = []
      ∧ run rules program (.within label label index)
            ((slots.flatMap Slot.texts).map InstructionText.line)
          = ({ reports := pairings label real slots
               tally := { instructions := slots.length }
               records := slots.flatMap (Slot.records label) },
              .ok (.within label label next)) := by
  induction hshows generalizing index with
  | nil => exact ⟨index, inside, hvisible, rfl⟩
  | @cons next slot real slots hslot _ ih =>
    obtain ⟨i, j⟩ := next
    obtain ⟨before, hbefore, hdata⟩ :=
      run_data h known hvisible hslot.data_directive hslot.data_apart
    obtain ⟨-, -, -, -, hafter⟩ := visible_tail hvisible
    obtain ⟨last, hlast, hnone, hrest⟩ := ih (lt_of_visible hvisible) hafter
    -- the line of the slot is paired, as it is no directive in front of the instruction
    have hpair : (isDirective slot.line.mnemonic && !rules.isPooled i) = false := by
      cases hdirective : isDirective slot.line.mnemonic with
      | false => rfl
      | true => simp [hslot.line_pooled hdirective]
    have hdemand : ((rules.demand? i).filter fun pattern => !pattern.found slot.line.mnemonic)
        = none := by
      rw [Option.filter_eq_none_iff]
      intro pattern hpattern
      simp [hslot.line_demanded pattern hpattern]
    have hstep := step_paired h known hbefore hpair (.int slot.line.address)
    rw [hdemand] at hstep
    refine ⟨last, hlast, hnone, ?_⟩
    rw [List.flatMap_cons, Slot.texts, List.append_assoc, List.map_append, run_append_ok hdata,
      List.singleton_append, List.map_cons, InstructionText.line, run_cons_ok hstep, hrest]
    refine Prod.ext ?_ rfl
    ext1
    · simp [pairedJournal, pairings]
    · simp [pairedJournal, Tally.add_def, Nat.add_comm]
    · simp [pairedJournal, Slot.records]

theorem run_padding (h : program.IsHashable) (known : program.find? label = some s)
    (inside : index ≤ s.instructions.length)
    (hnone : visible rules s.instructions index = []) {padding : List InstructionText}
    (hpadding : ∀ text ∈ padding, isPadding text.mnemonic = true) :
    ∃ next, run rules program (.within label label index)
        (padding.map InstructionText.line) = (.empty, .ok (.within label label next)) := by
  induction padding generalizing index with
  | nil => exact ⟨index, rfl⟩
  | cons text padding ih =>
    obtain ⟨htext, hpadding⟩ := List.forall_mem_cons.1 hpadding
    have hstep := @step_surplus rules program label text.mnemonic s index h known inside hnone
      (.int text.address)
    rw [surplusJournal, if_pos htext] at hstep
    obtain ⟨next, hrun⟩ := ih (Nat.le_refl _) (visible_of_length_le rules (Nat.le_refl _)) hpadding
    refine ⟨next, ?_⟩
    rw [List.map_cons, InstructionText.line, run_cons_ok hstep, hrun]
    rfl

/-- The lines under the label of a known subroutine leave what its slots say. -/
theorem run_known (h : program.IsHashable) (known : program.find? label = some s)
    {slots : List Slot} {padding : List InstructionText}
    (shows : List.Forall₂ (Slot.Shows rules) (s.instructions.filter fun i => !rules.isHidden i)
      slots)
    (padded : ∀ text ∈ padding, isPadding text.mnemonic = true) :
    ∃ last, run rules program (.within label label 0)
        ((slots.flatMap Slot.texts ++ padding).map InstructionText.line)
      = ({ reports := pairings label (visible rules s.instructions 0) slots
           tally := { instructions := slots.length }
           records := slots.flatMap (Slot.records label) },
          .ok (.within label label last)) := by
  have hshows : List.Forall₂ (fun next slot => Slot.Shows rules next.1 slot)
      (visible rules s.instructions 0) slots := by
    rw [← List.forall₂_map_left_iff, map_fst_visible, List.drop_zero]
    exact shows
  obtain ⟨next, hnext, hnone, hslots⟩ := run_slots h known (Nat.zero_le _) hshows rfl
  obtain ⟨last, hpadding⟩ := run_padding h known hnext hnone padded
  refine ⟨last, ?_⟩
  rw [← Int.natCast_zero, List.map_append, run_append_ok hslots, hpadding, Journal.append_empty]

end Known

/-- Running a block leaves its journal. -/
theorem run_block (h : program.IsHashable) {block : Block} (hfits : block.Fits rules program) :
    ∃ last, run rules program .outside block.segment.lines
      = (block.journal rules program, .ok last) := by
  cases hfits with
  | @known head slots padding s found shows padded =>
    obtain ⟨last, hrun⟩ := run_known h found shows padded
    refine ⟨.within head.label head.label last, ?_⟩
    have hlines : ((slots.flatMap Slot.texts ++ padding).map textEntry).map Entry.line
        = (slots.flatMap Slot.texts ++ padding).map InstructionText.line := by
      rw [List.map_map]
      rfl
    show run rules program .outside (.label (.int head.address) head.label
      :: ((slots.flatMap Slot.texts ++ padding).map textEntry).map Entry.line) = _
    rw [run_cons_ok (step_known found rules _ _), hlines, hrun, Block.journal, Block.reports,
      Program.instructionsOf_of_find? found]
    refine Prod.ext ?_ rfl
    ext1
    · rfl
    · simp [labelJournal, Block.slots, Tally.add_def]
    · rfl
  | @unknown head texts missing unlabelled =>
    refine ⟨.outside, ?_⟩
    show run rules program .outside (.label (.int head.address) head.label :: _) = _
    rw [run_cons_ok (step_unknown missing rules _ _), run_outside, Journal.append_empty]
    rfl

/-! ## The pass -/

/-- All that the journals of fitting blocks log is for debugging. -/
theorem level_of_mem_records {block : Block} {record : Log.Record}
    (h : record ∈ (block.journal rules program).records) : record.level = .debug := by
  cases block with
  | known head slots padding =>
    obtain ⟨slot, -, hrecord⟩ := List.mem_flatMap.1 h
    obtain ⟨text, -, rfl⟩ := List.mem_map.1 hrecord
    rfl
  | unknown head texts =>
    rw [List.mem_singleton.1 h]
    rfl

/-- Every block counts for its label line and its slots, and no line is surplus. -/
theorem tally_join_journal (blocks : List Block) :
    (Journal.join (blocks.map (Block.journal rules program))).tally = tallyOf blocks := by
  induction blocks with
  | nil => rfl
  | cons block rest ih =>
    rw [List.map_cons, Journal.join_cons, Journal.tally_append, ih, tallyOf, tallyOf,
      List.flatMap_cons, List.length_append, List.length_cons, Nat.add_comm rest.length]
    rfl

/-- A pass over a layout leaves what its blocks leave, and completes. -/
theorem align_eq_join_blocks (h : program.IsHashable) {layout : Layout rules program}
    {texts : List String} (hshown : layout.IsShownBy texts) :
    align rules program texts
      = (Journal.join (layout.blocks.map (Block.journal rules program))
            ++ { records := [summary (tallyOf layout.blocks)] },
          .ok (tallyOf layout.blocks)) := by
  have hrun : ∀ segment ∈ layout.blocks.map Block.segment, ∃ last,
      run rules program .outside segment.lines
        = ((run rules program .outside segment.lines).1, .ok last) := by
    intro segment hsegment
    obtain ⟨block, hblock, rfl⟩ := List.mem_map.1 hsegment
    obtain ⟨last, hlast⟩ := run_block h (layout.fits block hblock)
    exact ⟨last, by rw [hlast]⟩
  obtain ⟨last, hlast⟩ := run_segments .outside hrun
  have hjournals : (layout.blocks.map Block.segment).map
        (fun segment => (run rules program .outside segment.lines).1)
      = layout.blocks.map (Block.journal rules program) := by
    rw [List.map_map]
    apply List.map_congr_left
    intro block hblock
    obtain ⟨last, hlast⟩ := run_block h (layout.fits block hblock)
    rw [Function.comp_apply, hlast]
  rw [hjournals, ← hshown.readAll_eq] at hlast
  rw [align_of_run_ok hlast, tally_join_journal]

end CoreTiming.Alignment
