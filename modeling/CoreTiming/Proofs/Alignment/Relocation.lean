import CoreTiming.Proofs.Alignment.Layout
import CoreTiming.Proofs.Alignment.Recovery

/-!
# Layouts recovered

Aligning a listing that shows a layout and writing the reports back recovers the layout: each
instruction that is no placeholder gets the address of its slot, and nothing else changes.

`relocate` says this without indexes, by handing the slots out in order, while the write-back goes
by the reported indexes. The two agree (`map_zipIdx_eq_relocate`) because no index is reported
twice (`nodup_reportedKeys_blocks`) and the index of a placeholder never is.

Result:
* `align_layout`: the pass completes without a warning, its reports and its tally are those of the
  blocks, and the write-back relocates every subroutine.
-/

namespace CoreTiming.Alignment

open CoreTiming CoreTiming.Listing

/-! ## Handing out slots -/

/-- The instructions with the addresses of slots: those that are no placeholders take one slot each,
    in order, as long as there are slots. -/
def relocate (rules : Rules) : List Instruction → List Slot → List Instruction
  | [], _ => []
  | instructions, [] => instructions
  | i :: rest, slot :: slots =>
    if rules.isHidden i then i :: relocate rules rest (slot :: slots)
    else { i with address := .int slot.line.address } :: relocate rules rest slots

@[simp] theorem relocate_nil (rules : Rules) (instructions : List Instruction) :
    relocate rules instructions [] = instructions := by
  cases instructions <;> rfl

/-- The slots of the subroutine with a label. -/
def slotsOf (blocks : List Block) (label : String) : List Slot :=
  (blocks.find? fun block => block.knownLabel? = some label).elim [] Block.slots

/-- A subroutine whose instructions have the addresses of the slots of its block. -/
def relocated (rules : Rules) (blocks : List Block) (s : Subroutine) : Subroutine :=
  { s with instructions := relocate rules s.instructions (slotsOf blocks s.label) }

variable {rules : Rules} {program : Program}

/-- Going by indexes is handing out in order, if an address is found under the index of each
    instruction that takes a slot and under no index of a placeholder. -/
theorem map_zipIdx_eq_relocate {instructions : List Instruction} {slots : List Slot}
    {found? : Nat → Option Datum} (start : Nat)
    (hhidden : ∀ next ∈ instructions.zipIdx start, rules.isHidden next.1 = true →
      found? next.2 = none)
    (hshown : ∀ pair ∈ ((instructions.zipIdx start).filter
        fun next => !rules.isHidden next.1).zip slots,
      found? pair.1.2 = some (.int pair.2.line.address))
    (hlength : ((instructions.zipIdx start).filter
      fun next => !rules.isHidden next.1).length = slots.length) :
    (instructions.zipIdx start).map (fun next =>
        match found? next.2 with
        | some address => { next.1 with address }
        | none => next.1)
      = relocate rules instructions slots := by
  induction instructions generalizing start slots with
  | nil => rfl
  | cons i rest ih =>
    rw [List.zipIdx_cons] at hhidden hshown hlength ⊢
    obtain ⟨hi, hhidden⟩ := List.forall_mem_cons.1 hhidden
    rw [List.filter_cons] at hshown hlength
    rw [List.map_cons]
    cases hplace : rules.isHidden i with
    | true =>
      rw [hplace, Bool.not_true, if_neg Bool.false_ne_true] at hshown hlength
      rw [hi hplace, ih (start + 1) hhidden hshown hlength]
      cases slots with
      | nil => simp
      | cons slot slots => rw [relocate, if_pos hplace]
    | false =>
      rw [hplace, Bool.not_false, if_pos rfl] at hshown hlength
      cases slots with
      | nil => cases hlength
      | cons slot slots =>
        rw [List.zip_cons_cons] at hshown
        obtain ⟨hslot, hshown⟩ := List.forall_mem_cons.1 hshown
        rw [hslot, ih (start + 1) hhidden hshown (Nat.succ.inj hlength), relocate,
          if_neg (by simp [hplace])]

/-! ## The keys of a layout -/

theorem reportedKeys_pairings {real : List (Instruction × Nat)} {slots : List Slot} (label : String)
    (hlength : real.length = slots.length) :
    reportedKeys (pairings label real slots) = real.map fun next => (label, (next.2 : Int)) := by
  have hfst : real = (real.zip slots).map Prod.fst :=
    (List.map_fst_zip (Nat.le_of_eq hlength)).symm
  rw [reportedKeys, pairings, List.filterMap_map]
  conv_rhs => rw [hfst, List.map_map]
  exact congrFun List.filterMap_eq_map _

theorem nodup_map_visible (rules : Rules) (instructions : List Instruction) (index : Nat)
    (label : String) :
    ((visible rules instructions index).map fun next => (label, (next.2 : Int))).Nodup := by
  have hindexes : ((visible rules instructions index).map Prod.snd).Nodup := by
    have hall : (((instructions.drop index).zipIdx index).map Prod.snd).Nodup := by
      rw [List.zipIdx_map_snd]
      exact List.nodup_range'
    exact (List.filter_sublist.map Prod.snd).nodup hall
  have hinj : Function.Injective fun j : Nat => (label, (j : Int)) := by
    intro j k hjk
    exact Int.ofNat_inj.1 (congrArg Prod.snd hjk)
  have hkeys := hindexes.map hinj
  rwa [List.map_map] at hkeys

theorem length_visible_of_forall₂ {s : Subroutine} {slots : List Slot}
    (h : List.Forall₂ (Slot.Shows rules) (s.instructions.filter fun i => !rules.isHidden i)
      slots) : (visible rules s.instructions 0).length = slots.length := by
  rw [← h.length_eq, ← List.length_map Prod.fst, map_fst_visible, List.drop_zero]

theorem Block.Fits.reportedKeys_eq {block : Block} (h : block.Fits rules program) :
    (reportedKeys (block.reports rules program)).Nodup
      ∧ (reportedKeys (block.reports rules program)).length = block.slots.length
      ∧ ∀ key ∈ reportedKeys (block.reports rules program), block.knownLabel? = some key.1 := by
  cases h with
  | @known head slots padding s found shows padded =>
    have hlength := length_visible_of_forall₂ shows
    have hkeys : reportedKeys (Block.reports rules program (.known head slots padding))
        = (visible rules s.instructions 0).map fun next => (head.label, (next.2 : Int)) := by
      rw [← reportedKeys_pairings head.label hlength, ← Program.instructionsOf_of_find? found]
      rfl
    rw [hkeys]
    refine ⟨nodup_map_visible rules s.instructions 0 head.label, ?_, ?_⟩
    · rw [List.length_map]
      exact hlength
    · intro key hkey
      obtain ⟨next, -, rfl⟩ := List.mem_map.1 hkey
      rfl
  | unknown => exact ⟨List.nodup_nil, rfl, by simp [Block.reports, reportedKeys, Report.key?]⟩

theorem reportedKeys_blocks (blocks : List Block) :
    reportedKeys (blocks.flatMap (Block.reports rules program))
      = blocks.flatMap fun block => reportedKeys (block.reports rules program) := by
  rw [reportedKeys, List.filterMap_flatMap]
  rfl

/-- A layout reports no index of a subroutine twice, as no subroutine has two blocks. -/
theorem nodup_reportedKeys_blocks (layout : Layout rules program) :
    (reportedKeys (layout.blocks.flatMap (Block.reports rules program))).Nodup := by
  rw [reportedKeys_blocks, List.nodup_flatMap]
  refine ⟨fun block hblock => (layout.fits block hblock).reportedKeys_eq.1, ?_⟩
  have hlabels := List.pairwise_filterMap.1 layout.nodup_known
  refine hlabels.imp_of_mem fun {a b} ha hb hne => ?_
  intro key hkeyA hkeyB
  exact hne key.1 ((layout.fits a ha).reportedKeys_eq.2.2 key hkeyA) key.1
    ((layout.fits b hb).reportedKeys_eq.2.2 key hkeyB) rfl

theorem length_reportedKeys_blocks (layout : Layout rules program) :
    (reportedKeys (layout.blocks.flatMap (Block.reports rules program))).length
      = (layout.blocks.flatMap Block.slots).length := by
  rw [reportedKeys_blocks, List.length_flatMap, List.length_flatMap]
  congr 1
  apply List.map_congr_left
  intro block hblock
  exact (layout.fits block hblock).reportedKeys_eq.2.1

/-- The block of a known subroutine has a slot for each visible instruction and reports the address
    of the one for the index of the other. -/
theorem Block.Fits.reports_of_known {block : Block} (h : block.Fits rules program)
    {s : Subroutine} (hs : s ∈ program.subroutines) (hlabel : block.knownLabel? = some s.label) :
    (visible rules s.instructions 0).length = block.slots.length
      ∧ ∀ pair ∈ (visible rules s.instructions 0).zip block.slots,
          .instruction s.label pair.1.2 (.int pair.2.line.address)
            ∈ block.reports rules program := by
  cases h with
  | @known head slots padding t found shows padded =>
    have hhead : head.label = s.label := Option.some.inj hlabel
    obtain rfl : s = t := by
      rw [hhead, Program.find?_label hs] at found
      exact Option.some.inj found
    refine ⟨length_visible_of_forall₂ shows, fun pair hpair => ?_⟩
    rw [Block.reports, hhead, Program.instructionsOf_of_find? (Program.find?_label hs)]
    exact List.mem_cons_of_mem _ (List.mem_map_of_mem hpair)
  | unknown => cases hlabel

/-! ## Writing a layout back -/

section WriteBack

variable {layout : Layout rules program} {texts : List String}

theorem lastReported_of_no_block
    (hreports : (align rules program texts).1.reports
      = layout.blocks.flatMap (Block.reports rules program))
    {label : String} (hnone : ∀ block ∈ layout.blocks, block.knownLabel? ≠ some label) (j : Nat) :
    lastReported (align rules program texts).1.reports (label, (j : Int)) = none := by
  rw [lastReported_eq_none_iff, hreports, reportedKeys_blocks, List.mem_flatMap]
  rintro ⟨block, hblock, hkey⟩
  exact hnone block hblock ((layout.fits block hblock).reportedKeys_eq.2.2 _ hkey)

/-- Giving a subroutine the reported addresses is relocating it. -/
theorem readdress_eq_relocated (h : program.IsHashable)
    (hreports : (align rules program texts).1.reports
      = layout.blocks.flatMap (Block.reports rules program))
    {s : Subroutine} (hs : s ∈ program.subroutines) :
    s.readdress (lastReported (align rules program texts).1.reports)
      = relocated rules layout.blocks s := by
  unfold relocated slotsOf
  cases hfind : layout.blocks.find? fun block => block.knownLabel? = some s.label with
  | none =>
    have hmissing : ∀ block ∈ layout.blocks, block.knownLabel? ≠ some s.label := by
      intro block hblock
      simpa using List.find?_eq_none.1 hfind block hblock
    have hnone := lastReported_of_no_block hreports hmissing
    have hsame := Subroutine.readdress_none s
    simp only [Subroutine.readdress] at hsame ⊢
    simp only [hnone, Option.elim_none, relocate_nil]
    exact hsame
  | some block =>
    have hblock := List.mem_of_find?_eq_some hfind
    have hlabel : block.knownLabel? = some s.label := by simpa using List.find?_some hfind
    obtain ⟨hlength, hpairs⟩ := (layout.fits block hblock).reports_of_known hs hlabel
    have hhidden : ∀ next ∈ s.instructions.zipIdx, rules.isHidden next.1 = true →
        lastReported (align rules program texts).1.reports (s.label, (next.2 : Int)) = none := by
      intro next hnext hidden
      have stands : s.instructions[next.2]? = some next.1 := List.mem_zipIdx_iff_getElem?.1 hnext
      refine lastReported_eq_none hs stands ?_
      rw [Rules.isPlaceholder_of_isHashable rules (h s hs next.1 (List.mem_of_getElem? stands)),
        hidden]
      intro hfalse
      cases hfalse
    have hshown : ∀ pair ∈ (visible rules s.instructions 0).zip block.slots,
        lastReported (align rules program texts).1.reports (s.label, (pair.1.2 : Int))
          = some (.int pair.2.line.address) := by
      intro pair hpair
      rw [hreports]
      exact lastReported_of_mem (nodup_reportedKeys_blocks layout)
        (List.mem_flatMap.2 ⟨block, hblock, hpairs pair hpair⟩)
    simp only [Subroutine.readdress, Option.elim_some, List.mapIdx_eq_zipIdx_map,
      Subroutine.mk.injEq, true_and]
    exact @map_zipIdx_eq_relocate rules s.instructions block.slots
      (fun j => lastReported (align rules program texts).1.reports (s.label, (j : Int))) 0
      hhidden hshown hlength

end WriteBack

theorem filterMap_symbolFor?_blocks (blocks : List Block) (label : String) :
    (blocks.flatMap (Block.reports rules program)).filterMap (Report.symbolFor? label)
      = (blocks.filter fun block => block.head.label = label).map
          fun block => .int block.head.address := by
  induction blocks with
  | nil => rfl
  | cons block rest ih =>
    rw [List.flatMap_cons, List.filterMap_append, ih, List.filter_cons]
    have hpairings : ∀ (real : List (Instruction × Nat)) (slots : List Slot) (owner : String),
        (pairings owner real slots).filterMap (Report.symbolFor? label) = [] := by
      intro real slots owner
      rw [List.filterMap_eq_nil_iff]
      intro report hreport
      obtain ⟨pair, -, rfl⟩ := List.mem_map.1 hreport
      rfl
    cases block with
    | known head slots padding =>
      by_cases hlabel : head.label = label <;>
        simp [Block.reports, Block.head, Report.symbolFor?, hlabel, hpairings]
    | unknown head texts =>
      by_cases hlabel : head.label = label <;>
        simp [Block.reports, Block.head, Report.symbolFor?, hlabel]

/-- **Layouts are recovered.** A pass over texts that show a layout completes, reports and counts
    exactly what the layout says, and warns of nothing. The book that takes the reports in knows
    each label by its last label line, and writing it back gives every instruction that is no
    placeholder the address of its slot, in order, where its subroutine has a block; it notes
    nothing, counts the slots, and changes nothing else. -/
theorem align_layout (h : program.IsHashable) (layout : Layout rules program)
    {texts : List String} (hshown : layout.IsShownBy texts) :
    (align rules program texts).1.reports = layout.blocks.flatMap (Block.reports rules program)
    ∧ (align rules program texts).2 = .ok (tallyOf layout.blocks)
    ∧ (∀ record ∈ (align rules program texts).1.records, record.level ≠ .warning)
    ∧ (∀ label,
        (AddressBook.empty.recordAll (align rules program texts).1.reports).addressOf? label none
          = ((layout.blocks.filter fun block => block.head.label = label).map
              fun block => Datum.int block.head.address).getLast?)
    ∧ ((AddressBook.empty.recordAll (align rules program texts).1.reports).apply program).written
        = .ok (layout.blocks.flatMap Block.slots).length
    ∧ ((AddressBook.empty.recordAll (align rules program texts).1.reports).apply program).records
        = []
    ∧ ((AddressBook.empty.recordAll
          (align rules program texts).1.reports).apply program).program.subroutines
        = program.subroutines.map (relocated rules layout.blocks) := by
  have halign := align_eq_join_blocks h hshown
  have hreports : (align rules program texts).1.reports
      = layout.blocks.flatMap (Block.reports rules program) := by
    rw [halign, Journal.reports_append, Journal.reports_join, List.flatMap_map, List.append_nil]
    rfl
  obtain ⟨hwritten, hrecords, hsubroutines⟩ :=
    AddressBook.apply_of_named (isNamed_reportedKeys rules program texts)
  refine ⟨hreports, by rw [halign], ?_, ?_, ?_, hrecords, ?_⟩
  · intro record hrecord
    rw [halign, Journal.records_append, Journal.records_join, List.mem_append] at hrecord
    rcases hrecord with hrecord | hrecord
    · obtain ⟨journal, hjournal, hrecord⟩ := List.mem_flatMap.1 hrecord
      obtain ⟨block, -, rfl⟩ := List.mem_map.1 hjournal
      simp [level_of_mem_records hrecord]
    · rw [List.mem_singleton.1 hrecord]
      show Log.Level.info ≠ .warning
      decide
  · intro label
    rw [AddressBook.addressOf?, AddressBook.get?_symbols_recordAll, hreports,
      filterMap_symbolFor?_blocks]
  · rw [hwritten, hreports, (nodup_reportedKeys_blocks layout).dedup,
      length_reportedKeys_blocks]
  · rw [hsubroutines]
    apply List.map_congr_left
    intro s hs
    exact readdress_eq_relocated h hreports hs

/-- A subroutine with placeholders at its start, in its midst and at its end, and one that is not in
    the listing. -/
def sparseProgram : Program :=
  ⟨[⟨"f", [{ opcode := .int 8 }, { opcode := .opcode .addi }, { opcode := .text "IMPLICIT_DEF" },
      { opcode := .text "LUI" }, { opcode := .int 121 }, { opcode := .text "IMPLICIT_DEF" }]⟩,
    ⟨"g", [{ opcode := .opcode .sw, address := .int 1 }]⟩], by decide⟩

/-- Data in front of an instruction, a constant, and padding. -/
def sparseSlots : List Slot :=
  [{ data :=
      [{ indent := " ", address := 0x10, gap := "\t", mnemonic := ".word", operands := " 1" }]
     line :=
      { indent := " ", address := 0x14, gap := "\t", mnemonic := "addi", operands := "\ta0\n" } },
    { line := { address := 0x8, mnemonic := "lui" } },
    { line := { address := 0x1c, gap := " ", mnemonic := ".word" } }]

def sparseBlocks : List Block :=
  [.unknown { address := 0xffffffff, label := "start" } ["0: lui", "text", "4: sw"],
    .known { address := 0x10, label := "f", rest := "\r\n" } sparseSlots
      [{ address := 0x20, mnemonic := "nop" }, { address := 0x22, mnemonic := ".short" }]]

def sparseLayout : Layout {} sparseProgram where
  blocks := sparseBlocks
  fits := by
    intro block hblock
    rcases List.mem_cons.1 hblock with rfl | hblock
    · exact .unknown rfl (by decide +kernel)
    · rw [List.mem_singleton.1 hblock]
      refine .known rfl ?_ (by decide)
      refine .cons ⟨by decide, by decide, by decide, ?_⟩
        (.cons ⟨by decide, by decide, by decide, ?_⟩
          (.cons ⟨by decide, by decide, by decide, ?_⟩ .nil))
      · rintro pattern ⟨⟩
      · rintro pattern ⟨⟩
        decide
      · rintro pattern ⟨⟩
  nodup_known := by decide

def sparseListing : List String :=
  ["", "ffffffff <start>:", "0: lui", "4: sw", "Disassembly:", "00000010 <f>:\r\n", " 10:\t.word 1",
    " 14:\taddi\ta0\n", "8:lui", "1c: .word", "...", "20:nop", "22:.short"]

theorem align_layout_sparse :
    sparseProgram.IsHashable ∧ sparseLayout.IsShownBy sparseListing
      ∧ (align {} sparseProgram sparseListing).1.reports
          = [.symbol "start" (.int 0xffffffff), .symbol "f" (.int 0x10),
            .instruction "f" 1 (.int 0x14), .instruction "f" 3 (.int 0x8),
            .instruction "f" 4 (.int 0x1c)]
      ∧ (align {} sparseProgram sparseListing).2 = .ok { symbols := 2, instructions := 3 }
      ∧ ((AddressBook.empty.recordAll
            (align {} sparseProgram sparseListing).1.reports).apply sparseProgram).program.addresses
          = [("f", [.null, .int 0x14, .null, .int 0x8, .int 0x1c, .null]), ("g", [.int 1])] := by
  have h : sparseProgram.IsHashable := by decide
  have hshown : sparseLayout.IsShownBy sparseListing := by
    show List.filter _ _ = List.filter _ _
    decide +kernel
  obtain ⟨hreports, htally, -, -, -, -, hsubroutines⟩ := align_layout h sparseLayout hshown
  refine ⟨h, hshown, ?_, ?_, ?_⟩
  · rw [hreports]
    decide +kernel
  · rw [htally]
    decide +kernel
  · rw [Program.addresses, hsubroutines]
    decide +kernel

end CoreTiming.Alignment
