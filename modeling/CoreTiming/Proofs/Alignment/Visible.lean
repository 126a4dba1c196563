import CoreTiming.Alignment.Pass
import Mathlib.Data.List.Basic

/-!
# The instructions that a listing shows

Placeholders never show up in a listing. `visible` lists the other instructions of a subroutine
with their indexes, from an index on, and says what the index of a state means: the first of them
is the instruction that the next line is expected to stand for.

Results:
* `expected_eq`: the expected instruction is the first visible one, and past the last one the
  index is that behind the last instruction;
* `visible_tail`: the index behind a visible instruction leaves exactly the visible ones after it;
* `stepWithin_surplus`, `stepWithin_skipped`, `stepWithin_paired`: what the step of an instruction
  line does, by the visible instructions that are left.

All of them ask that opcodes can be looked up. `exists_of_judge` does not: a paired line stands for
an instruction that exists and is no placeholder, whatever the other opcodes are.
-/

namespace CoreTiming

/-! ## Opcodes that can be looked up -/

/-- Every opcode of the program can be looked up. -/
def Program.IsHashable (program : Program) : Prop :=
  ∀ s ∈ program.subroutines, ∀ i ∈ s.instructions, i.opcode.isHashable = true

instance (program : Program) : Decidable program.IsHashable :=
  inferInstanceAs (Decidable (∀ s ∈ program.subroutines, ∀ i ∈ s.instructions,
    i.opcode.isHashable = true))

theorem Program.IsHashable.instructionsOf {program : Program} (h : program.IsHashable)
    (label : String) : ∀ i ∈ program.instructionsOf label, i.opcode.isHashable = true := by
  intro i hi
  cases hs : program.find? label with
  | none => simp [Program.instructionsOf, hs] at hi
  | some s =>
    rw [Program.instructionsOf_of_find? hs] at hi
    exact h s (Program.mem_of_find? hs) i hi

namespace Alignment

open CoreTiming.Listing

/-! ## Rules on opcodes that can be looked up -/

namespace Rules

/-- Whether the opcode of an instruction is among the placeholders. -/
def isHidden (rules : Rules) (i : Instruction) : Bool := listed rules.placeholders i.opcode.key

/-- Whether the opcode of an instruction is among the entries of a constant pool. -/
def isPooled (rules : Rules) (i : Instruction) : Bool := listed rules.constants i.opcode.key

/-- The pattern under the opcode of an instruction. -/
def demand? (rules : Rules) (i : Instruction) : Option Pattern := rules.checks.get? i.opcode.key

/-- The same rules without patterns. -/
def unchecked (rules : Rules) : Rules := { rules with checks := .empty }

variable {rules : Rules} {i : Instruction}

theorem asKey_of_isHashable (h : i.opcode.isHashable = true) :
    i.opcode.key.asKey = .ok i.opcode.key :=
  Datum.asKey_of_isHashable (by simpa using h)

theorem isPlaceholder_of_isHashable (rules : Rules) (h : i.opcode.isHashable = true) :
    rules.isPlaceholder i = .ok (rules.isHidden i) := by
  rw [isPlaceholder, asKey_of_isHashable h]; rfl

theorem isConstant_of_isHashable (rules : Rules) (h : i.opcode.isHashable = true) :
    rules.isConstant i = .ok (rules.isPooled i) := by
  rw [isConstant, asKey_of_isHashable h]; rfl

theorem check?_of_isHashable (rules : Rules) (h : i.opcode.isHashable = true) :
    rules.check? i = .ok (rules.demand? i) := by
  rw [check?, asKey_of_isHashable h]; rfl

end Rules

/-! ## Visible instructions -/

/-- The instructions from an index on that are no placeholders, each with its own index. -/
def visible (rules : Rules) (instructions : List Instruction) (index : Nat) :
    List (Instruction × Nat) :=
  ((instructions.drop index).zipIdx index).filter fun entry => !rules.isHidden entry.1

theorem visible_unchecked (rules : Rules) (instructions : List Instruction) (index : Nat) :
    visible rules.unchecked instructions index = visible rules instructions index := rfl

theorem map_fst_visible (rules : Rules) (instructions : List Instruction) (index : Nat) :
    (visible rules instructions index).map Prod.fst
      = (instructions.drop index).filter fun i => !rules.isHidden i := by
  conv_rhs => rw [← List.zipIdx_map_fst index (instructions.drop index), List.filter_map]
  rfl

variable {rules : Rules} {instructions : List Instruction} {index : Nat}

theorem visible_of_length_le (rules : Rules) (h : instructions.length ≤ index) :
    visible rules instructions index = [] := by
  rw [visible, List.drop_eq_nil_of_le h]; rfl

/-- A placeholder at the index is left out, and any other instruction comes first. -/
theorem visible_of_lt (rules : Rules) (h : index < instructions.length) :
    visible rules instructions index
      = if rules.isHidden instructions[index] then visible rules instructions (index + 1)
        else (instructions[index], index) :: visible rules instructions (index + 1) := by
  rw [visible, List.drop_eq_getElem_cons h, List.zipIdx_cons, List.filter_cons]
  cases rules.isHidden instructions[index] <;> rfl

/-- The first visible instruction stands at its index and is no placeholder. Its own index finds it
    again, and the index behind it leaves the others. -/
theorem visible_tail {i : Instruction} {j : Nat} {rest : List (Instruction × Nat)}
    (h : visible rules instructions index = (i, j) :: rest) :
    index ≤ j ∧ instructions[j]? = some i ∧ rules.isHidden i = false
      ∧ visible rules instructions j = (i, j) :: rest
      ∧ visible rules instructions (j + 1) = rest := by
  -- induction on the number of instructions from the index on
  induction left : instructions.length - index generalizing index with
  | zero =>
    rw [visible_of_length_le rules (by omega)] at h
    cases h
  | succ left ih =>
    have hlt : index < instructions.length := by omega
    rw [visible_of_lt rules hlt] at h
    split at h
    · obtain ⟨hle, hfound⟩ := ih h (by omega)
      exact ⟨by omega, hfound⟩
    · rename_i shown
      obtain ⟨⟨rfl, rfl⟩, hrest⟩ : (instructions[index] = i ∧ index = j)
          ∧ visible rules instructions (index + 1) = rest := by
        simpa using h
      refine ⟨Nat.le_refl _, List.getElem?_eq_getElem hlt, by simpa using shown, ?_, hrest⟩
      rw [visible_of_lt rules hlt, if_neg shown, hrest]

theorem lt_of_visible {i : Instruction} {j : Nat} {rest : List (Instruction × Nat)}
    (h : visible rules instructions index = (i, j) :: rest) : j < instructions.length :=
  (List.getElem?_eq_some_iff.1 (visible_tail h).2.1).1

/-! ## The expected instruction -/

/-- The number of placeholders in front leads to the instruction that is found, which is none of
    them. -/
theorem passPlaceholders_eq_ok {count : Nat} {found : Option Instruction}
    (h : passPlaceholders rules instructions = .ok (count, found)) :
    instructions[count]? = found ∧ count ≤ instructions.length
      ∧ ∀ i, found = some i → rules.isPlaceholder i = .ok false := by
  induction instructions generalizing count with
  | nil =>
    cases h
    simp
  | cons i rest ih =>
    unfold passPlaceholders at h
    split at h
    · cases h
    · cases h
      simp_all
    · cases hrest : passPlaceholders rules rest with
      | error e => simp [hrest, Except.map] at h
      | ok passed =>
        obtain ⟨rfl, rfl⟩ : passed.1 + 1 = count ∧ passed.2 = found := by
          simpa [hrest, Except.map] using h
        obtain ⟨hat, hle, hfound⟩ := ih hrest
        exact ⟨by simpa using hat, by simpa using hle, hfound⟩

/-- An expected instruction stands at its index and is no placeholder, and where there is none the
    index is past the end. -/
theorem exists_of_expected {next : Int} {found : Option Instruction}
    (h : expected rules instructions index = .ok (next, found)) :
    ∃ j : Nat, next = j ∧ index ≤ j ∧ instructions[j]? = found
      ∧ (found = none → j = max index instructions.length)
      ∧ ∀ i, found = some i → rules.isPlaceholder i = .ok false := by
  rw [expected_nonneg (by omega), Int.toNat_natCast] at h
  cases hpassed : passPlaceholders rules (instructions.drop index) with
  | error e => simp [hpassed, Except.map] at h
  | ok passed =>
    obtain ⟨rfl, rfl⟩ : (index : Int) + passed.1 = next ∧ passed.2 = found := by
      simpa [hpassed, Except.map] using h
    obtain ⟨hat, hle, hfound⟩ := passPlaceholders_eq_ok hpassed
    rw [List.getElem?_drop] at hat
    rw [List.length_drop] at hle
    refine ⟨index + passed.1, by omega, by omega, hat, fun hnone => ?_, hfound⟩
    rw [hnone, List.getElem?_eq_none_iff] at hat
    omega

/-- The first of some numbered instructions that is no placeholder, with the index where it is
    expected. -/
theorem passPlaceholders_of_isHashable (rules : Rules)
    (h : ∀ i ∈ instructions, i.opcode.isHashable = true) (start : Nat) :
    (passPlaceholders rules instructions).map (fun found => ((start : Int) + found.1, found.2))
      = .ok (match (instructions.zipIdx start).filter fun entry => !rules.isHidden entry.1 with
        | [] => (((start + instructions.length : Nat) : Int), none)
        | (i, j) :: _ => ((j : Int), some i)) := by
  induction instructions generalizing start with
  | nil => simp [passPlaceholders, Except.map]
  | cons i rest ih =>
    obtain ⟨hi, hrest⟩ := List.forall_mem_cons.1 h
    rw [passPlaceholders, Rules.isPlaceholder_of_isHashable rules hi, List.zipIdx_cons,
      List.filter_cons]
    cases hhidden : rules.isHidden i with
    | false => simp [Except.map]
    | true =>
      have hpassed := ih hrest (start + 1)
      cases hp : passPlaceholders rules rest with
      | error e => simp [hp, Except.map] at hpassed
      | ok passed =>
        simp only [hp, Except.map, Except.ok.injEq] at hpassed
        simp only [Except.map, Bool.not_true, Bool.false_eq_true, if_false, Except.ok.injEq,
          List.length_cons]
        rw [show start + (rest.length + 1) = start + 1 + rest.length by omega, ← hpassed]
        simp
        omega

/-- The next line is expected to stand for the first visible instruction. -/
theorem expected_eq (rules : Rules) (h : ∀ i ∈ instructions, i.opcode.isHashable = true)
    (index : Nat) :
    expected rules instructions index
      = .ok (match visible rules instructions index with
        | [] => (((max index instructions.length : Nat) : Int), none)
        | (i, j) :: _ => ((j : Int), some i)) := by
  have hdrop : ∀ i ∈ instructions.drop index, i.opcode.isHashable = true :=
    fun i hi => h i (List.mem_of_mem_drop hi)
  rw [expected_nonneg (by omega), Int.toNat_natCast,
    passPlaceholders_of_isHashable rules hdrop index, List.length_drop,
    show index + (instructions.length - index) = max index instructions.length by omega]
  rfl

/-- No verdict moves the index past the end, and a line is only paired with an instruction that
    exists and is no placeholder. -/
theorem exists_of_judge {mnemonic : String} {next : Int} {verdict : Verdict}
    (h : judge rules instructions index mnemonic = .ok (next, verdict)) :
    ∃ j : Nat, next = j ∧ j ≤ max index instructions.length
      ∧ ∀ check, verdict = .paired check →
          ∃ i, instructions[j]? = some i ∧ rules.isPlaceholder i = .ok false := by
  unfold judge at h
  split at h
  · cases h
  · rename_i hexpected
    cases h
    obtain ⟨j, rfl, -, -, hpast, -⟩ := exists_of_expected hexpected
    exact ⟨j, rfl, Nat.le_of_eq (hpast rfl), by simp⟩
  · rename_i i hexpected
    obtain ⟨j, rfl, -, hat, -, hfound⟩ := exists_of_expected hexpected
    split at h
    · cases h
    · cases h
      have hlt := (List.getElem?_eq_some_iff.1 hat).1
      exact ⟨j, rfl, by omega, fun _ _ => ⟨i, hat, hfound i rfl⟩⟩

/-! ## The step of an instruction line -/

variable {label owner : String} {address : Datum} {mnemonic : String}

theorem verdictFor_of_isHashable {i : Instruction} (rules : Rules)
    (h : i.opcode.isHashable = true) (mnemonic : String) :
    verdictFor rules mnemonic i
      = .ok (if isDirective mnemonic && !rules.isPooled i then .skipped
          else .paired (rules.demand? i)) := by
  rw [verdictFor, Rules.isConstant_of_isHashable rules h, Rules.check?_of_isHashable rules h]
  rfl

/-- With no visible instruction left a line is surplus. -/
theorem stepWithin_surplus (h : ∀ i ∈ instructions, i.opcode.isHashable = true)
    (hvisible : visible rules instructions index = []) :
    stepWithin rules instructions label owner index address mnemonic
      = (surplusJournal label (max index instructions.length : Nat) mnemonic,
          .ok (.within label owner (max index instructions.length : Nat))) := by
  rw [stepWithin, judge, expected_eq rules h, hvisible]

/-- A directive is skipped in front of an instruction that is no constant. -/
theorem stepWithin_skipped (h : ∀ i ∈ instructions, i.opcode.isHashable = true)
    {i : Instruction} {j : Nat} {rest : List (Instruction × Nat)}
    (hvisible : visible rules instructions index = (i, j) :: rest)
    (hskip : (isDirective mnemonic && !rules.isPooled i) = true) :
    stepWithin rules instructions label owner index address mnemonic
      = (skippedJournal label address mnemonic, .ok (.within label owner j)) := by
  have hi := h i (List.mem_of_getElem? (visible_tail hvisible).2.1)
  rw [stepWithin, judge, expected_eq rules h, hvisible]
  simp only
  rw [verdictFor_of_isHashable rules hi, if_pos hskip]

/-- Any other line is paired with the first visible instruction, and the next line is expected to
    stand for the one after it. -/
theorem stepWithin_paired (h : ∀ i ∈ instructions, i.opcode.isHashable = true)
    {i : Instruction} {j : Nat} {rest : List (Instruction × Nat)}
    (hvisible : visible rules instructions index = (i, j) :: rest)
    (hpair : (isDirective mnemonic && !rules.isPooled i) = false) :
    stepWithin rules instructions label owner index address mnemonic
      = (pairedJournal label j address,
          match (rules.demand? i).filter fun pattern => !pattern.found mnemonic with
          | some pattern => .error (.mismatch address mnemonic pattern.source)
          | none => .ok (.within label owner (j + 1 : Nat))) := by
  have hi := h i (List.mem_of_getElem? (visible_tail hvisible).2.1)
  rw [stepWithin, judge, expected_eq rules h, hvisible]
  simp only
  rw [verdictFor_of_isHashable rules hi, if_neg (by simp [hpair])]
  rfl

end Alignment

end CoreTiming
