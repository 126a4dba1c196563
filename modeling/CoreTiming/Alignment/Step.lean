import CoreTiming.Alignment.Journal
import CoreTiming.Alignment.Rules
import CoreTiming.Listing.Line

/-!
# One line of a listing

Within a subroutine each line of the listing stands for the next instruction. Placeholders never
show up in a listing, so they are passed over first. What happens then depends on the instruction
that is expected (`Verdict`):

* past the last instruction the line is surplus, which is worth a warning unless it is padding;
* a directive is skipped unless an entry of a constant pool is expected;
* any other line is paired with the instruction, and its address is reported. If the instruction
  has a pattern, the mnemonic must contain it, or the pass ends there.

A label line opens the subroutine of its label, or leaves the pass outside of any subroutine.
-/

namespace CoreTiming.Alignment

open CoreTiming CoreTiming.Listing

/-! ## States -/

/-- Where a pass stands: `NoFunction` or `ActiveFunction`. -/
inductive State where
  /-- Outside of any subroutine; instruction lines do not count. -/
  | outside
  /-- Under a label, in the subroutine `owner`, with the index of the next instruction. -/
  | within (label owner : String) (index : Int)
  deriving DecidableEq

/-- Whether two states report alike: under the same label and from the same index. -/
def State.agrees : State → State → Bool
  | .outside, .outside => true
  | .within label _ index, .within label' _ index' => label == label' && index == index'
  | _, _ => false

/-! ## The expected instruction -/

/-- The instructions that `_instruction_at` hands out from an index on. An index below zero counts
from the end, and the first instruction follows on the last. -/
def upcoming (instructions : List Instruction) (index : Int) :
    Except Fault (List Instruction) :=
  if 0 ≤ index then .ok (instructions.drop index.toNat)
  else
    match Index.position instructions.length index with
    | .ok position => .ok (instructions.drop position ++ instructions)
    | .error e => .error (.outOfRange e)

/-- The loop of `step` over placeholders: how many are in front, and the first instruction that is
none. -/
def passPlaceholders (rules : Rules) : List Instruction → Except Fault (Nat × Option Instruction)
  | [] => .ok (0, none)
  | i :: rest =>
    match rules.isPlaceholder i with
    | .error e => .error (.unhashable e)
    | .ok false => .ok (0, some i)
    | .ok true => (passPlaceholders rules rest).map fun found => (found.1 + 1, found.2)

/-- The index and the instruction that the next line is expected to stand for. -/
def expected (rules : Rules) (instructions : List Instruction) (index : Int) :
    Except Fault (Int × Option Instruction) := do
  let ahead ← upcoming instructions index
  let found ← passPlaceholders rules ahead
  return (index + found.1, found.2)

/-! ## Verdicts -/

/-- What a line stands for. -/
inductive Verdict where
  /-- For no instruction. -/
  | surplus
  /-- For data between instructions. -/
  | skipped
  /-- For the expected instruction, with the pattern that the mnemonic must contain. -/
  | paired (check : Option Pattern)

/-- The verdict on a line for an expected instruction. -/
def verdictFor (rules : Rules) (mnemonic : String) (i : Instruction) :
    Except Datum.Unhashable Verdict := do
  let constant ← rules.isConstant i
  let check ← rules.check? i
  return if isDirective mnemonic && !constant then .skipped else .paired check

/-- The index of the expected instruction and the verdict on a line. -/
def judge (rules : Rules) (instructions : List Instruction) (index : Int) (mnemonic : String) :
    Except Fault (Int × Verdict) :=
  match expected rules instructions index with
  | .error e => .error e
  | .ok (index, none) => .ok (index, .surplus)
  | .ok (index, some i) =>
    match verdictFor rules mnemonic i with
    | .error e => .error (.unhashable e)
    | .ok verdict => .ok (index, verdict)

/-! ## Journals of one line -/

/-- Whether a surplus line is padding: a directive or a `nop`. -/
def isPadding (mnemonic : String) : Bool := isDirective mnemonic || mnemonic == "nop"

/-- A record of the pass. -/
def logged (level : Log.Level) (message : String) : Log.Record := ⟨level, .alignment, .ok message⟩

/-- The warning of `step` about a line that stands for no instruction. -/
def surplusRecord (label : String) (index : Int) (mnemonic : String) : Log.Record where
  level := .warning
  channel := .alignment
  message := (Datum.int index).shown.map fun place =>
    "No instruction found at " ++ label ++ "+" ++ place ++ " instructions (" ++ mnemonic ++ ")"

/-- The note of `step` on a directive that is passed over. -/
def skippedRecord (label : String) (address : Datum) (mnemonic : String) : Log.Record where
  level := .debug
  channel := .alignment
  message := address.loggedHex8.map fun place =>
    "Skipping data directive " ++ mnemonic ++ " at 0x" ++ place ++ " in " ++ label

/-- The journal of a surplus line. -/
def surplusJournal (label : String) (index : Int) (mnemonic : String) : Journal :=
  if isPadding mnemonic then .empty
  else { tally := { warnings := 1 }, records := [surplusRecord label index mnemonic] }

/-- The journal of a skipped directive. -/
def skippedJournal (label : String) (address : Datum) (mnemonic : String) : Journal :=
  { records := [skippedRecord label address mnemonic] }

/-- The journal of a line that is paired with an instruction. -/
def pairedJournal (label : String) (index : Int) (address : Datum) : Journal :=
  { reports := [.instruction label index address], tally := { instructions := 1 } }

/-- The journal of a label line. The subroutine may be unknown. -/
def labelJournal (label : String) (address : Datum) (known : Bool) : Journal :=
  { reports := [.symbol label address]
    tally := { symbols := 1 }
    records :=
      if known then [] else [logged .debug ("Skipping code of unknown function " ++ label)] }

/-! ## Steps -/

/-- `step` on an instruction line within a subroutine. -/
def stepWithin (rules : Rules) (instructions : List Instruction) (label owner : String)
    (index : Int) (address : Datum) (mnemonic : String) : Journal × Except Fault State :=
  match judge rules instructions index mnemonic with
  | .error e => (.empty, .error e)
  | .ok (index, .surplus) =>
    (surplusJournal label index mnemonic, .ok (.within label owner index))
  | .ok (index, .skipped) =>
    (skippedJournal label address mnemonic, .ok (.within label owner index))
  | .ok (index, .paired check) =>
    (pairedJournal label index address,
      match check.filter fun pattern => !pattern.found mnemonic with
      | some pattern => .error (.mismatch address mnemonic pattern.source)
      | none => .ok (.within label owner (index + 1)))

/-- `step` on one line: its journal, and the next state or the fault that ends the pass. -/
def step (rules : Rules) (program : Program) : State → Line → Journal × Except Fault State
  | _, .label address label =>
    let known := (program.find? label).isSome
    (labelJournal label address known, .ok (if known then .within label label 0 else .outside))
  | .outside, .instruction _ _ => (.empty, .ok .outside)
  | .within label owner index, .instruction address mnemonic =>
    stepWithin rules (program.instructionsOf owner) label owner index address mnemonic

/-! ## Laws -/

@[simp] theorem step_outside (rules : Rules) (program : Program) (address : Datum)
    (mnemonic : String) :
    step rules program .outside (.instruction address mnemonic) = (.empty, .ok .outside) := rfl

/-- A label line leads to the same state from everywhere. -/
theorem step_label (rules : Rules) (program : Program) (state other : State)
    (address : Datum) (label : String) :
    step rules program state (.label address label)
      = step rules program other (.label address label) := by
  cases state <;> cases other <;> rfl

/-- Placeholders in front raise the index and change nothing else. -/
theorem expected_nonneg {rules : Rules} {instructions : List Instruction} {index : Int}
    (h : 0 ≤ index) :
    expected rules instructions index
      = (passPlaceholders rules (instructions.drop index.toNat)).map
          fun found => (index + found.1, found.2) := by
  unfold expected upcoming
  rw [if_pos h]
  cases hp : passPlaceholders rules (instructions.drop index.toNat) with
  | error e => simp only [bind, Except.bind, hp, Except.map]
  | ok found => simp only [bind, Except.bind, hp, Except.map, pure, Except.pure]

end CoreTiming.Alignment
