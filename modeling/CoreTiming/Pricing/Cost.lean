import CoreTiming.Arguments
import CoreTiming.Pricing.Table
import CoreTiming.Program.Instruction

/-!
# Worst-case cycles

An instruction costs the cycles of its opcode and, when its first callee is a library routine,
the surcharge of that routine. A path costs the sum of its instructions, and fails as its first
failing instruction does (`pathCost_cons_ok`, `pathCost_cons_error`). Control-flow edges are free.
-/

namespace CoreTiming

/-! ## Opcodes and routines by datum -/

namespace Datum

/-- `Opcode.lookup`: the opcode that a datum stands for, itself or the one its text names. -/
def opcode? : Datum → Option Opcode
  | opcode op => some op
  | text t => Opcode.ofTag? t
  | _ => none

/-- `LibraryRoutine.lookup`: the routine that a datum stands for, itself or the one its text names.
-/
def routine? : Datum → Option Routine
  | routine r => some r
  | text t => Routine.ofName? t
  | _ => none

end Datum

namespace Pricing

/-! ## Failures -/

/-- Why something has no price. -/
inductive Failure where
  /-- The opcode is not known. -/
  | unknownOpcode (opcode : Datum)
  /-- The callee is no library routine, or one without a price. -/
  | unknownLibraryFunction (callee : Datum)

/-- A failure as a diagnostic, if the datum can be shown. -/
def Failure.diagnostic : Failure → Except Unshowable Diagnostic
  | .unknownOpcode opcode => Diagnostic.ofUnknownOpcode opcode
  | .unknownLibraryFunction callee => Diagnostic.ofUnknownLibraryFunction callee

/-! ## Prices -/

/-- `opcode_cost`: the cycles of an opcode. -/
def opcodeCost (opcode : Datum) : Except Failure Int :=
  match opcode.opcode? with
  | some op => .ok (cycles op)
  | none => .error (.unknownOpcode opcode)

/-- `cycle_cost`: the cycles of an instruction without its callee. -/
def cycleCost (instruction : Instruction) : Except Failure Int := opcodeCost instruction.opcode

/-- `is_library_function`: whether a callee is a library routine. -/
def isLibraryFunction (callee : Datum) : Bool := callee.routine?.isSome

/-- `lib_cycle_cost`: the surcharge of a library routine. -/
def routineCost (costs : RoutineCosts) (callee : Datum) : Except Failure Int :=
  match callee.routine?.bind costs.get? with
  | some cost => .ok cost
  | none => .error (.unknownLibraryFunction callee)

/-- `library_callee`: the first callee, if it is a library routine. -/
def libraryCallee? (instruction : Instruction) : Option Datum :=
  instruction.calleeList.head?.filter isLibraryFunction

/-- The surcharge of an instruction for the routine it calls. -/
def calleeCost (costs : RoutineCosts) (instruction : Instruction) : Except Failure Int :=
  match libraryCallee? instruction with
  | some callee => routineCost costs callee
  | none => .ok 0

/-- `instruction_wcet`: the cycles of an instruction with the routine it calls. -/
def instructionCost (costs : RoutineCosts) (instruction : Instruction) : Except Failure Int := do
  let own ← cycleCost instruction
  let surcharge ← calleeCost costs instruction
  return own + surcharge

/-- `path_wcet`: the cycles of a path. -/
def pathCost (costs : RoutineCosts) : List Instruction → Except Failure Int
  | [] => .ok 0
  | instruction :: rest => do
    let first ← instructionCost costs instruction
    let others ← pathCost costs rest
    return first + others

/-- `edge_wcet`: the cycles of a control-flow edge. -/
def edgeCost : Int := 0

/-- The cycles of the edge that some data describe: instructions, a branch and the edge at most. -/
def edgeCostOf (description : List Datum) : Except Refusal Int :=
  if description.length ≤ 3 then .ok edgeCost
  else .error (.tooMany "edge_wcet" 3 description.length)

/-! ## Paths -/

@[simp] theorem pathCost_nil (costs : RoutineCosts) : pathCost costs [] = .ok 0 := rfl

theorem pathCost_cons_ok {costs : RoutineCosts} {instruction : Instruction} {first : Int}
    (h : instructionCost costs instruction = .ok first) (rest : List Instruction) :
    pathCost costs (instruction :: rest) = (pathCost costs rest).map (first + ·) := by
  rw [pathCost, h]
  cases pathCost costs rest <;> rfl

theorem pathCost_cons_error {costs : RoutineCosts} {instruction : Instruction} {e : Failure}
    (h : instructionCost costs instruction = .error e) (rest : List Instruction) :
    pathCost costs (instruction :: rest) = .error e := by
  rw [pathCost, h]
  rfl

end Pricing

end CoreTiming
