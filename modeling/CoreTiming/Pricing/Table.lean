import CoreTiming.Diagnostic.Basic
import CoreTiming.OrderedMap

/-!
# Cost tables

Opcodes fall into three groups: those that take a single cycle, control transfers, which refill
the pipeline on top of it, and transfers of two instructions. `Groups.table` prices the groups
for a given refill, provided that every opcode stands in them exactly once. Otherwise it names
the first opcode that occurs a second time, or else all opcodes that do not occur.

The core's own table is total (`mem_opcodeCosts`), and `cycles` reads it.
-/

namespace CoreTiming.Pricing

open CoreTiming

/-! ## Groups -/

/-- The opcodes by the way they are priced. -/
structure Groups where
  single : List Opcode
  transfer : List Opcode
  twoStep : List Opcode

/-- The groups of the core: `_SINGLE_CYCLE`, `_CONTROL_TRANSFER` and `_TWO_INSTRUCTION_TRANSFER`. -/
def groups : Groups where
  single :=
    [.lui, .auipc, .lw, .lh, .lhu, .lb, .lbu, .sb, .sh, .sw, .addi, .nop, .slti, .sltiu, .xori,
      .ori, .andi, .slli, .srli, .srai, .add, .sub, .sll, .slt, .sltu, .xor, .srl, .sra, .or,
      .and, .fence, .fenceTso, .fenceI, .ecall, .ebreak, .csrrw, .csrrs, .csrrc, .csrrwi, .csrrsi,
      .csrrci]
  transfer :=
    [.jal, .j, .jalr, .beq, .bne, .blt, .bge, .bltu, .bgeu, .pseudoBranch, .pseudoReturn,
      .pseudoBranchIndirect, .pseudoCallIndirect, .pseudoTailIndirect]
  twoStep := [.pseudoCall, .pseudoTail]

/-- `PIPELINE_REFILL`: the cycles lost when the fetched-ahead instructions are thrown away. -/
def pipelineRefill : Int := 3

namespace Groups

/-- All opcodes of the groups, in order. -/
def opcodes (g : Groups) : List Opcode := g.single ++ g.transfer ++ g.twoStep

/-- The groups with the cycles of each. -/
def costs (g : Groups) (refill : Int) : List (List Opcode × Int) :=
  [(g.single, 1), (g.transfer, 1 + refill), (g.twoStep, 1 + 1 + refill)]

/-- The opcodes of the groups with their cycles. -/
def priced (g : Groups) (refill : Int) : List (Opcode × Int) :=
  g.single.map (·, 1) ++ g.transfer.map (·, 1 + refill) ++ g.twoStep.map (·, 2 + refill)

@[simp] theorem map_fst_priced (g : Groups) (refill : Int) :
    (g.priced refill).map (·.1) = g.opcodes := by
  simp [priced, opcodes, Function.comp_def]

/-- The groups without some opcodes. -/
def without (g : Groups) (dropped : List Opcode) : Groups where
  single := g.single.filter (· ∉ dropped)
  transfer := g.transfer.filter (· ∉ dropped)
  twoStep := g.twoStep.filter (· ∉ dropped)

/-- The groups with more opcodes at their ends. -/
def append (g h : Groups) : Groups where
  single := g.single ++ h.single
  transfer := g.transfer ++ h.transfer
  twoStep := g.twoStep ++ h.twoStep

end Groups

/-! ## Tables -/

/-- Why groups do not make a table. -/
inductive TableError where
  /-- An opcode occurs twice. -/
  | pricedTwice (op : Opcode)
  /-- These opcodes do not occur. -/
  | unpriced (ops : List Opcode)
  deriving DecidableEq

/-- The explanation of a failure. -/
def TableError.message : TableError → String
  | .pricedTwice op => "Opcode " ++ op.tag ++ " priced twice"
  | .unpriced ops => "No cycle cost for opcode(s): " ++ ", ".intercalate (ops.map Opcode.tag)

/-- A failure as a diagnostic. -/
def TableError.diagnostic (e : TableError) : Diagnostic :=
  { cause := .configuration, message := .text e.message }

/-- Puts an opcode with its cycles behind those of a table, unless the table has it already. -/
def price (cost : Int) (table : OrderedMap Opcode Int) (op : Opcode) :
    Except TableError (OrderedMap Opcode Int) :=
  if op ∈ table.keys then .error (.pricedTwice op) else .ok (table.insert op cost)

/-- The opcodes that do not occur, in the order of declaration. -/
def missing (ops : List Opcode) : List Opcode := Opcode.all.filter (· ∉ ops)

/-- `_build_opcode_cost`: the cost table of the groups, in their order. -/
def Groups.table (g : Groups) (refill : Int) : Except TableError (List (Opcode × Int)) := do
  let table ← (g.costs refill).foldlM
    (fun table group => group.1.foldlM (price group.2) table) .empty
  match missing table.keys with
  | [] => return table.entries
  | ops => throw (.unpriced ops)

/-- `OPCODE_COST`: the cost of each opcode of the core, in the order of the groups. -/
def opcodeCosts : List (Opcode × Int) := groups.priced pipelineRefill

/-- The groups of the core make a table. -/
theorem table_groups : groups.table pipelineRefill = .ok opcodeCosts := rfl

/-- The cycles of an opcode. -/
def cycles (op : Opcode) : Int := (opcodeCosts.lookup op).getD 0

/-- The table has the cycles of every opcode. -/
theorem mem_opcodeCosts (op : Opcode) : (op, cycles op) ∈ opcodeCosts := by
  cases op <;> decide

/-! ## Routines -/

/-- A table of surcharges for library routines, which need not have all of them. -/
abbrev RoutineCosts := OrderedMap Routine Int

/-- `LIBRARY_ROUTINE_COST`: two cycles for each instruction of a routine's body. -/
def routineCosts : RoutineCosts :=
  ⟨[(.multiply, 34), (.divide, 50), (.divideUnsigned, 238), (.moduloUnsigned, 246), (.modulo, 48),
    (.memset, 26)]⟩

end CoreTiming.Pricing
