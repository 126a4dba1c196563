/-!
# Opcodes

The closed set of opcodes that the decoder of the core produces, with the tag that names each
one in text. Tags are distinct: an opcode reads back from its tag (`ofTag?_tag`), and a tag
names at most one opcode (`ofTag?_eq_some_iff`).
-/

namespace CoreTiming

/-- An opcode of the core: a member of `Opcode`, whose value is its tag. -/
inductive Opcode where
  -- Upper immediates.
  | lui | auipc
  -- Jumps.
  | jal | j | jalr
  -- Conditional branches.
  | beq | bne | blt | bge | bltu | bgeu
  -- Loads and stores.
  | lw | lh | lhu | lb | lbu | sb | sh | sw
  -- Register and immediate.
  | addi | nop | slti | sltiu | xori | ori | andi | slli | srli | srai
  -- Register and register.
  | add | sub | sll | slt | sltu | xor | srl | sra | or | and
  -- Fences and environment calls.
  | fence | fenceTso | fenceI | ecall | ebreak
  -- Control and status registers.
  | csrrw | csrrs | csrrc | csrrwi | csrrsi | csrrci
  -- Pseudo instructions.
  | pseudoBranch | pseudoReturn | pseudoBranchIndirect | pseudoCallIndirect | pseudoTailIndirect
  | pseudoCall | pseudoTail
  deriving DecidableEq

namespace Opcode

/-- The name of an opcode in text. -/
def tag : Opcode → String
  | lui => "LUI"
  | auipc => "AUIPC"
  | jal => "JAL"
  | j => "J"
  | jalr => "JALR"
  | beq => "BEQ"
  | bne => "BNE"
  | blt => "BLT"
  | bge => "BGE"
  | bltu => "BLTU"
  | bgeu => "BGEU"
  | lw => "LW"
  | lh => "LH"
  | lhu => "LHU"
  | lb => "LB"
  | lbu => "LBU"
  | sb => "SB"
  | sh => "SH"
  | sw => "SW"
  | addi => "ADDI"
  | nop => "NOP"
  | slti => "SLTI"
  | sltiu => "SLTIU"
  | xori => "XORI"
  | ori => "ORI"
  | andi => "ANDI"
  | slli => "SLLI"
  | srli => "SRLI"
  | srai => "SRAI"
  | add => "ADD"
  | sub => "SUB"
  | sll => "SLL"
  | slt => "SLT"
  | sltu => "SLTU"
  | xor => "XOR"
  | srl => "SRL"
  | sra => "SRA"
  | or => "OR"
  | and => "AND"
  | fence => "FENCE"
  | fenceTso => "FENCE_TSO"
  | fenceI => "FENCE_I"
  | ecall => "ECALL"
  | ebreak => "EBREAK"
  | csrrw => "CSRRW"
  | csrrs => "CSRRS"
  | csrrc => "CSRRC"
  | csrrwi => "CSRRWI"
  | csrrsi => "CSRRSI"
  | csrrci => "CSRRCI"
  | pseudoBranch => "PseudoBR"
  | pseudoReturn => "PseudoRET"
  | pseudoBranchIndirect => "PseudoBRIND"
  | pseudoCallIndirect => "PseudoCALLIndirect"
  | pseudoTailIndirect => "PseudoTAILIndirect"
  | pseudoCall => "PseudoCALL"
  | pseudoTail => "PseudoTAIL"

/-- Every opcode, in the order of declaration. -/
def all : List Opcode :=
  [.lui, .auipc, .jal, .j, .jalr, .beq, .bne, .blt, .bge, .bltu, .bgeu, .lw, .lh, .lhu, .lb,
    .lbu, .sb, .sh, .sw, .addi, .nop, .slti, .sltiu, .xori, .ori, .andi, .slli, .srli, .srai,
    .add, .sub, .sll, .slt, .sltu, .xor, .srl, .sra, .or, .and, .fence, .fenceTso, .fenceI,
    .ecall, .ebreak, .csrrw, .csrrs, .csrrc, .csrrwi, .csrrsi, .csrrci, .pseudoBranch,
    .pseudoReturn, .pseudoBranchIndirect, .pseudoCallIndirect, .pseudoTailIndirect, .pseudoCall,
    .pseudoTail]

theorem mem_all (op : Opcode) : op ∈ all := by
  cases op <;> decide

/-- The opcode that a tag names. -/
def ofTag? (tag : String) : Option Opcode := all.find? (·.tag = tag)

/-- An opcode reads back from its tag. -/
theorem ofTag?_tag (op : Opcode) : ofTag? op.tag = some op := by
  cases op <;> decide

theorem tag_of_ofTag? {tag : String} {op : Opcode} (h : ofTag? tag = some op) : op.tag = tag := by
  simpa using List.find?_some h

/-- A text names an opcode exactly when it is the opcode's tag. -/
theorem ofTag?_eq_some_iff {tag : String} {op : Opcode} :
    ofTag? tag = some op ↔ op.tag = tag :=
  ⟨tag_of_ofTag?, fun h => h ▸ ofTag?_tag op⟩

end Opcode

end CoreTiming
