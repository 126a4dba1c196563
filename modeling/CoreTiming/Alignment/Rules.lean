import CoreTiming.Alignment.Pattern.Reader
import CoreTiming.OrderedMap
import CoreTiming.Program.Instruction

/-!
# Alignment rules

The rules say which opcodes are placeholders, which are entries of a constant pool, and which
have a pattern that the mnemonic must contain. Instructions are looked up by the text of their
opcode, while the tables are taken as they are given; an opcode that is a list cannot be looked
up.

Rules are made of tables and written patterns (`ofTables`). The entries of the tables must be
hashable and the patterns readable; the first flaw is reported, the pattern before its opcode.
-/

namespace CoreTiming.Alignment

open CoreTiming

/-- `AlignmentRules`: the opcodes that alignment treats specially. The standard ones are
`OP_IMPLICIT_DEF`, `OP_CONSTPOOL` and `DEFAULT_SANITY_CHECKS`. -/
structure Rules where
  /-- Opcodes of instructions that a listing never shows. -/
  placeholders : List Datum := [.text "IMPLICIT_DEF", .int 8]
  /-- Opcodes of data that a listing shows as directives. -/
  constants : List Datum := [.text "CONSTPOOL_ENTRY", .int 121]
  /-- Patterns that the mnemonics of some opcodes contain. -/
  checks : OrderedMap Datum Pattern :=
    ⟨[(.text "LUI", .literal "lui"), (.text "AUIPC", .literal "auipc")]⟩

namespace Rules

/-- Whether some entry of a table agrees with a key. -/
def listed (table : List Datum) (key : Datum) : Bool := table.any (·.agrees key)

/-- `is_placeholder`: whether an instruction is never shown. -/
def isPlaceholder (rules : Rules) (i : Instruction) : Except Datum.Unhashable Bool :=
  i.opcode.key.asKey.map (listed rules.placeholders)

/-- `is_constpool`: whether an instruction is an entry of a constant pool. -/
def isConstant (rules : Rules) (i : Instruction) : Except Datum.Unhashable Bool :=
  i.opcode.key.asKey.map (listed rules.constants)

/-- `sanity_pattern`: the pattern that the mnemonic of an instruction must contain. -/
def check? (rules : Rules) (i : Instruction) : Except Datum.Unhashable (Option Pattern) :=
  i.opcode.key.asKey.map rules.checks.get?

/-! ## Making rules -/

/-- Why tables do not make rules. -/
inductive Flaw where
  /-- An entry cannot be looked up. -/
  | unhashable (reason : Datum.Unhashable)
  /-- A text is no pattern. -/
  | badPattern (source : String) (reason : Pattern.Fault)
  deriving DecidableEq

/-- The entries of a table, if all of them can be looked up. -/
def entries (table : List Datum) : Except Flaw (List Datum) :=
  (table.mapM Datum.asKey).mapError .unhashable

/-- The pattern for an opcode. -/
def readCheck (opcode : Datum) (source : String) : Except Flaw (Datum × Pattern) := do
  let pattern ← (Pattern.read source).mapError (.badPattern source)
  let key ← opcode.asKey.mapError .unhashable
  return (key, pattern)

/-- The rules of two tables and a list of opcodes with their patterns, where a later pattern
replaces an earlier one. Without a list the standard patterns hold. -/
def ofTables (placeholders constants : List Datum) (checks : Option (List (Datum × String))) :
    Except Flaw Rules := do
  let placeholders ← entries placeholders
  let constants ← entries constants
  match checks with
  | none => return { placeholders, constants }
  | some checks =>
    let checks ← checks.mapM fun check => readCheck check.1 check.2
    return { placeholders, constants, checks := .ofList checks }

end Rules

end CoreTiming.Alignment
