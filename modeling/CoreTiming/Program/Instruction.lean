import CoreTiming.Datum.Display

/-!
# Machine instructions

A decoded instruction has an opcode, a list of callees, which may be missing, and an address
once one is known. Two instructions agree when these three do. An instruction is shown in one line
if its address has a hexadecimal form and its callees and opcode can be shown.
-/

namespace CoreTiming

/-- `MachineInstruction`: a decoded machine instruction. -/
structure Instruction where
  opcode : Datum
  callees : Option (List Datum) := some []
  /-- The address, null until one is known. -/
  address : Datum := .null

namespace Instruction

/-- Whether two lists of callees are both missing, or agree item by item. -/
def calleesAgree : Option (List Datum) → Option (List Datum) → Bool
  | none, none => true
  | some xs, some ys => Datum.agreesAll xs ys
  | _, _ => false

/-- Whether two instructions have the same opcode, callees and address. -/
def agrees (a b : Instruction) : Bool :=
  a.opcode.agrees b.opcode && calleesAgree a.callees b.callees && a.address.agrees b.address

/-- The callees, none where the list is missing. -/
def calleeList (instruction : Instruction) : List Datum := instruction.callees.getD []

/-- The address behind the opcode, if one is known. -/
def addressMark : Datum → Except Unshowable String
  | .null => .ok ""
  | address => address.hex8.map ("@0x" ++ ·)

/-- The callees behind the opcode, if there are any. -/
def calleeMark (callees : List Datum) : Except Unshowable String := do
  let names ← callees.mapM Datum.shown
  return if names.isEmpty then "" else " -> " ++ ", ".intercalate names

/-- `MachineInstruction.__repr__`: the opcode, the address if known, and the callees if any. -/
def shown (instruction : Instruction) : Except Unshowable String := do
  let address ← addressMark instruction.address
  let callees ← calleeMark instruction.calleeList
  let opcode ← instruction.opcode.key.shown
  return "<" ++ opcode ++ address ++ callees ++ ">"

end Instruction

end CoreTiming
