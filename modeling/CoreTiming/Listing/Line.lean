import CoreTiming.Datum.Basic

/-!
# Lines of a disassembly listing

Two kinds of lines of a listing matter: a label line, which opens a function, and an instruction
line. A mnemonic that starts with a point is a directive: data that the disassembler shows in
place of an instruction. The address of a line that is read from text is an integer; lines from
elsewhere may carry any datum.
-/

namespace CoreTiming.Listing

/-- A line of a listing that carries an address: a `FunctionLabelLine` or an `InstructionLine`. -/
inductive Line where
  /-- The start of the function `label`. -/
  | label (address : Datum) (label : String)
  /-- One instruction, by its mnemonic. -/
  | instruction (address : Datum) (mnemonic : String)
  deriving DecidableEq

/-- The address of a line. -/
def Line.address : Line → Datum
  | .label address _ => address
  | .instruction address _ => address

/-- Whether a line is a label line. -/
def Line.isLabel : Line → Bool
  | .label _ _ => true
  | .instruction _ _ => false

/-- Whether a mnemonic is a data directive: `InstructionLine.is_data_directive`. -/
def isDirective (mnemonic : String) : Bool := mnemonic.toList.head? = some '.'

end CoreTiming.Listing
