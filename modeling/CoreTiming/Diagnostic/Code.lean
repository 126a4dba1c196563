import CoreTiming.Datum.Display

/-!
# Diagnostic codes

A failure carries a code: a family and a number, with the category and the severity it stands
for. Codes are identified by family and number alone (`Code.sameAs`).
-/

namespace CoreTiming.Diagnostic

/-- `ErrorSeverity`: what a diagnostic does to the run. -/
inductive Severity where
  /-- It ends the run. -/
  | fatal
  /-- It is logged and the run goes on. -/
  | warning
  deriving DecidableEq

/-- The name of a severity. -/
def Severity.name : Severity → String
  | .fatal => "fatal"
  | .warning => "warning"

/-- `ErrorCategory`: what kind of failure a diagnostic reports. -/
inductive Category where
  | disassemblerFailure
  | alignmentFailure
  | missingInstruction
  | unknownOpcode
  | unknownLibraryFunction
  | invalidConfiguration
  | missingTraceFile
  | malformedTrace
  deriving DecidableEq

namespace Category

/-- Every category, in the order of declaration. -/
def all : List Category :=
  [disassemblerFailure, alignmentFailure, missingInstruction, unknownOpcode,
    unknownLibraryFunction, invalidConfiguration, missingTraceFile, malformedTrace]

/-- The name of a category. -/
def name : Category → String
  | disassemblerFailure => "DISASSEMBLER_FAILURE"
  | alignmentFailure => "ALIGNMENT_FAILURE"
  | missingInstruction => "MISSING_INSTRUCTION"
  | unknownOpcode => "UNKNOWN_OPCODE"
  | unknownLibraryFunction => "UNKNOWN_LIBRARY_FUNCTION"
  | invalidConfiguration => "INVALID_CONFIGURATION"
  | missingTraceFile => "MISSING_TRACE_FILE"
  | malformedTrace => "MALFORMED_TRACE"

/-- The number of a category, counted from one. -/
def number (category : Category) : Nat := all.idxOf category + 1

/-- The category of a name. -/
def ofName? (name : String) : Option Category := all.find? (·.name = name)

end Category

/-- `ErrorCode`: a diagnostic code. -/
structure Code where
  family : String
  number : Int
  category : Category
  severity : Severity := .fatal
  deriving DecidableEq

namespace Code

/-- A code as text: the family and the number on four places. -/
def text (code : Code) : String :=
  code.family ++ "-" ++ String.ofList (Numeral.padded 10 4 code.number)

/-- A code as text, if its number is within the limit of decimals. -/
def shown (code : Code) : Except Unshowable String :=
  if Numeral.isWritable code.number then .ok code.text else .error .tooManyDigits

/-- A code with its category. -/
def display (code : Code) : String :=
  "ErrorCode(" ++ Text.quote code.text ++ ", " ++ code.category.name ++ ")"

/-- `ErrorCode.__eq__`: family and number agree. -/
def sameAs (a b : Code) : Bool := a.family == b.family && a.number == b.number

/-- Whether a datum is the text of a code. -/
def isDatum (code : Code) : Datum → Bool
  | .text t => code.text == t
  | _ => false

/-- The complaint that there is no code. -/
def missingMessage : String := "'NoneType' object has no attribute 'code'"

/-! ## The codes in use -/

/-- The disassembler could not be run or ended with a failure. -/
def disassemblerFailed : Code := ⟨"WCET", 1001, .disassemblerFailure, .fatal⟩

/-- A line of the listing does not fit its instruction. -/
def alignmentFailed : Code := ⟨"WCET", 1002, .alignmentFailure, .fatal⟩

/-- A line of the listing has no instruction. -/
def instructionNotFound : Code := ⟨"WCET", 1003, .missingInstruction, .warning⟩

/-- An opcode has no cost. -/
def unknownOpcode : Code := ⟨"WCET", 2001, .unknownOpcode, .fatal⟩

/-- A callee is no priced library routine. -/
def unknownLibraryFunction : Code := ⟨"WCET", 2002, .unknownLibraryFunction, .fatal⟩

/-- A table or a setting is not consistent. -/
def invalidConfiguration : Code := ⟨"WCET", 2003, .invalidConfiguration, .fatal⟩

/-- No trace file is set. -/
def missingTraceFile : Code := ⟨"WCET", 3001, .missingTraceFile, .fatal⟩

/-- A trace line cannot be read. -/
def malformedTraceLine : Code := ⟨"WCET", 3002, .malformedTrace, .fatal⟩

/-- `WcetErrorCodes`: the codes in use, by name and in the order of declaration. -/
def predefined : List (String × Code) :=
  [("DISASSEMBLER_FAILED", disassemblerFailed), ("ALIGNMENT_FAILED", alignmentFailed),
    ("INSTRUCTION_NOT_FOUND", instructionNotFound), ("UNKNOWN_OPCODE", unknownOpcode),
    ("UNKNOWN_LIBRARY_FUNCTION", unknownLibraryFunction),
    ("INVALID_CONFIGURATION", invalidConfiguration), ("MISSING_TRACE_FILE", missingTraceFile),
    ("MALFORMED_TRACE_LINE", malformedTraceLine)]

/-- The predefined codes are pairwise different. -/
theorem predefined_pairwise : predefined.Pairwise fun a b => a.2.sameAs b.2 = false := by
  decide

end Code

end CoreTiming.Diagnostic
