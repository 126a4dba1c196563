import CoreTiming.Alignment.Pass
import CoreTiming.Disassembler.Session
import CoreTiming.RunOptions
import CoreTiming.Text.Lines
import CoreTiming.Text.Utf8

/-!
# Extracting addresses from a binary

The disassembler runs as a process whose output is aligned line by line (`disassemble`). A pass
that faults has the process killed, and after one that completes the process is waited for; either
way it is left. Only then does its exit status count.

`extractWith` is the extraction for given options, which must name a binary.
-/

namespace CoreTiming.Disassembler

open CoreTiming CoreTiming.Alignment

/-! ## Failures -/

/-- The complaint that no binary is set. -/
def noBinaryDiagnostic : Diagnostic :=
  { cause := .configuration
    message := .text "No binary file specified for symbol extraction" }

/-- The complaint that there is no path. -/
def noPathMessage : String := "expected str, bytes or os.PathLike object, not NoneType"

/-- A process that could not be started, as a diagnostic. -/
def notStartedDiagnostic (command reason : String) : Diagnostic :=
  { cause := .disassembler (.text command) .null
    message := .text
      ("The objdump command '" ++ command ++ "' could not be started: " ++ reason) }

/-- A process that ended badly, as a diagnostic. -/
def badStatusDiagnostic (command : String) (status : Int) : Diagnostic :=
  { cause := .disassembler (.text command) (.int status)
    message := .text
      ("The objdump command '" ++ command ++ "' exited with status "
        ++ Numeral.decimal status) }

/-! ## Extractions -/

/-- What an extraction has done, and how it ended. -/
structure Extraction extends Course where
  outcome : Except Failure Tally

/-- The lines that a process has written. -/
def outputLines (output : List UInt8) : List String :=
  (Text.lines (Text.decodeUtf8 output)).map String.ofList

/-- How an extraction ends whose pass has completed, by the exit status of the process. -/
def judgeStatus (command : String) (status : Int) (tally : Tally) : Except Failure Tally :=
  if status = 0 then .ok tally
  else if Numeral.isWritable status then .error (.badStatus command status)
  else .error (.unshowable .tooManyDigits)

/-- The record that announces a command. -/
def announcement (command : String) : Log.Record := logged .debug ("Running " ++ command)

/-- `extract_symbols`: runs the disassembler over a binary and aligns the listing with a program. -/
def disassemble (rules : Rules) (program : Program) (launch : Launch)
    (disassembler binary : String) : Session Tally := do
  let argv ← Session.give ((arguments disassembler binary).mapError .unreadable)
  let command := CommandLine.join argv
  Session.enter { records := [announcement command] }
  let (output, status) ← Session.start argv launch
  let (tally, status) ← Session.leaving do
    let tally ← Session.killingOnFailure
      (Session.follow (align rules program (outputLines output)))
    return (tally, ← Session.wait status)
  Session.give (judgeStatus command status tally)

/-- The extraction from a binary. -/
def extract (rules : Rules) (program : Program) (launch : Launch) (disassembler binary : String) :
    Extraction :=
  let (outcome, course) := (disassemble rules program launch disassembler binary).after {}
  { toCourse := course, outcome }

/-- `extract_symbols` where the binary may be missing. -/
def extractFrom (rules : Rules) (program : Program) (launch : Launch) (disassembler : String) :
    Option String → Extraction
  | some binary => extract rules program launch disassembler binary
  | none =>
    match CommandLine.split disassembler with
    | .error e => { outcome := .error (.unreadable e) }
    | .ok _ => { outcome := .error .noPath }

/-- `WildcatArchitecture.extract_symbols`: the extraction for options, under `DEFAULT_RULES`. -/
def extractWith (options : RunOptions) (program : Program) (launch : Launch) : Extraction :=
  match nonempty? options.binary with
  | none => { outcome := .error .noBinary }
  | some binary =>
    extract {} program launch ((nonempty? options.disassembler).getD defaultCommand) binary

end CoreTiming.Disassembler
