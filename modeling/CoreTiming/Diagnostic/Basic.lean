import CoreTiming.Datum.Display
import CoreTiming.Diagnostic.Code

/-!
# Diagnostics

A diagnostic is a failure as the enclosing tool sees it: a kind, what that kind records of its
cause, a message, a code, and a hint that may be missing. Kinds form a tree with one general kind
at its root (`Kind.lineage`), and each kind has a code of its own where none is given.
-/

namespace CoreTiming

namespace Diagnostic

/-! ## Kinds -/

/-- The kinds of diagnostics: `WcetError` and the classes under it. -/
inductive Kind where
  | general
  | disassembler
  | alignment
  | configuration
  | unknownOpcode
  | unknownLibraryFunction
  | trace
  | missingTraceFile
  | traceFormat
  deriving DecidableEq

namespace Kind

/-- Every kind, in the order of declaration. -/
def all : List Kind :=
  [general, disassembler, alignment, configuration, unknownOpcode, unknownLibraryFunction, trace,
    missingTraceFile, traceFormat]

theorem mem_all (kind : Kind) : kind ∈ all := by
  cases kind <;> decide

/-- The name of a kind. -/
def name : Kind → String
  | general => "WcetError"
  | disassembler => "DisassemblerError"
  | alignment => "AlignmentError"
  | configuration => "ConfigurationError"
  | unknownOpcode => "UnknownOpcodeError"
  | unknownLibraryFunction => "UnknownLibraryFunctionError"
  | trace => "TraceError"
  | missingTraceFile => "MissingTraceFileError"
  | traceFormat => "TraceFormatError"

/-- The kind of a name. -/
def ofName? (name : String) : Option Kind := all.find? (·.name = name)

/-- A kind reads back from its name. -/
theorem ofName?_name (kind : Kind) : ofName? kind.name = some kind := by
  cases kind <;> decide

/-- A kind and the kinds above it, from special to general. -/
def lineage : Kind → List Kind
  | general => [general]
  | disassembler => [disassembler, general]
  | alignment => [alignment, general]
  | configuration => [configuration, general]
  | unknownOpcode => [unknownOpcode, configuration, general]
  | unknownLibraryFunction => [unknownLibraryFunction, configuration, general]
  | trace => [trace, general]
  | missingTraceFile => [missingTraceFile, trace, general]
  | traceFormat => [traceFormat, trace, general]

/-- The code of a kind where none is given. -/
def defaultCode : Kind → Code
  | general => .invalidConfiguration
  | disassembler => .disassemblerFailed
  | alignment => .alignmentFailed
  | configuration => .invalidConfiguration
  | unknownOpcode => .unknownOpcode
  | unknownLibraryFunction => .unknownLibraryFunction
  | trace => .malformedTraceLine
  | missingTraceFile => .missingTraceFile
  | traceFormat => .malformedTraceLine

/-- Every kind descends from the general one. -/
theorem getLast?_lineage (kind : Kind) : kind.lineage.getLast? = some general := by
  cases kind <;> rfl

/-- A lineage starts with the kind itself. -/
theorem head?_lineage (kind : Kind) : kind.lineage.head? = some kind := by
  cases kind <;> rfl

end Kind

/-! ## Causes -/

/-- What a diagnostic records of its cause. -/
inductive Cause where
  | general
  | disassembler (command status : Datum)
  | alignment (address mnemonic : Datum)
  | configuration
  | unknownOpcode (opcode : Datum)
  | unknownLibraryFunction (callee : Datum)
  | trace
  | missingTraceFile
  | traceFormat (path line : Datum)

/-- The kind of a cause. -/
def Cause.kind : Cause → Kind
  | general => .general
  | disassembler _ _ => .disassembler
  | alignment _ _ => .alignment
  | configuration => .configuration
  | unknownOpcode _ => .unknownOpcode
  | unknownLibraryFunction _ => .unknownLibraryFunction
  | trace => .trace
  | missingTraceFile => .missingTraceFile
  | traceFormat _ _ => .traceFormat

end Diagnostic

open Diagnostic

/-- `WcetError`: a failure with its message, code and hint. -/
structure Diagnostic where
  cause : Cause
  message : Datum
  code : Code := cause.kind.defaultCode
  hint : Datum := .null

namespace Diagnostic

/-- The kind of a diagnostic. -/
def kind (d : Diagnostic) : Kind := d.cause.kind

/-- The severity of a diagnostic is that of its code. -/
def severity (d : Diagnostic) : Severity := d.code.severity

/-- The hint behind a message, if there is one. -/
def hintMark (hint : Datum) : Except Unshowable String :=
  if hint.isTruthy then hint.shown.map fun shown => " (hint: " ++ shown ++ ")" else .ok ""

/-- `WcetError.__str__`: its code, its message, and its hint if it has one. -/
def shown (d : Diagnostic) : Except Unshowable String := do
  let code ← d.code.shown
  let message ← d.message.shown
  let hint ← hintMark d.hint
  return "[" ++ code ++ "] " ++ message ++ hint

/-! ## Common failures -/

/-- `UnknownOpcodeError`: an opcode without a cost. -/
def ofUnknownOpcode (opcode : Datum) : Except Unshowable Diagnostic :=
  opcode.shown.map fun shown =>
    { cause := .unknownOpcode opcode, message := .text ("Unknown opcode: " ++ shown) }

/-- `UnknownLibraryFunctionError`: a callee that is no priced library routine. -/
def ofUnknownLibraryFunction (callee : Datum) : Except Unshowable Diagnostic :=
  callee.shown.map fun shown =>
    { cause := .unknownLibraryFunction callee
      message := .text ("Unknown library function: " ++ shown) }

/-- A message that is led by a path and the number of a line. -/
def locatedMessage (path line message : String) : String := path ++ ":" ++ line ++ ": " ++ message

/-- `TraceFormatError`: a trace line that cannot be read. The message is led by the place, if there
is a path. -/
def ofTraceFormat (message path line : Datum) : Except Unshowable Diagnostic :=
  if path.isTruthy then do
    let pathShown ← path.shown
    let lineShown ← line.shown
    let messageShown ← message.shown
    return {
      cause := .traceFormat path line
      message := .text (locatedMessage pathShown lineShown messageShown) }
  else .ok { cause := .traceFormat path line, message }

/-- A diagnostic with a text for a message and without a hint can be shown. -/
theorem shown_text {d : Diagnostic} {code message : String} (hcode : d.code.shown = .ok code)
    (hmessage : d.message = .text message) (hhint : d.hint = .null) :
    d.shown = .ok ("[" ++ code ++ "] " ++ message) := by
  simp [shown, hcode, hmessage, hhint, hintMark, Datum.isTruthy, bind, Except.bind, pure,
    Except.pure]

end Diagnostic

end CoreTiming
