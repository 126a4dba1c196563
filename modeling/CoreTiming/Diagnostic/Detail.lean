import CoreTiming.Arguments
import CoreTiming.Diagnostic.Basic

/-!
# Stating a diagnostic

The enclosing tool states a failure by its kind, a subject, and details by name. The subject is
the message, or for some kinds the datum that is unknown. Each kind takes details of its own
names (`Kind.detailNames`); of the others the first is refused.
-/

namespace CoreTiming.Diagnostic

/-! ## Details -/

/-- The value of a detail. -/
inductive Detail where
  /-- A code, or none to keep that of the kind. -/
  | code (value : Option Code)
  | datum (value : Datum)

namespace Kind

/-- The kind that sets the details of a kind. -/
def template : Kind → Kind
  | configuration | trace | missingTraceFile => general
  | kind => kind

/-- The names of the details that a kind takes. -/
def detailNames (kind : Kind) : List String :=
  match kind.template with
  | disassembler => ["command", "returncode", "hint"]
  | alignment => ["address", "mnemonic", "hint"]
  | unknownOpcode | unknownLibraryFunction => []
  | traceFormat => ["path", "line_number"]
  | _ => ["code", "hint"]

/-- The name of the subject of a kind. -/
def subjectName : Kind → String
  | unknownOpcode => "opcode"
  | unknownLibraryFunction => "function"
  | _ => "message"

end Kind

/-- The signature of the statement of a kind. The subject and the diagnostic itself are set. -/
def Kind.signature (kind : Kind) : Signature where
  operation := kind.template.name ++ ".__init__"
  names := kind.detailNames
  present := ["self", kind.subjectName]

/-! ## Statements -/

/-- The datum of a detail. -/
def datumUnder (details : List (String × Detail)) (name : String) (absent : Datum) : Datum :=
  match details.lookup name with
  | some (.datum value) => value
  | _ => absent

/-- The code of a detail, or that of the kind. -/
def codeUnder (details : List (String × Detail)) (kind : Kind) : Code :=
  match details.lookup "code" with
  | some (.code (some value)) => value
  | _ => kind.defaultCode

/-- The diagnostic of a cause, whose message is the subject itself. -/
def ofCause (subject : Datum) (details : List (String × Detail)) (cause : Cause) : Diagnostic :=
  { cause
    message := subject
    code := codeUnder details cause.kind
    hint := datumUnder details "hint" .null }

/-- The diagnostic of a kind, a subject and details that the kind takes. -/
def ofTaken (subject : Datum) (details : List (String × Detail)) :
    Kind → Except Unshowable Diagnostic
  | .general => .ok (ofCause subject details .general)
  | .disassembler =>
    .ok (ofCause subject details (.disassembler (datumUnder details "command" (.text ""))
      (datumUnder details "returncode" .null)))
  | .alignment =>
    .ok (ofCause subject details (.alignment (datumUnder details "address" .null)
      (datumUnder details "mnemonic" (.text ""))))
  | .configuration => .ok (ofCause subject details .configuration)
  | .unknownOpcode => ofUnknownOpcode subject
  | .unknownLibraryFunction => ofUnknownLibraryFunction subject
  | .trace => .ok (ofCause subject details .trace)
  | .missingTraceFile => .ok (ofCause subject details .missingTraceFile)
  | .traceFormat =>
    ofTraceFormat subject (datumUnder details "path" (.text ""))
      (datumUnder details "line_number" (.int 0))

/-- Why a statement makes no diagnostic. -/
inductive StatementFault where
  | refused (reason : Refusal)
  | unshowable (reason : Unshowable)
  deriving DecidableEq

/-- The diagnostic of a kind, a subject and details. -/
def ofDetails (kind : Kind) (subject : Datum) (details : List (String × Detail)) :
    Except StatementFault Diagnostic :=
  match kind.signature.firstRefusal? (details.map (·.1)) with
  | some reason => .error (.refused reason)
  | none => (ofTaken subject details kind).mapError .unshowable

end CoreTiming.Diagnostic
