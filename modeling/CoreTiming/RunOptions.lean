import CoreTiming.Arguments
import CoreTiming.Datum.Basic
import CoreTiming.Disassembler.Command

/-!
# Analysis options

What the enclosing tool sets for one run: the binary, the trace file, and the disassembler. It
states some of the settings by name, and the others keep their standard values (`settle_nil`).
-/

namespace CoreTiming

/-- `AnalysisOptions`: the options of an analysis run. -/
structure RunOptions where
  binary : Option String := none
  trace : Option String := none
  disassembler : Option String := some Disassembler.defaultCommand
  deriving DecidableEq

namespace RunOptions

/-- A setting as a datum. -/
def settingDatum : Option String → Datum
  | some value => .text value
  | none => .null

/-- The settings by name, in order. -/
def settings (options : RunOptions) : List (String × Datum) :=
  [("binary_file", settingDatum options.binary), ("trace_file", settingDatum options.trace),
    ("objdump", settingDatum options.disassembler)]

/-- The settings that hold where none is stated. -/
def standard : RunOptions := {}

/-- The signature of a statement of settings. -/
def signature : Signature where
  operation := "AnalysisOptions.__init__"
  names := standard.settings.map (·.1)
  present := ["self"]

/-- All settings in order, where some are stated by name. -/
def settle (stated : List (String × Datum)) : Except Refusal (List Datum) :=
  match signature.firstRefusal? (stated.map (·.1)) with
  | some reason => .error reason
  | none => .ok (standard.settings.map fun (name, value) => (stated.lookup name).getD value)

/-- Where nothing is stated, every setting is the standard one. -/
theorem settle_nil : settle [] = .ok (standard.settings.map (·.2)) := rfl

end RunOptions

/-- A setting that holds some text; an empty text counts as unset. -/
def nonempty? (setting : Option String) : Option String := setting.filter fun text => text ≠ ""

@[simp] theorem nonempty?_none : nonempty? none = none := rfl

@[simp] theorem nonempty?_empty : nonempty? (some "") = none := rfl

end CoreTiming
