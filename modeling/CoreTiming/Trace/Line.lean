import CoreTiming.Diagnostic.Basic
import CoreTiming.Numeral.Literal
import CoreTiming.Text.Occurrence
import CoreTiming.Trace.Fields

/-!
# Trace lines

A trace line holds a time, an event and a program counter, and free text after them. It counts
when its event contains the marker of the core. The program counter is read first, as a marked
literal, and then the time, as a decimal one; the time is divided by the scale and rounded down.
Lines with fewer fields, or without the marker, say nothing (`readLine_of_not_isCore`).
-/

namespace CoreTiming.Trace

open CoreTiming CoreTiming.Text

/-- What is read out of a trace at present. -/
structure Settings where
  /-- The text that the event of a core line contains. -/
  marker : String := "system.cpu"
  /-- The time units of one tick. -/
  scale : Int := 500
  deriving DecidableEq

/-- Why a core line cannot be read. -/
inductive LineFault where
  /-- A field is no literal of its style. -/
  | malformed (style : Numeral.Style) (field : List Char) (reason : Numeral.Rejection)
  /-- The scale is zero. -/
  | zeroScale
  deriving DecidableEq

/-- Reads a field as a literal. -/
def readField (style : Numeral.Style) (field : List Char) : Except LineFault Int :=
  (Numeral.read style field).mapError (.malformed style field)

/-- The time, the event and the program counter of a line with at least three fields. -/
def columns? (line : List Char) : Option (List Char × List Char × List Char) :=
  match fields line with
  | time :: event :: counter :: _ => some (time, event, counter)
  | _ => none

/-- The numbers of a core line as `_parse` reads them: the program counter and the tick. -/
def readColumns (settings : Settings) (time counter : List Char) :
    Except LineFault (Int × Int) := do
  let pc ← readField .marked counter
  let time ← readField .decimal time
  if settings.scale = 0 then .error .zeroScale else .ok (pc, time.fdiv settings.scale)

/-- Whether an event belongs to the core. -/
def isCoreEvent (settings : Settings) (event : List Char) : Bool :=
  occurs settings.marker.toList event

/-- `_parse`: the program counter and the tick of a core line, and nothing of another. -/
def readLine (settings : Settings) (line : List Char) : Except LineFault (Option (Int × Int)) :=
  match columns? line with
  | some (time, event, counter) =>
    if isCoreEvent settings event then (readColumns settings time counter).map some else .ok none
  | none => .ok none

/-- The explanation of a malformed field. -/
def malformedMessage (line : List Char) (style : Numeral.Style) (field : List Char)
    (reason : Numeral.Rejection) : String :=
  "malformed trace line " ++ String.ofList (quoted (trim isSpace line)) ++ ": "
    ++ reason.message style field

/-- Whether a line has three fields and the event of the core in the second. -/
def isCore (settings : Settings) (line : List Char) : Bool :=
  (columns? line).any fun columns => isCoreEvent settings columns.2.1

/-- A line that is not the core's says nothing. -/
theorem readLine_of_not_isCore {settings : Settings} {line : List Char}
    (h : isCore settings line = false) : readLine settings line = .ok none := by
  unfold readLine
  unfold isCore at h
  split
  · rename_i columns
    rw [columns, Option.any_some] at h
    simp [h]
  · rfl

end CoreTiming.Trace
