import CoreTiming.Index
import CoreTiming.Log.Record
import CoreTiming.RunOptions
import CoreTiming.Text.Lines
import CoreTiming.Text.Utf8
import CoreTiming.Trace.Line

/-!
# Reading traces

A reader hands out the core events of a trace file in passes. Each pass is lazy: only when it is
first advanced does it look at the trace file that is set then, start the count of events anew,
and open the file. From there on it keeps to that file, while marker and scale are those of the
moment. The count belongs to the reader, so overlapping passes share it, and an event bears the
count from before it was handed out. What opening a path comes to is up to the system, and taken as
given (`Opening`).

Passes are numbered in the order in which they began, and an index leads to a pass as it does to an
entry of a list (`Reader.passNumber`). A pass ends when its file does, which is logged, when it
faults, or when it is closed (`advance_finished`). `drain` runs a pass to its end at once.
-/

namespace CoreTiming.Trace

open CoreTiming CoreTiming.Text

/-! ## Faults -/

/-- Why a path cannot be opened: the number of the error, where the system has one for it, and the
explanation. -/
structure OpenFault where
  number : Option Nat := none
  message : String
  deriving DecidableEq

/-- What opening a path comes to: the bytes of a file, or why there are none. -/
abbrev Opening := String → Except OpenFault (List UInt8)

/-- Why a pass fails. -/
inductive Fault where
  /-- No trace file is set. -/
  | noFile
  /-- The trace file cannot be opened. -/
  | unopened (reason : OpenFault)
  /-- A core line, by its path and number, cannot be read. -/
  | malformed (path : String) (number : Nat) (line : List Char) (style : Numeral.Style)
      (field : List Char) (reason : Numeral.Rejection)
  /-- The scale is zero. -/
  | zeroScale
  deriving DecidableEq

/-- The complaint that no trace file is set. -/
def noFileDiagnostic : Diagnostic :=
  { cause := .missingTraceFile, message := .text "No RISCV trace file specified" }

/-- A malformed line as a diagnostic. -/
def malformedDiagnostic (path : String) (number : Nat) (message : String) : Diagnostic :=
  { cause := .traceFormat (.text path) (.int number)
    message := .text (Diagnostic.locatedMessage path (Numeral.decimal number) message) }

/-- The diagnostic of a fault, unless the fault is the system's. -/
def Fault.diagnostic? : Fault → Option Diagnostic
  | .noFile => some noFileDiagnostic
  | .unopened _ => none
  | .malformed path number line style field reason =>
    some (malformedDiagnostic path number (malformedMessage line style field reason))
  | .zeroScale => none

/-- A fault of a line at its place. -/
def LineFault.located (path : String) (number : Nat) (line : List Char) : LineFault → Fault
  | .malformed style field reason => .malformed path number line style field reason
  | .zeroScale => .zeroScale

/-! ## Passes -/

/-- The lines of a trace file. -/
def openLines (opening : Opening) (path : String) : Except OpenFault (List (List Char)) :=
  (opening path).map fun content => lines (decodeUtf8 content)

/-- `TraceEvent`: the program counter, the tick, and the count of events before it. -/
structure Event where
  pc : Int
  tick : Int
  index : Nat
  deriving DecidableEq

/-- A pass over a trace: what `for_each` returns, and how far it was advanced. -/
inductive Pass where
  /-- Not advanced yet. -/
  | waiting
  /-- In a file, after the line of the given number, with the lines left. -/
  | reading (path : String) (number : Nat) (rest : List (List Char))
  /-- At its end. -/
  | finished
  deriving DecidableEq

/-- What the next core line of some lines says. -/
inductive Found where
  | event (pc tick : Int) (number : Nat) (rest : List (List Char))
  | fault (reason : Fault)
  | exhausted
  deriving DecidableEq

/-- Looks for the next core line. -/
def seek (settings : Settings) (path : String) (number : Nat) : List (List Char) → Found
  | [] => .exhausted
  | line :: rest =>
    match readLine settings line with
    | .error e => .fault (e.located path (number + 1) line)
    | .ok (some (pc, tick)) => .event pc tick (number + 1) rest
    | .ok none => seek settings path (number + 1) rest

/-- The record of a pass that came to the end of its file. -/
def finishedRecord (count : Nat) (path : String) : Log.Record where
  level := .info
  channel := .trace
  message := .ok ("Read " ++ Numeral.decimal count ++ " core events from " ++ path)

/-! ## Readers -/

/-- `WildcatSimulatorTrace`: its options and settings, its count of events (`stats_num_items`), and
the passes begun so far. -/
structure Reader where
  options : RunOptions := {}
  settings : Settings := {}
  count : Nat := 0
  passes : List Pass := []
  deriving DecidableEq

/-- What one advance of a pass brings: the pass and the count after it, the records, and an
event, a fault, or the end. -/
structure Advance where
  pass : Pass
  count : Nat
  records : List Log.Record := []
  outcome : Except Fault (Option Event)

/-- `for_each` from one event to the next. -/
def advanceReading (settings : Settings) (count : Nat) (path : String) (number : Nat)
    (rest : List (List Char)) : Advance :=
  match seek settings path number rest with
  | .event pc tick number rest =>
    { pass := .reading path number rest
      count := count + 1
      outcome := .ok (some ⟨pc, tick, count⟩) }
  | .fault reason => { pass := .finished, count, outcome := .error reason }
  | .exhausted =>
    { pass := .finished, count, records := [finishedRecord count path], outcome := .ok none }

/-- `for_each` up to its first event. -/
def advanceWaiting (opening : Opening) (options : RunOptions) (settings : Settings) (count : Nat) :
    Advance :=
  match nonempty? options.trace with
  | none => { pass := .finished, count, outcome := .error .noFile }
  | some path =>
    match openLines opening path with
    | .error e => { pass := .finished, count := 0, outcome := .error (.unopened e) }
    | .ok rest => advanceReading settings 0 path 0 rest

/-- Advances a pass of `for_each`. -/
def advance (opening : Opening) (options : RunOptions) (settings : Settings) (count : Nat) :
    Pass → Advance
  | .waiting => advanceWaiting opening options settings count
  | .reading path number rest => advanceReading settings count path number rest
  | .finished => { pass := .finished, count, outcome := .ok none }

/-- A pass at its end stays there. -/
@[simp] theorem advance_finished (opening : Opening) (options : RunOptions) (settings : Settings)
    (count : Nat) :
    advance opening options settings count .finished
      = { pass := .finished, count, outcome := .ok none } := rfl

/-! ## Whole passes -/

/-- What a pass run to its end has brought. -/
structure Drained where
  count : Nat
  events : List Event := []
  records : List Log.Record := []
  outcome : Except Fault Unit

/-- Runs a pass within its file to its end. -/
def drainLines (settings : Settings) (path : String) (count number : Nat) :
    List (List Char) → Drained
  | [] => { count, records := [finishedRecord count path], outcome := .ok () }
  | line :: rest =>
    match readLine settings line with
    | .error e => { count, outcome := .error (e.located path (number + 1) line) }
    | .ok none => drainLines settings path count (number + 1) rest
    | .ok (some (pc, tick)) =>
      let later := drainLines settings path (count + 1) (number + 1) rest
      { later with events := ⟨pc, tick, count⟩ :: later.events }

/-- `for_each` run to its end. -/
def drain (opening : Opening) (options : RunOptions) (settings : Settings) (count : Nat) :
    Drained :=
  match nonempty? options.trace with
  | none => { count, outcome := .error .noFile }
  | some path =>
    match openLines opening path with
    | .error e => { count := 0, outcome := .error (.unopened e) }
    | .ok rest => drainLines settings path 0 0 rest

namespace Reader

/-! ## Operations -/

/-- Begins a pass, as `for_each` and `__iter__` do, and returns its number. -/
def begin (reader : Reader) : Nat × Reader :=
  (reader.passes.length, { reader with passes := reader.passes ++ [.waiting] })

/-- The number of the pass that an index leads to. -/
def passNumber (reader : Reader) (index : Int) : Except OutOfRange Nat :=
  Index.position reader.passes.length index

/-- Advances the pass of a number; there is nothing to advance under another number. -/
def next (reader : Reader) (opening : Opening) (pass : Nat) :
    Reader × List Log.Record × Except Fault (Option Event) :=
  let current := reader.passes[pass]?.getD .finished
  let step := advance opening reader.options reader.settings reader.count current
  ({ reader with count := step.count, passes := reader.passes.set pass step.pass },
    step.records, step.outcome)

/-- Closes the pass of a number. -/
def close (reader : Reader) (pass : Nat) : Reader :=
  { reader with passes := reader.passes.set pass .finished }

/-- Runs a new pass to its end, without giving it a number. -/
def readAll (reader : Reader) (opening : Opening) : Reader × Drained :=
  let drained := drain opening reader.options reader.settings reader.count
  ({ reader with count := drained.count }, drained)

/-- Sets the trace file. -/
def setTrace (reader : Reader) (name : Option String) : Reader :=
  { reader with options := { reader.options with trace := name } }

/-- Sets the time units of one tick. -/
def setScale (reader : Reader) (scale : Int) : Reader :=
  { reader with settings := { reader.settings with scale } }

/-- Sets the marker of the core. -/
def setMarker (reader : Reader) (marker : String) : Reader :=
  { reader with settings := { reader.settings with marker } }

end Reader

end CoreTiming.Trace
