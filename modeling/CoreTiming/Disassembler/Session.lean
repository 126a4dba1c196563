import CoreTiming.Alignment.Journal
import CoreTiming.CommandLine.Quote
import CoreTiming.CommandLine.Split

/-!
# Sessions with a process

A session starts a process, takes in what an alignment pass makes of its output, and leaves the
process. It may fail at any point, and what it has done by then stays done (`Course`).

Two guards see to the end of a process: a guarded part that fails has the process killed
(`killingOnFailure`), and however a guarded part ends, the process is left (`leaving`). Both hand
the ending on as it is (`after_killingOnFailure`, `after_leaving`).
-/

namespace CoreTiming.Disassembler

open CoreTiming CoreTiming.Alignment

/-! ## Processes -/

/-- How the system answers the start of a process. -/
inductive Launch where
  /-- The process could not be started, for a reason. -/
  | refused (reason : String)
  /-- The process wrote some bytes and ended with a status. -/
  | started (output : List UInt8) (status : Int)

/-- What is done to a process once it runs. -/
inductive Event where
  | kill
  | wait
  | leave
  deriving DecidableEq

/-- Why a session fails. -/
inductive Failure where
  /-- The disassembler command cannot be cut into words. -/
  | unreadable (reason : CommandLine.SplitError)
  /-- No binary is set. -/
  | noBinary
  /-- The command can be read, but there is no path to follow it. -/
  | noPath
  /-- The process could not be started. -/
  | notStarted (command reason : String)
  /-- The process ended with a status other than zero. -/
  | badStatus (command : String) (status : Int)
  /-- The process ended with a status beyond the limit of decimals. -/
  | unshowable (reason : Unshowable)
  /-- The pass over the output faulted. -/
  | misaligned (fault : Fault)
  deriving DecidableEq

/-! ## Sessions -/

/-- What a session has done: the argument vectors of the processes it tried to start, what it did
to them, and what it reported and logged. -/
structure Course where
  starts : List (List String) := []
  events : List Event := []
  journal : Journal := {}
  deriving DecidableEq

/-- A computation that may fail and that records what it does. -/
abbrev Session (α : Type) := ExceptT Failure (StateM Course) α

namespace Session

variable {α β : Type}

/-- How a session ends that is begun when some things have been done, and all that is done then. -/
def after (session : Session α) (course : Course) : Except Failure α × Course :=
  session.run.run course

/-- Does something to the process. -/
def act (event : Event) : StateM Course Unit :=
  modify fun course => { course with events := course.events ++ [event] }

/-- Reports, counts and logs. -/
def enter (journal : Journal) : Session Unit :=
  modify fun course => { course with journal := course.journal ++ journal }

/-- Ends as given, and does nothing else. -/
def give (ending : Except Failure α) : Session α := ExceptT.mk (pure ending)

/-- Starts a process, for its output and its exit status. -/
def start (argv : List String) (launch : Launch) : Session (List UInt8 × Int) := do
  modify fun course => { course with starts := course.starts ++ [argv] }
  match launch with
  | .refused reason => throw (.notStarted (CommandLine.join argv) reason)
  | .started output status => return (output, status)

/-- Takes a pass in. What it has reported stays reported when it faults. -/
def follow (pass : Journal × Except Fault Tally) : Session Tally := do
  enter pass.1
  give (pass.2.mapError .misaligned)

/-- Waits for the process to end, for its exit status. -/
def wait (status : Int) : Session Int := do
  act .wait
  return status

/-- The part of a session in which any failure has the process killed. -/
def killingOnFailure (part : Session α) : Session α := ExceptT.mk do
  let ending ← part.run
  if ending matches .error _ then act .kill
  return ending

/-- The part of a session after which the process is left, however that part ends. -/
def leaving (part : Session α) : Session α := ExceptT.mk do
  let ending ← part.run
  act .leave
  return ending

/-! ## Laws -/

/-- Two parts one after the other: the second goes on from where the first ends well. -/
theorem after_bind (session : Session α) (next : α → Session β) (course : Course) :
    (session >>= next).after course =
      match session.after course with
      | (.ok a, later) => (next a).after later
      | (.error failure, later) => (.error failure, later) := by
  change (ExceptT.bindCont next (session.after course).1).run (session.after course).2 = _
  rcases session.after course with ⟨_ | _, _⟩ <;> rfl

theorem after_give (ending : Except Failure α) (course : Course) :
    (give ending).after course = (ending, course) := rfl

theorem after_enter (journal : Journal) (course : Course) :
    (enter journal).after course = (.ok (), { course with journal := course.journal ++ journal }) :=
  rfl

/-- A process that is refused has been tried once. -/
theorem after_start_refused (argv : List String) (reason : String) (course : Course) :
    (start argv (.refused reason)).after course
      = (.error (.notStarted (CommandLine.join argv) reason),
        { course with starts := course.starts ++ [argv] }) := rfl

theorem after_start_started (argv : List String) (output : List UInt8) (status : Int)
    (course : Course) :
    (start argv (.started output status)).after course
      = (.ok (output, status), { course with starts := course.starts ++ [argv] }) := rfl

/-- A pass ends as it does, with all it has reported. -/
theorem after_follow (pass : Journal × Except Fault Tally) (course : Course) :
    (follow pass).after course
      = (pass.2.mapError .misaligned, { course with journal := course.journal ++ pass.1 }) := rfl

theorem after_wait (status : Int) (course : Course) :
    (wait status).after course
      = (.ok status, { course with events := course.events ++ [.wait] }) := rfl

/-- A part that ends well goes on as it is, and one that fails has the process killed and fails as
it did. -/
theorem after_killingOnFailure (part : Session α) (course : Course) :
    (killingOnFailure part).after course =
      match part.after course with
      | (.ok a, later) => (.ok a, later)
      | (.error failure, later) =>
        (.error failure, { later with events := later.events ++ [.kill] }) := by
  have hpart : (killingOnFailure part).after course
      = (do
        if (part.after course).1 matches .error _ then act .kill
        return (part.after course).1 : StateM Course _).run (part.after course).2 := rfl
  rw [hpart]
  rcases part.after course with ⟨_ | _, later⟩ <;> rfl

/-- The process is left once, and the ending stays as it is. -/
theorem after_leaving (part : Session α) (course : Course) :
    (leaving part).after course
      = ((part.after course).1,
        { (part.after course).2 with events := (part.after course).2.events ++ [.leave] }) := rfl

end Session

end CoreTiming.Disassembler
