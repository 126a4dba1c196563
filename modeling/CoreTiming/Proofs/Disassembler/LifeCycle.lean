import Mathlib.Data.List.Basic
import CoreTiming.Disassembler.Extraction

/-!
# The life of a disassembler process

An extraction ends in one of five ways, and each has one row of process events: none where no
process runs, `kill` and `leave` where the pass over the output faults, and `wait` and `leave` where
it completes, whatever the exit status is worth (`LifeCycle`).

Results:
* `extract_of_unreadable`, `extract_of_refused`, `extract_of_fault`, `extract_of_tally`: what an
  extraction does and how it ends, case by case;
* `events_extract`: the rows of process events;
* `extract_lifeCycle`: the life cycle of every extraction, for a binary and for options.
-/

namespace CoreTiming.Disassembler

open CoreTiming CoreTiming.Alignment

/-! ## Specification -/

/-- The bound of exit statuses: no process ends with a status of more than 32 bits. -/
def statusBound : Nat := 0x100000000

/-- What an extraction from a binary does and how it ends: by its disassembler command, by the
    answer to the start of the process, and by the pass over the lines of the output. -/
structure LifeCycle (rules : Rules) (program : Program) (launch : Launch)
    (disassembler binary : String) (done : Extraction) : Prop where
  /-- A command that cannot be cut into words starts no process, and nothing is reported. -/
  unreadable : ∀ reason, CommandLine.split disassembler = .error reason →
    done = { outcome := .error (.unreadable reason) }
  /-- A process that cannot be started is tried once, and reported with the quoted command and
      without a status. -/
  refused : ∀ words reason, CommandLine.split disassembler = .ok words → launch = .refused reason →
    let command := CommandLine.join (words ++ flags ++ [binary])
    done.starts = [words ++ flags ++ [binary]] ∧ done.events = [] ∧ done.journal.reports = []
      ∧ done.outcome = .error (.notStarted command reason)
      ∧ (notStartedDiagnostic command reason).cause = .disassembler (.text command) .null
  /-- A process that runs is started once, and what is reported is what the pass over its output
      reports. -/
  started : ∀ words output status, CommandLine.split disassembler = .ok words →
    launch = .started output status →
      done.starts = [words ++ flags ++ [binary]]
        ∧ done.journal.reports = (align rules program (outputLines output)).1.reports
  /-- A pass that faults has the process killed and left, and its fault is the failure, whatever
      the exit status. -/
  faulted : ∀ words output status fault, CommandLine.split disassembler = .ok words →
    launch = .started output status →
      (align rules program (outputLines output)).2 = .error fault →
        done.events = [.kill, .leave] ∧ done.outcome = .error (.misaligned fault)
  /-- After a pass that completes the process is waited for and left. The tally is handed on
      exactly when the status is zero, and any other status that a process can have is reported
      with the quoted command. A number that is no status of any process is reported like one, up
      to the limit of decimals. -/
  completed : ∀ words output status tally, CommandLine.split disassembler = .ok words →
    launch = .started output status →
      (align rules program (outputLines output)).2 = .ok tally →
        let command := CommandLine.join (words ++ flags ++ [binary])
        done.events = [.wait, .leave] ∧ (done.outcome = .ok tally ↔ status = 0)
          ∧ (status ≠ 0 → status.natAbs < statusBound →
            done.outcome = .error (.badStatus command status))
          ∧ (badStatusDiagnostic command status).cause
            = .disassembler (.text command) (.int status)
          ∧ (status ≠ 0 → done.outcome = .error
            (if Numeral.isWritable status then .badStatus command status
              else .unshowable .tooManyDigits))

/-! ## Extractions case by case -/

variable {rules : Rules} {program : Program} {launch : Launch} {disassembler binary : String}

/-- What is logged before a process is started. -/
def announced (argv : List String) : Journal where
  records := [announcement (CommandLine.join argv)]

theorem arguments_of_split {words : List String}
    (h : CommandLine.split disassembler = .ok words) (binary : String) :
    arguments disassembler binary = .ok (words ++ flags ++ [binary]) := by
  rw [arguments, h]
  rfl

theorem extract_of_unreadable {reason : CommandLine.SplitError}
    (h : CommandLine.split disassembler = .error reason) :
    extract rules program launch disassembler binary
      = { outcome := .error (.unreadable reason) } := by
  have harguments : arguments disassembler binary = .error reason := by
    rw [arguments, h]
    rfl
  simp only [extract, disassemble, harguments, Except.mapError, Session.after_bind,
    Session.after_give]

theorem extract_of_refused {argv : List String} (h : arguments disassembler binary = .ok argv)
    (reason : String) :
    extract rules program (.refused reason) disassembler binary
      = { starts := [argv]
          journal := announced argv
          outcome := .error (.notStarted (CommandLine.join argv) reason) } := by
  simp only [extract, disassemble, h, Except.mapError, Session.after_bind, Session.after_give,
    Session.after_enter, Session.after_start_refused]
  rfl

theorem extract_of_fault {argv : List String} (h : arguments disassembler binary = .ok argv)
    {output : List UInt8} {journal : Journal} {fault : Fault}
    (hpass : align rules program (outputLines output) = (journal, .error fault)) (status : Int) :
    extract rules program (.started output status) disassembler binary
      = { starts := [argv]
          events := [.kill, .leave]
          journal := announced argv ++ journal
          outcome := .error (.misaligned fault) } := by
  simp only [extract, disassemble, h, hpass, Except.mapError, Session.after_bind,
    Session.after_give, Session.after_enter, Session.after_start_started, Session.after_leaving,
    Session.after_killingOnFailure, Session.after_follow]
  rfl

theorem extract_of_tally {argv : List String} (h : arguments disassembler binary = .ok argv)
    {output : List UInt8} {journal : Journal} {tally : Tally}
    (hpass : align rules program (outputLines output) = (journal, .ok tally)) (status : Int) :
    extract rules program (.started output status) disassembler binary
      = { starts := [argv]
          events := [.wait, .leave]
          journal := announced argv ++ journal
          outcome := judgeStatus (CommandLine.join argv) status tally } := by
  simp only [extract, disassemble, h, hpass, Except.mapError, Session.after_bind,
    Session.after_give, Session.after_enter, Session.after_start_started, Session.after_leaving,
    Session.after_killingOnFailure, Session.after_follow, Session.after_wait]
  rfl

/-- No process is touched, or the one that was started is left at the end, and either killed or
    waited for before. -/
theorem events_extract (rules : Rules) (program : Program) (launch : Launch)
    (disassembler binary : String) :
    let done := extract rules program launch disassembler binary
    done.events = []
      ∨ ∃ argv, done.starts = [argv]
        ∧ (done.events = [.kill, .leave] ∨ done.events = [.wait, .leave]) := by
  intro done
  cases hsplit : CommandLine.split disassembler with
  | error reason =>
    have hdone : done = _ := extract_of_unreadable hsplit
    exact .inl (by rw [hdone])
  | ok words =>
    have harguments := arguments_of_split hsplit binary
    cases launch with
    | refused reason =>
      have hdone : done = _ := extract_of_refused harguments reason
      exact .inl (by rw [hdone])
    | started output status =>
      refine .inr ⟨words ++ flags ++ [binary], ?_⟩
      rcases hpass : align rules program (outputLines output) with ⟨journal, fault | tally⟩
      · have hdone : done = _ := extract_of_fault harguments hpass status
        rw [hdone]
        exact ⟨rfl, .inl rfl⟩
      · have hdone : done = _ := extract_of_tally harguments hpass status
        rw [hdone]
        exact ⟨rfl, .inr rfl⟩

/-! ## Exit statuses -/

theorem judgeStatus_eq_ok_iff {command : String} {status : Int} {tally : Tally} :
    judgeStatus command status tally = .ok tally ↔ status = 0 := by
  unfold judgeStatus
  split
  · simp [*]
  · split <;> simp [*]

theorem judgeStatus_of_ne_zero {status : Int} (hne : status ≠ 0) (command : String)
    (tally : Tally) :
    judgeStatus command status tally = .error
      (if Numeral.isWritable status then .badStatus command status
        else .unshowable .tooManyDigits) := by
  rw [judgeStatus, if_neg hne]
  split <;> rfl

theorem isWritable_of_lt_statusBound {status : Int} (h : status.natAbs < statusBound) :
    Numeral.isWritable status = true := by
  have hbound : statusBound ≤ Nat.pow 10 Numeral.digitLimit := by decide +kernel
  exact decide_eq_true (Nat.lt_of_lt_of_le h hbound)

theorem judgeStatus_of_lt_statusBound {status : Int} (hne : status ≠ 0)
    (h : status.natAbs < statusBound) (command : String) (tally : Tally) :
    judgeStatus command status tally = .error (.badStatus command status) := by
  rw [judgeStatus_of_ne_zero hne, isWritable_of_lt_statusBound h]
  rfl

/-! ## The life cycle -/

theorem lifeCycle_extract (rules : Rules) (program : Program) (launch : Launch)
    (disassembler binary : String) :
    LifeCycle rules program launch disassembler binary
      (extract rules program launch disassembler binary) := by
  constructor
  case unreadable => exact fun _ => extract_of_unreadable
  case refused =>
    rintro words reason hsplit rfl
    rw [extract_of_refused (arguments_of_split hsplit binary)]
    exact ⟨rfl, rfl, rfl, rfl, rfl⟩
  case started =>
    rintro words output status hsplit rfl
    have harguments := arguments_of_split hsplit binary
    rcases hpass : align rules program (outputLines output) with ⟨journal, fault | tally⟩
    · rw [extract_of_fault harguments hpass]
      exact ⟨rfl, rfl⟩
    · rw [extract_of_tally harguments hpass]
      exact ⟨rfl, rfl⟩
  case faulted =>
    rintro words output status fault hsplit rfl hfault
    rw [extract_of_fault (arguments_of_split hsplit binary) (Prod.ext rfl hfault)]
    exact ⟨rfl, rfl⟩
  case completed =>
    rintro words output status tally hsplit rfl htally
    rw [extract_of_tally (arguments_of_split hsplit binary) (Prod.ext rfl htally)]
    exact ⟨rfl, judgeStatus_eq_ok_iff, fun hne h => judgeStatus_of_lt_statusBound hne h _ _, rfl,
      fun hne => judgeStatus_of_ne_zero hne _ _⟩

/-- **The life of a disassembler process.** Whatever the rules, the program, the disassembler
    command, the binary, and the answer to the start of the process, an extraction from the binary
    has the life cycle above. So has an extraction for options that name a binary, under the
    standard rules, with the standard command where the options name none. Without a binary, or
    with an empty one, nothing is started, reported or logged, and the configuration is to
    blame. -/
theorem extract_lifeCycle (rules : Rules) (program : Program) (launch : Launch)
    (disassembler binary : String) :
    LifeCycle rules program launch disassembler binary
        (extract rules program launch disassembler binary)
      ∧ (∀ options : RunOptions, options.binary = some binary → binary ≠ "" →
        LifeCycle {} program launch ((nonempty? options.disassembler).getD defaultCommand) binary
          (extractWith options program launch))
      ∧ ∀ options : RunOptions, options.binary = none ∨ options.binary = some "" →
        extractWith options program launch = { outcome := .error .noBinary }
          ∧ noBinaryDiagnostic.cause = .configuration := by
  refine ⟨lifeCycle_extract rules program launch disassembler binary, ?_, ?_⟩
  · intro options hbinary hne
    have hnonempty : nonempty? options.binary = some binary := by simp [nonempty?, hbinary, hne]
    rw [extractWith, hnonempty]
    exact lifeCycle_extract _ _ _ _ _
  · intro options hempty
    have hnonempty : nonempty? options.binary = none := by
      rcases hempty with h | h <;> rw [h]
      · exact nonempty?_none
      · exact nonempty?_empty
    rw [extractWith, hnonempty]
    exact ⟨rfl, rfl⟩

/-- A subroutine of one instruction. -/
def loadUpper : Program := ⟨[⟨"f", [{ opcode := .text "LUI" }]⟩], by decide⟩

/-- The bytes of a listing of it that shows a mnemonic. -/
def listingWith (mnemonic : String) : List UInt8 :=
  ("00000000 <f>:\n 0: " ++ mnemonic ++ "\n").toList.map fun c => c.toNat.toUInt8

theorem extract_lifeCycle_launched :
    (extract {} loadUpper (.started (listingWith "li") 0) "objdump -C" "a.elf").events
        = [.kill, .leave]
      ∧ (extract {} loadUpper (.started (listingWith "lui") 3) "objdump -C" "a.elf").events
        = [.wait, .leave]
      ∧ (extract {} loadUpper (.started (listingWith "lui") 3) "objdump -C" "a.elf").outcome
        = .error (.badStatus "objdump -C -d --no-show-raw-insn a.elf" 3)
      ∧ (extractWith { binary := some "a.elf" } loadUpper (.started (listingWith "lui") 0)).outcome
        = .ok { symbols := 1, instructions := 1 } := by
  have hsplit : CommandLine.split "objdump -C" = .ok ["objdump", "-C"] := by decide +kernel
  have hdefault : CommandLine.split defaultCommand = .ok [defaultCommand] := by decide +kernel
  have hfault : (align {} loadUpper (outputLines (listingWith "li"))).2
      = .error (.mismatch (.int 0) "li" "lui") := by decide +kernel
  have htally : (align {} loadUpper (outputLines (listingWith "lui"))).2
      = .ok { symbols := 1, instructions := 1 } := by decide +kernel
  obtain ⟨hkilled, -⟩ :=
    extract_lifeCycle {} loadUpper (.started (listingWith "li") 0) "objdump -C" "a.elf"
  obtain ⟨hwaited, -⟩ :=
    extract_lifeCycle {} loadUpper (.started (listingWith "lui") 3) "objdump -C" "a.elf"
  obtain ⟨-, hoptions, -⟩ :=
    extract_lifeCycle {} loadUpper (.started (listingWith "lui") 0) defaultCommand "a.elf"
  obtain ⟨hevents, -, hstatus, -⟩ := hwaited.completed _ _ _ _ hsplit rfl htally
  obtain ⟨-, hzero, -⟩ := (hoptions { binary := some "a.elf" } rfl (by decide)).completed
    _ _ _ _ hdefault rfl htally
  have houtcome := hstatus (by decide) (by decide)
  exact ⟨(hkilled.faulted _ _ _ _ hsplit rfl hfault).1, hevents,
    houtcome.trans (by decide +kernel), hzero.mpr rfl⟩

end CoreTiming.Disassembler
