import CoreTiming.Proofs.CommandLine.Written
import CoreTiming.Proofs.Disassembler.LifeCycle

/-!
# The command of a disassembler process

The argument vector of a process is made from a command line, and a failure of the process shows
the vector as a command line again. Neither way loses anything: the words of the command line come
first in the vector, the path of the binary is its last word, and the command that a failure shows
is cut into the vector.

Results:
* `arguments_join`: the argument vector of a command line joined of words;
* `showsCommand_of_reported`: a failure of the process shows that vector;
* `command_extract`: the command that an extraction reports is the one it started.
-/

namespace CoreTiming.Disassembler

open CoreTiming CoreTiming.Alignment

/-! ## Specification -/

/-- A failure of a process, as the diagnostic it is reported by. -/
inductive Failure.Reported : Failure → Diagnostic → Prop
  | notStarted (command reason : String) :
      Reported (.notStarted command reason) (notStartedDiagnostic command reason)
  | badStatus (command : String) (status : Int) :
      Reported (.badStatus command status) (badStatusDiagnostic command status)

/-- A diagnostic shows a command: it carries the command as data, and its message quotes it. -/
def ShowsCommand (diagnostic : Diagnostic) (command : String) : Prop :=
  (∃ status, diagnostic.cause = .disassembler (.text command) status)
    ∧ ∃ rest, diagnostic.message = .text ("The objdump command '" ++ command ++ "'" ++ rest)

/-! ## Argument vectors -/

theorem arguments_join (words : List String) (binary : String) :
    arguments (CommandLine.join words) binary = .ok (words ++ flags ++ [binary]) :=
  arguments_of_split (CommandLine.split_join words) binary

/-! ## Reported commands -/

theorem showsCommand_notStarted (command reason : String) :
    ShowsCommand (notStartedDiagnostic command reason) command := by
  refine ⟨⟨.null, rfl⟩, " could not be started: " ++ reason, ?_⟩
  have hrest : "' could not be started: " = "'" ++ " could not be started: " := by decide
  rw [notStartedDiagnostic, hrest]
  simp only [String.append_assoc]

theorem showsCommand_badStatus (command : String) (status : Int) :
    ShowsCommand (badStatusDiagnostic command status) command := by
  refine ⟨⟨.int status, rfl⟩, " exited with status " ++ Numeral.decimal status, ?_⟩
  have hrest : "' exited with status " = "'" ++ " exited with status " := by decide
  rw [badStatusDiagnostic, hrest]
  simp only [String.append_assoc]

/-- A failure of the process shows the argument vector that the process was started with. -/
theorem showsCommand_of_reported {argv : List String} {launch : Launch}
    {disassembler binary : String} (h : arguments disassembler binary = .ok argv) (rules : Rules)
    (program : Program) {failure : Failure} {diagnostic : Diagnostic}
    (hfails : (extract rules program launch disassembler binary).outcome = .error failure)
    (hreported : failure.Reported diagnostic) :
    ShowsCommand diagnostic (CommandLine.join argv) := by
  cases launch with
  | refused reason =>
    rw [extract_of_refused h] at hfails
    cases hfails
    cases hreported
    exact showsCommand_notStarted _ _
  | started output status =>
    rcases hpass : align rules program (outputLines output) with ⟨journal, fault | tally⟩
    · rw [extract_of_fault h hpass] at hfails
      cases hfails
      cases hreported
    · rw [extract_of_tally h hpass] at hfails
      unfold judgeStatus at hfails
      split at hfails
      · cases hfails
      · split at hfails
        · cases hfails
          cases hreported
          exact showsCommand_badStatus _ _
        · cases hfails
          cases hreported

/-- The process is started once, with the argument vector of its command line. -/
theorem starts_extract {disassembler : String} {words : List String}
    (h : CommandLine.split disassembler = .ok words) (rules : Rules) (program : Program)
    (launch : Launch) (binary : String) :
    (extract rules program launch disassembler binary).starts = [words ++ flags ++ [binary]] := by
  have hlife := lifeCycle_extract rules program launch disassembler binary
  cases launch with
  | refused reason => exact (hlife.refused words reason h rfl).1
  | started output status => exact (hlife.started words output status h rfl).1

/-- **Commands are written so that they can be read back.** A command line joined of any words is
    cut into these words, and as the command of a disassembler it gives the argument vector of the
    words, the flags and the path. With any command that can be cut, an extraction starts one
    process, whose last argument is the whole path, and a failure of that process shows a command
    that is cut into its very argument vector. -/
theorem command_extract (words : List String) (rules : Rules) (program : Program)
    (launch : Launch) (disassembler binary : String) :
    CommandLine.split (CommandLine.join words) = .ok words
      ∧ arguments (CommandLine.join words) binary
        = .ok (words ++ ["-d", "--no-show-raw-insn", binary])
      ∧ ∀ front, CommandLine.split disassembler = .ok front →
        let argv := front ++ ["-d", "--no-show-raw-insn", binary]
        let done := extract rules program launch disassembler binary
        done.starts = [argv]
          ∧ ∀ failure diagnostic, done.outcome = .error failure → failure.Reported diagnostic →
            ∃ command, ShowsCommand diagnostic command ∧ CommandLine.split command = .ok argv := by
  have hargv (front : List String) :
      front ++ ["-d", "--no-show-raw-insn", binary] = front ++ flags ++ [binary] := by simp [flags]
  refine ⟨CommandLine.split_join words, by rw [hargv, arguments_join], ?_⟩
  intro front hsplit argv done
  have harguments : arguments disassembler binary = .ok argv := by
    rw [arguments_of_split hsplit, ← hargv]
  refine ⟨(starts_extract hsplit rules program launch binary).trans (by rw [← hargv]), ?_⟩
  intro failure diagnostic hfails hreported
  exact ⟨CommandLine.join argv, showsCommand_of_reported harguments rules program hfails hreported,
    CommandLine.split_join argv⟩

/-- A path with a blank and a quote in it, given to a command with an option, is shown so that it
    can be read back. -/
theorem command_extract_quoted :
    let done := extract {} .empty (.started [] 1) "llvm-objdump --mattr=+c" "my dir/it's.elf"
    done.starts = [["llvm-objdump", "--mattr=+c", "-d", "--no-show-raw-insn", "my dir/it's.elf"]]
      ∧ ∃ command, ShowsCommand (badStatusDiagnostic
          "llvm-objdump --mattr=+c -d --no-show-raw-insn 'my dir/it'\"'\"'s.elf'" 1) command
        ∧ CommandLine.split command
          = .ok ["llvm-objdump", "--mattr=+c", "-d", "--no-show-raw-insn", "my dir/it's.elf"] := by
  obtain ⟨-, -, hextract⟩ := command_extract [] {} .empty (.started [] 1)
    "llvm-objdump --mattr=+c" "my dir/it's.elf"
  obtain ⟨hstarts, hshows⟩ := hextract ["llvm-objdump", "--mattr=+c"] (by decide +kernel)
  exact ⟨hstarts, hshows _ _ (by decide +kernel) (.badStatus _ _)⟩

end CoreTiming.Disassembler
