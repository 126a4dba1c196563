import CoreTiming.CommandLine.Quote

/-!
# The disassembler command

The disassembler is named by a command line, which may carry options of its own. The flags that
ask for mnemonics only and the path of the binary follow as words of their own, so the path is
never cut (`getLast?_arguments`).
-/

namespace CoreTiming.Disassembler

open CoreTiming.CommandLine

/-- `OBJDUMP_COMMAND`: the disassembler in use where none is named. -/
def defaultCommand : String := "riscv64-unknown-elf-objdump"

/-- `OBJDUMP_FLAGS`: disassemble, and show no raw instruction words. -/
def flags : List String := ["-d", "--no-show-raw-insn"]

/-- `objdump_argv`: the argument vector that disassembles a binary. -/
def arguments (command binary : String) : Except SplitError (List String) :=
  (split command).map (· ++ flags ++ [binary])

/-- The path is the last argument, as it was given. -/
theorem getLast?_arguments {command binary : String} {argv : List String}
    (h : arguments command binary = .ok argv) : argv.getLast? = some binary := by
  unfold arguments at h
  cases hsplit : split command with
  | error e => simp [hsplit, Except.map] at h
  | ok words =>
    simp only [hsplit, Except.map, Except.ok.injEq] at h
    simp [← h]

end CoreTiming.Disassembler
