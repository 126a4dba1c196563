import CoreTiming.Datum.Basic
import CoreTiming.Diagnostic.Basic
import CoreTiming.Log.Record
import CoreTiming.Program.AddressBook

/-!
# What an alignment reports

A pass over a listing reports the addresses of labels and instructions, keeps a tally, and logs.
A journal holds all three, and the journals of consecutive lines join end to end. An address book
takes the reports in.
-/

namespace CoreTiming.Alignment

open CoreTiming

/-- An address found in a listing: a call of `add_symbol` or of `add_instruction_address`. -/
inductive Report where
  /-- The address of a label. -/
  | symbol (label : String) (address : Datum)
  /-- The address of the instruction at an index of a subroutine. -/
  | instruction (label : String) (index : Int) (address : Datum)
  deriving DecidableEq

/-- `AlignmentStats`: how many labels, instructions and surplus lines a pass has met. -/
@[ext]
structure Tally where
  symbols : Nat := 0
  instructions : Nat := 0
  warnings : Nat := 0
  deriving DecidableEq

/-- Two tallies added up. -/
def Tally.add (a b : Tally) : Tally :=
  ⟨a.symbols + b.symbols, a.instructions + b.instructions, a.warnings + b.warnings⟩

instance : Add Tally := ⟨Tally.add⟩

/-- What a pass has reported, counted and logged. -/
@[ext]
structure Journal where
  reports : List Report := []
  tally : Tally := {}
  records : List Log.Record := []
  deriving DecidableEq

namespace Journal

/-- One journal after the other. -/
def append (a b : Journal) : Journal :=
  ⟨a.reports ++ b.reports, a.tally + b.tally, a.records ++ b.records⟩

instance : Append Journal := ⟨append⟩

/-- The journal of nothing. -/
def empty : Journal := {}

end Journal

/-! ## Laws -/

theorem Tally.add_def (a b : Tally) :
    a + b = ⟨a.symbols + b.symbols, a.instructions + b.instructions, a.warnings + b.warnings⟩ :=
  rfl

theorem Tally.add_assoc (a b c : Tally) : a + b + c = a + (b + c) := by
  simp only [Tally.add_def, Nat.add_assoc]

namespace Journal

@[simp] theorem reports_append (a b : Journal) :
    (a ++ b).reports = a.reports ++ b.reports := rfl

@[simp] theorem tally_append (a b : Journal) : (a ++ b).tally = a.tally + b.tally := rfl

@[simp] theorem records_append (a b : Journal) :
    (a ++ b).records = a.records ++ b.records := rfl

@[simp] theorem empty_append (a : Journal) : empty ++ a = a := by
  change append empty a = a
  simp [append, empty, Tally.add_def]

@[simp] theorem append_empty (a : Journal) : a ++ empty = a := by
  change append a empty = a
  simp [append, empty, Tally.add_def]

theorem append_assoc (a b c : Journal) : a ++ b ++ c = a ++ (b ++ c) := by
  change append (append a b) c = append a (append b c)
  simp [append, Tally.add_assoc]

end Journal

/-! ## Failures -/

/-- Why a pass stops. -/
inductive Fault where
  /-- An opcode cannot be looked up. -/
  | unhashable (reason : Datum.Unhashable)
  /-- The pass was started before the first instruction. -/
  | outOfRange (reason : OutOfRange)
  /-- A mnemonic does not contain the pattern of its instruction. -/
  | mismatch (address : Datum) (mnemonic pattern : String)
  deriving DecidableEq

/-- The `AlignmentError` of a mismatch, if its address has a hexadecimal form. -/
def mismatchDiagnostic (address : Datum) (mnemonic pattern : String) :
    Except Unshowable Diagnostic :=
  address.hex.map fun place =>
    { cause := .alignment address (.text mnemonic)
      message := .text
        ("Address extraction heuristic probably failed at " ++ place ++ ": " ++ mnemonic
          ++ " not " ++ pattern) }

end CoreTiming.Alignment

namespace CoreTiming.AddressBook

open CoreTiming.Alignment

/-- Takes one report in. -/
def record (book : AddressBook) : Report → AddressBook
  | .symbol label address => book.addSymbol label address
  | .instruction label index address => book.addAddress label index address

/-- Takes reports in, in order. -/
def recordAll (book : AddressBook) (reports : List Report) : AddressBook :=
  reports.foldl record book

@[simp] theorem recordAll_append (book : AddressBook) (reports more : List Report) :
    book.recordAll (reports ++ more) = (book.recordAll reports).recordAll more := by
  simp [recordAll]

end CoreTiming.AddressBook
