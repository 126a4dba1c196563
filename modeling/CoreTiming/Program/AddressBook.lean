import CoreTiming.Index
import CoreTiming.Log.Record
import CoreTiming.OrderedMap
import CoreTiming.Program.Basic

/-!
# Address books

An address book collects the addresses that the alignment of a listing reports: one for each
label, and one for each instruction by label and index. `apply` writes the instruction addresses
back into a program, in the order in which their keys were first reported.

An index below zero counts from the end of the subroutine. A key whose subroutine is missing, or
whose index is past the end, is dropped with a note in the log (`Place`). The writing ends early
at an index that counts back past the start; what was written before stays. This does not happen to
indexes from a listing.
-/

namespace CoreTiming

/-- `SymbolExtractor`: the reported addresses of labels and instructions. -/
structure AddressBook where
  symbols : OrderedMap String Datum := .empty
  addresses : OrderedMap (String × Int) Datum := .empty
  deriving DecidableEq

namespace AddressBook

/-- The book without addresses. -/
def empty : AddressBook := {}

/-- `add_symbol`: records the address of a label. -/
def addSymbol (book : AddressBook) (label : String) (address : Datum) : AddressBook :=
  { book with symbols := book.symbols.insert label address }

/-- `add_instruction_address`: records the address of an instruction. -/
def addAddress (book : AddressBook) (label : String) (index : Int) (address : Datum) :
    AddressBook :=
  { book with addresses := book.addresses.insert (label, index) address }

/-- `address_of`: the recorded address of a label, or of an instruction where an index is given. -/
def addressOf? (book : AddressBook) (label : String) : Option Int → Option Datum
  | none => book.symbols.get? label
  | some index => book.addresses.get? (label, index)

/-! ## Writing back -/

/-- Where an index leads in a list. -/
inductive Place where
  /-- To the entry at this position. -/
  | inside (position : Nat)
  /-- To none, and it is passed over. -/
  | nowhere
  /-- Back past the start. -/
  | beforeStart (reason : OutOfRange)
  deriving DecidableEq

/-- The place of an index in a list of the given length. -/
def placeIn (length : Nat) (index : Int) : Place :=
  if length ≤ index then .nowhere
  else
    match Index.position length index with
    | .ok position => .inside position
    | .error e => .beforeStart e

/-- The place of a key in a program. -/
def place (program : Program) (label : String) (index : Int) : Place :=
  match program.find? label with
  | none => .nowhere
  | some s => placeIn s.instructions.length index

/-- What writing back has done: the program with its addresses, the notes, and the number of
addresses written, unless the writing ended early. -/
structure WriteBack where
  program : Program
  records : List Log.Record
  written : Except OutOfRange Nat

/-- The note of `SymbolExtractor.apply` on a key that is passed over. -/
def droppedRecord (label : String) (index : Int) (address : Datum) : Log.Record where
  level := .debug
  channel := .program
  message := do
    let place ← address.loggedHex8
    let index ← (Datum.int index).shown
    return "Dropping address 0x" ++ place ++ " for " ++ label ++ "+" ++ index

/-- The loop of `SymbolExtractor.apply` over a list of reports. -/
def applyEntries : List ((String × Int) × Datum) → Program → WriteBack
  | [], program => ⟨program, [], .ok 0⟩
  | ((label, index), address) :: rest, program =>
    match place program label index with
    | .inside position =>
      let next := applyEntries rest (program.setAddress label position address)
      { next with written := next.written.map (· + 1) }
    | .nowhere =>
      let next := applyEntries rest program
      { next with records := droppedRecord label index address :: next.records }
    | .beforeStart e => ⟨program, [], .error e⟩

/-- `SymbolExtractor.apply`: writes the recorded instruction addresses back into a program. -/
def apply (book : AddressBook) (program : Program) : WriteBack :=
  applyEntries book.addresses.entries program

/-- A place lies inside the list. -/
theorem lt_of_placeIn {length position : Nat} {index : Int}
    (h : placeIn length index = .inside position) : position < length := by
  unfold placeIn at h
  split at h
  · cases h
  · split at h
    next p hp =>
      cases h
      exact Index.lt_of_position hp
    next => cases h

/-- Writing back keeps the labels and their order. -/
theorem labels_applyEntries (entries : List ((String × Int) × Datum)) (program : Program) :
    (applyEntries entries program).program.labels = program.labels := by
  fun_induction applyEntries entries program with
  | case1 => rfl
  | case2 program label index address rest position h next ih =>
    exact ih.trans (Program.labels_update _ _ _)
  | case3 program label index address rest h next ih => exact ih
  | case4 => rfl

end AddressBook

end CoreTiming
