/-!
# Library routines

The runtime support routines that are priced as a flat surcharge at the call site. A routine has
a `name`, its symbol in the binary, and a `title`, by which displays show it. A routine reads
back from its name (`ofName?_eq_some_iff`).
-/

namespace CoreTiming

/-- A runtime support routine: a member of `LibraryRoutine`, whose value is its name. -/
inductive Routine where
  | multiply
  | divide
  | divideUnsigned
  | moduloUnsigned
  | modulo
  | memset
  deriving DecidableEq

namespace Routine

/-- The symbol of a routine. -/
def name : Routine → String
  | multiply => "__mulsi3"
  | divide => "__divsi3"
  | divideUnsigned => "__udivsi3"
  | moduloUnsigned => "__umodsi3"
  | modulo => "__modsi3"
  | memset => "memset"

/-- The title of a routine. -/
def title : Routine → String
  | multiply => "MULSI3"
  | divide => "DIVSI3"
  | divideUnsigned => "UDIVSI3"
  | moduloUnsigned => "UMODSI3"
  | modulo => "MODSI3"
  | memset => "MEMSET"

/-- Every routine, in the order of declaration. -/
def all : List Routine :=
  [multiply, divide, divideUnsigned, moduloUnsigned, modulo, memset]

theorem mem_all (routine : Routine) : routine ∈ all := by
  cases routine <;> decide

/-- The routine that a symbol names. -/
def ofName? (name : String) : Option Routine := all.find? (·.name = name)

/-- A routine reads back from its symbol. -/
theorem ofName?_name (routine : Routine) : ofName? routine.name = some routine := by
  cases routine <;> decide

theorem name_of_ofName? {name : String} {routine : Routine} (h : ofName? name = some routine) :
    routine.name = name := by
  simpa using List.find?_some h

/-- A text names a routine exactly when it is the routine's symbol. -/
theorem ofName?_eq_some_iff {name : String} {routine : Routine} :
    ofName? name = some routine ↔ routine.name = name :=
  ⟨name_of_ofName?, fun h => h ▸ ofName?_name routine⟩

end Routine

end CoreTiming
