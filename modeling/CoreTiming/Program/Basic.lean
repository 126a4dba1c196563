import CoreTiming.Program.Instruction

/-!
# Programs

A program is a list of subroutines with distinct labels. It only ever grows at its end: `add`
refuses a label that is present, and `findOrCreate` adds an empty subroutine where a label is
missing. `update` replaces the instructions of one subroutine and leaves labels and order alone
(`labels_update`).
-/

namespace CoreTiming

/-- `MachineFunction`: its label and its instructions in order. -/
structure Subroutine where
  label : String
  instructions : List Instruction := []

/-- The instructions of a subroutine, each in one line. -/
def Subroutine.shownLines (s : Subroutine) : Except Unshowable (List String) :=
  s.instructions.mapM Instruction.shown

/-- A subroutine as text, with all its instructions. -/
def Subroutine.shown (s : Subroutine) : Except Unshowable String :=
  s.shownLines.map fun lines =>
    "MachineFunction(label=" ++ Text.quote s.label ++ ", instructions=["
      ++ ", ".intercalate lines ++ "])"

/-- `MachineFunctionList`: the subroutines of a program, no two with the same label. -/
structure Program where
  subroutines : List Subroutine
  nodup_labels : (subroutines.map (·.label)).Nodup

/-- A label that a program has already. -/
structure DuplicateLabel where
  label : String
  deriving DecidableEq

/-- The explanation of a refused label. -/
def DuplicateLabel.message (e : DuplicateLabel) : String :=
  "Duplicate function label: " ++ e.label

namespace Program

/-- The program without subroutines. -/
def empty : Program := ⟨[], List.nodup_nil⟩

/-- The labels of a program, in order. -/
def labels (program : Program) : List String := program.subroutines.map (·.label)

/-- `by_label`: the subroutine with a label. -/
def find? (program : Program) (label : String) : Option Subroutine :=
  program.subroutines.find? (·.label == label)

theorem find?_isSome_iff (program : Program) (label : String) :
    (program.find? label).isSome = true ↔ label ∈ program.labels := by
  simp [find?, labels, List.find?_isSome]

theorem not_mem_labels_of_find? {program : Program} {label : String}
    (h : program.find? label = none) : label ∉ program.labels := by
  rw [← find?_isSome_iff, h]
  simp

/-- The instructions of the subroutine with a label; none where there is no such subroutine. -/
def instructionsOf (program : Program) (label : String) : List Instruction :=
  (program.find? label).elim [] (·.instructions)

/-- A program with one more subroutine, whose label is new. -/
def push (program : Program) (s : Subroutine) (h : s.label ∉ program.labels) : Program :=
  ⟨program.subroutines ++ [s], by
    rw [List.map_append, List.nodup_append]
    refine ⟨program.nodup_labels, by simp, ?_⟩
    intro a ha b hb e
    rw [List.map_singleton, List.mem_singleton] at hb
    exact h (hb ▸ e ▸ ha)⟩

/-- `MachineFunctionList.add`: adds a subroutine at the end. -/
def add (program : Program) (s : Subroutine) : Except DuplicateLabel Program :=
  if h : s.label ∈ program.labels then .error ⟨s.label⟩ else .ok (program.push s h)

/-- `MachineFunctionList.__init__`: the program of a list of subroutines. -/
def ofList (subroutines : List Subroutine) : Except DuplicateLabel Program :=
  subroutines.foldlM add empty

/-- `by_label` with `create` set: the subroutine with a label, which is added empty where it is
missing. -/
def findOrCreate (program : Program) (label : String) : Subroutine × Program :=
  match h : program.find? label with
  | some s => (s, program)
  | none => ({ label }, program.push { label } (not_mem_labels_of_find? h))

/-- `MachineFunctionList.__contains__`: whether a datum is the label of a subroutine. -/
def contains (program : Program) (label : Datum) : Except Datum.Unhashable Bool :=
  label.asKey.map fun
    | .text t => program.labels.contains t
    | _ => false

/-- A subroutine with other instructions, if it has the label. -/
def updateSubroutine (label : String) (change : List Instruction → List Instruction)
    (s : Subroutine) : Subroutine :=
  if s.label == label then { s with instructions := change s.instructions } else s

@[simp] theorem label_updateSubroutine (label : String)
    (change : List Instruction → List Instruction) (s : Subroutine) :
    (updateSubroutine label change s).label = s.label := by
  unfold updateSubroutine
  split <;> rfl

theorem map_label_update (label : String) (change : List Instruction → List Instruction)
    (subroutines : List Subroutine) :
    (subroutines.map (updateSubroutine label change)).map (·.label)
      = subroutines.map (·.label) := by
  simp [Function.comp_def]

/-- Replaces the instructions of the subroutine with a label. -/
def update (program : Program) (label : String)
    (change : List Instruction → List Instruction) : Program :=
  ⟨program.subroutines.map (updateSubroutine label change), by
    rw [map_label_update]
    exact program.nodup_labels⟩

/-- Appends instructions to the subroutine with a label, which is added where it is missing. -/
def extend (program : Program) (label : String) (instructions : List Instruction) : Program :=
  (program.findOrCreate label).2.update label (· ++ instructions)

/-- The first items of a list, up to a length; a length below zero counts from the end. -/
def firstOf {α : Type} (items : List α) (length : Int) : List α :=
  items.take (if 0 ≤ length then length else items.length + length).toNat

/-- Keeps the first instructions of the subroutine with a label. -/
def truncate (program : Program) (label : String) (length : Int) : Program :=
  program.update label (firstOf · length)

/-- Stores the address of the instruction at a position. -/
def setAddress (program : Program) (label : String) (position : Nat) (address : Datum) :
    Program :=
  program.update label (·.modify position fun i => { i with address })

/-- The addresses of all instructions, by label and in order. -/
def addresses (program : Program) : List (String × List Datum) :=
  program.subroutines.map fun s => (s.label, s.instructions.map (·.address))

/-! ## Laws -/

theorem mem_of_find? {program : Program} {label : String} {s : Subroutine}
    (h : program.find? label = some s) : s ∈ program.subroutines :=
  List.mem_of_find?_eq_some h

/-- Every subroutine is the one that is found under its label. -/
theorem find?_label {program : Program} {s : Subroutine} (h : s ∈ program.subroutines) :
    program.find? s.label = some s := by
  obtain ⟨subroutines, nodup⟩ := program
  unfold find?
  simp only at h ⊢
  induction subroutines with
  | nil => cases h
  | cons first rest ih =>
    rw [List.map_cons, List.nodup_cons] at nodup
    rcases List.mem_cons.1 h with rfl | h
    · simp
    · have other : first.label ≠ s.label := fun same =>
        nodup.1 (same ▸ List.mem_map_of_mem h)
      rw [List.find?_cons_of_neg (by simpa using other)]
      exact ih nodup.2 h

theorem instructionsOf_of_find? {program : Program} {label : String} {s : Subroutine}
    (h : program.find? label = some s) : program.instructionsOf label = s.instructions := by
  simp [instructionsOf, h]

/-- A length from zero on is the number of items kept. -/
@[simp] theorem firstOf_natCast {α : Type} (items : List α) (length : Nat) :
    firstOf items length = items.take length := by
  simp [firstOf]

/-- An update changes no label and no order. -/
@[simp] theorem labels_update (program : Program) (label : String)
    (change : List Instruction → List Instruction) :
    (program.update label change).labels = program.labels :=
  map_label_update label change program.subroutines

theorem add_of_mem {program : Program} {s : Subroutine} (h : s.label ∈ program.labels) :
    program.add s = .error ⟨s.label⟩ := by
  simp [add, h]

/-- A subroutine with a new label comes last. -/
theorem subroutines_of_add {program grown : Program} {s : Subroutine}
    (h : program.add s = .ok grown) : grown.subroutines = program.subroutines ++ [s] := by
  unfold add at h
  split at h
  · cases h
  · cases h
    rfl

end Program

end CoreTiming
