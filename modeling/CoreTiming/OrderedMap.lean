/-!
# Maps in order of insertion

A finite map whose entries stand in the order in which their keys were first inserted. Inserting
under a present key replaces the value and keeps the place of the entry (`keys_insert`); looking
up gives the value inserted last (`get?_insert_self`, `get?_insert_of_ne`).
-/

namespace CoreTiming

/-- The entries of a map, in order of first insertion. -/
structure OrderedMap (κ ν : Type) where
  entries : List (κ × ν)
  deriving DecidableEq

namespace OrderedMap

variable {κ ν : Type} [BEq κ]

/-- The map without entries. -/
def empty : OrderedMap κ ν := ⟨[]⟩

/-- The entries after an insertion. -/
def insertEntry (key : κ) (value : ν) : List (κ × ν) → List (κ × ν)
  | [] => [(key, value)]
  | entry :: rest =>
    if entry.1 == key then (entry.1, value) :: rest else entry :: insertEntry key value rest

/-- Puts a value under a key. -/
def insert (map : OrderedMap κ ν) (key : κ) (value : ν) : OrderedMap κ ν :=
  ⟨insertEntry key value map.entries⟩

/-- The value under a key. -/
def get? (map : OrderedMap κ ν) (key : κ) : Option ν :=
  (map.entries.find? (·.1 == key)).map (·.2)

/-- Removes the entry of a key. -/
def erase (map : OrderedMap κ ν) (key : κ) : OrderedMap κ ν :=
  ⟨map.entries.filter fun entry => !(entry.1 == key)⟩

/-- The keys, in order of first insertion. -/
def keys (map : OrderedMap κ ν) : List κ := map.entries.map (·.1)

/-- The map of a list of entries, a later entry replacing the value of an earlier one. -/
def ofList (entries : List (κ × ν)) : OrderedMap κ ν :=
  entries.foldl (fun map entry => map.insert entry.1 entry.2) empty

/-! ## Laws -/

@[simp] theorem get?_empty (key : κ) : (empty : OrderedMap κ ν).get? key = none := rfl

theorem keys_insertEntry [LawfulBEq κ] (key : κ) (value : ν) (entries : List (κ × ν)) :
    (insertEntry key value entries).map (·.1)
      = if key ∈ entries.map (·.1) then entries.map (·.1) else entries.map (·.1) ++ [key] := by
  induction entries with
  | nil => simp [insertEntry]
  | cons entry rest ih =>
    by_cases h : entry.1 = key
    · simp [insertEntry, h]
    · simp only [insertEntry, beq_iff_eq, h, if_false, List.map_cons, ih, List.mem_cons,
        show key ≠ entry.1 from fun e => h e.symm, false_or]
      split <;> simp

/-- A present key keeps its place, and a new one comes last. -/
theorem keys_insert [LawfulBEq κ] (map : OrderedMap κ ν) (key : κ) (value : ν) :
    (map.insert key value).keys = if key ∈ map.keys then map.keys else map.keys ++ [key] :=
  keys_insertEntry key value map.entries

theorem find?_insertEntry_self [LawfulBEq κ] (key : κ) (value : ν) (entries : List (κ × ν)) :
    (insertEntry key value entries).find? (·.1 == key) = some (key, value) := by
  induction entries with
  | nil => simp [insertEntry]
  | cons entry rest ih =>
    by_cases h : entry.1 = key
    · simp [insertEntry, h]
    · simp [insertEntry, h, ih]

theorem find?_insertEntry_of_ne [LawfulBEq κ] {key other : κ} (hne : other ≠ key) (value : ν)
    (entries : List (κ × ν)) :
    (insertEntry key value entries).find? (·.1 == other) = entries.find? (·.1 == other) := by
  induction entries with
  | nil => simp [insertEntry, hne.symm]
  | cons entry rest ih =>
    by_cases h : entry.1 = key
    · simp [insertEntry, h, hne.symm]
    · simp [insertEntry, h, List.find?_cons, ih]

@[simp] theorem get?_insert_self [LawfulBEq κ] (map : OrderedMap κ ν) (key : κ) (value : ν) :
    (map.insert key value).get? key = some value := by
  simp [get?, insert, find?_insertEntry_self]

theorem get?_insert_of_ne [LawfulBEq κ] {key other : κ} (hne : other ≠ key)
    (map : OrderedMap κ ν) (value : ν) :
    (map.insert key value).get? other = map.get? other := by
  simp [get?, insert, find?_insertEntry_of_ne hne]

end OrderedMap

end CoreTiming
