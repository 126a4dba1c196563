import CoreTiming.Binary64.Basic
import CoreTiming.Opcode
import CoreTiming.Routine

/-!
# Data

Opcodes, callees and table keys come from the enclosing tool and may be any datum: nothing, a
truth value, a number, a text, an opcode, a routine, or a list of data.

Two data agree when they are the same value (`Datum.agrees`): truth values count as the integers
zero and one, numbers agree by value whatever their kind, texts and members by identity, lists
item by item. Whether they are identical, of one kind besides, is decidable too (`same_iff`), but
`==` is agreement. A list cannot be a key (`isHashable`). An opcode or a routine is looked up by
its text (`key`).
-/

namespace CoreTiming

/-- A value of the enclosing tool. -/
inductive Datum where
  | null
  | bool (value : Bool)
  | int (value : Int)
  | float (value : Binary64)
  | text (value : String)
  | opcode (value : Opcode)
  | routine (value : Routine)
  | list (items : List Datum)

namespace Datum

/-! ## Identity -/

mutual

/-- Whether two data are of one kind and have the same content. -/
def same : Datum → Datum → Bool
  | null, null => true
  | bool a, bool b => a == b
  | int a, int b => a == b
  | float a, float b => a == b
  | text a, text b => a == b
  | opcode a, opcode b => a == b
  | routine a, routine b => a == b
  | list xs, list ys => sameAll xs ys
  | _, _ => false

/-- Whether two lists are the same item by item. -/
def sameAll : List Datum → List Datum → Bool
  | [], [] => true
  | x :: xs, y :: ys => x.same y && sameAll xs ys
  | _, _ => false

end

mutual

theorem same_iff (a b : Datum) : a.same b = true ↔ a = b := by
  cases a <;> cases b <;> simp [same, sameAll_iff]

theorem sameAll_iff (xs ys : List Datum) : sameAll xs ys = true ↔ xs = ys := by
  cases xs <;> cases ys <;> simp [sameAll, same_iff, sameAll_iff]

end

instance : DecidableEq Datum := fun a b => decidable_of_iff _ (same_iff a b)

/-- The name of the kind of a datum. -/
def kindName : Datum → String
  | null => "NoneType"
  | bool _ => "bool"
  | int _ => "int"
  | float _ => "float"
  | text _ => "str"
  | opcode _ => "Opcode"
  | routine _ => "LibraryRoutine"
  | list _ => "list"

/-! ## Agreement -/

/-- The exact value of a datum that counts as a finite number. -/
def quantity? : Datum → Option Dyadic
  | bool value => some (.ofInt (if value then 1 else 0))
  | int value => some (.ofInt value)
  | float value => value.value?
  | _ => none

/-- The integer that a datum counts as: an integer or a truth value. -/
def integer? : Datum → Option Int
  | bool value => some (if value then 1 else 0)
  | int value => some value
  | _ => none

/-- Whether two data without items agree. -/
def agreesFlat : Datum → Datum → Bool
  | null, null => true
  | text s, text t => s == t
  | opcode a, opcode b => a == b
  | routine a, routine b => a == b
  | float a, float b => a.agrees b
  | a, b =>
    match a.quantity?, b.quantity? with
    | some x, some y => x == y
    | _, _ => false

mutual

/-- Whether two data are the same value. -/
def agrees : Datum → Datum → Bool
  | list xs, list ys => agreesAll xs ys
  | list _, _ => false
  | a, b => a.agreesFlat b

/-- Whether two lists have the same length and agree item by item. -/
def agreesAll : List Datum → List Datum → Bool
  | [], [] => true
  | x :: xs, y :: ys => x.agrees y && agreesAll xs ys
  | _, _ => false

end

instance : BEq Datum := ⟨agrees⟩

/-! ## Keys -/

/-- Whether a datum may be a key. -/
def isHashable : Datum → Bool
  | list _ => false
  | _ => true

/-- A datum that cannot be a key: a list. -/
inductive Unhashable where
  | list
  deriving DecidableEq

/-- The explanation of an unusable key. -/
def Unhashable.message : Unhashable → String
  | .list => "unhashable type: 'list'"

/-- The datum itself, if it may be a key. -/
def asKey (datum : Datum) : Except Unhashable Datum :=
  if datum.isHashable then .ok datum else .error .list

/-- `_opcode_key`: the datum by which an opcode or a routine is looked up, which is its text. -/
def key : Datum → Datum
  | opcode value => text value.tag
  | routine value => text value.name
  | datum => datum

/-- Whether a datum counts as a condition that holds: zero, the empty text, the empty list and
nothing do not. -/
def isTruthy : Datum → Bool
  | null => false
  | bool value => value
  | int value => value != 0
  | float value => !value.agrees (.finite false 0 0)
  | text value => !value.isEmpty
  | list items => !items.isEmpty
  | _ => true

/-! ## Laws -/

theorem asKey_of_isHashable {datum : Datum} (h : datum.isHashable = true) :
    datum.asKey = .ok datum := by
  simp [asKey, h]

@[simp] theorem key_opcode (op : Opcode) : (opcode op).key = text op.tag := rfl

@[simp] theorem key_routine (routine : Routine) : (Datum.routine routine).key = text routine.name :=
  rfl

@[simp] theorem key_text (value : String) : (text value).key = text value := rfl

/-- A datum may be a key exactly when its text may. -/
@[simp] theorem isHashable_key (datum : Datum) : datum.key.isHashable = datum.isHashable := by
  cases datum <;> rfl

end Datum

end CoreTiming
