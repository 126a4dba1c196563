import CoreTiming.Numeral.Written

/-!
# Arguments

The enclosing tool hands an operation its arguments by position and by name. An operation takes
the names of its signature; of the other names the first is refused, and none is exactly when the
operation takes all of them (`firstRefusal?_eq_none`).
-/

namespace CoreTiming

/-- Why the arguments of an operation are refused. -/
inductive Refusal where
  /-- The operation takes no argument of this name. -/
  | unexpected (operation name : String)
  /-- The argument of this name is set already. -/
  | repeated (operation name : String)
  /-- More arguments come by position than the operation takes. -/
  | tooMany (operation : String) (most given : Nat)
  deriving DecidableEq

/-- The explanation of a refusal. -/
def Refusal.message : Refusal → String
  | .unexpected operation name =>
    operation ++ "() got an unexpected keyword argument '" ++ name ++ "'"
  | .repeated operation name =>
    operation ++ "() got multiple values for argument '" ++ name ++ "'"
  | .tooMany operation most given =>
    operation ++ "() takes from 0 to " ++ Numeral.decimal most ++ " positional arguments but "
      ++ Numeral.decimal given ++ " were given"

/-- The arguments of an operation: those it takes by name, and those that are set already. -/
structure Signature where
  operation : String
  names : List String
  present : List String

namespace Signature

/-- Why an argument of a name is refused. -/
def refusal? (signature : Signature) (name : String) : Option Refusal :=
  if name ∈ signature.names then none
  else if name ∈ signature.present then some (.repeated signature.operation name)
  else some (.unexpected signature.operation name)

/-- Why the first refused argument is refused. -/
def firstRefusal? (signature : Signature) (names : List String) : Option Refusal :=
  names.findSome? signature.refusal?

/-! ## Laws -/

theorem refusal?_eq_none {signature : Signature} {name : String} :
    signature.refusal? name = none ↔ name ∈ signature.names := by
  unfold refusal?
  split
  · simp_all
  · split <;> simp_all

/-- No argument is refused exactly when the operation takes all of them. -/
theorem firstRefusal?_eq_none {signature : Signature} {names : List String} :
    signature.firstRefusal? names = none ↔ ∀ name ∈ names, name ∈ signature.names := by
  simp [firstRefusal?, List.findSome?_eq_none_iff, refusal?_eq_none]

end Signature

end CoreTiming
