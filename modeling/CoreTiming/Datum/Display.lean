import CoreTiming.Binary64.Text
import CoreTiming.Datum.Basic
import CoreTiming.Text.Quoted

/-!
# Data as text

A datum in a message is shown by `display`: a text as it is, an opcode or a routine by its title.
Inside a list each item is shown by `literal`, with texts quoted and members in angle brackets.
An integer beyond the limit of decimals cannot be shown, nor can a list that holds one; `shown`
refuses these and is `display` on all others (`shown_of_isWritable`).

Addresses are shown in hexadecimal, where there is no limit. Only integers and truth values have
such a form (`hex`, `loggedHex8`); messages and log records refuse the others in words of their
own.
-/

namespace CoreTiming

/-- Why a datum cannot be shown. -/
inductive Unshowable where
  /-- An integer is beyond the limit of decimals. -/
  | tooManyDigits
  /-- A datum of this kind has other forms than the hexadecimal one. -/
  | otherForms (kind : String)
  /-- A datum of this kind has one form only. -/
  | oneForm (kind : String)
  /-- A log record asks for an integer and gets a datum of this kind. -/
  | noInteger (kind : String)
  deriving DecidableEq

/-- The explanation of a datum that cannot be shown. -/
def Unshowable.message : Unshowable → String
  | .tooManyDigits => Numeral.limitMessage ""
  | .otherForms kind => "Unknown format code 'x' for object of type '" ++ kind ++ "'"
  | .oneForm kind => "unsupported format string passed to " ++ kind ++ ".__format__"
  | .noInteger kind => "%x format: an integer is required, not " ++ kind

namespace Datum

/-! ## Decimal -/

mutual

/-- A datum as an item of a list is shown. -/
def literal : Datum → String
  | null => "None"
  | bool value => if value then "True" else "False"
  | int value => Numeral.decimal value
  | float value => value.text
  | text value => Text.quote value
  | opcode value => "<Opcode." ++ value.tag ++ ": " ++ Text.quote value.tag ++ ">"
  | routine value => "<LibraryRoutine." ++ value.title ++ ": " ++ Text.quote value.name ++ ">"
  | list items => "[" ++ ", ".intercalate (literals items) ++ "]"

/-- The items of a list as they are shown. -/
def literals : List Datum → List String
  | [] => []
  | item :: rest => item.literal :: literals rest

end

/-- A datum as a message shows it. -/
def display : Datum → String
  | text value => value
  | opcode value => "Opcode." ++ value.tag
  | routine value => "LibraryRoutine." ++ value.title
  | datum => datum.literal

mutual

/-- Whether every integer of a datum is within the limit of decimals. -/
def isWritable : Datum → Bool
  | int value => Numeral.isWritable value
  | list items => allWritable items
  | _ => true

/-- Whether every integer of some data is within the limit of decimals. -/
def allWritable : List Datum → Bool
  | [] => true
  | item :: rest => item.isWritable && allWritable rest

end

/-- A datum as a message shows it, if it can be shown. -/
def shown (datum : Datum) : Except Unshowable String :=
  if datum.isWritable then .ok datum.display else .error .tooManyDigits

/-! ## Hexadecimal -/

/-- The form of a datum in hexadecimal, `write` being the form of an integer. -/
def hexBy (write : Int → String) (datum : Datum) : Except Unshowable String :=
  match datum with
  | bool value => .ok (write (if value then 1 else 0))
  | int value => .ok (write value)
  | float _ => .error (.otherForms datum.kindName)
  | text _ | opcode _ | routine _ => .error (.otherForms "str")
  | null | list _ => .error (.oneForm datum.kindName)

/-- A datum in hexadecimal, as a message shows it. -/
def hex : Datum → Except Unshowable String := hexBy Numeral.hex

/-- A datum in hexadecimal on at least eight places, as a message shows it. -/
def hex8 : Datum → Except Unshowable String := hexBy Numeral.hex8

/-- A datum in hexadecimal on at least eight places, as a log record shows it. -/
def loggedHex8 (datum : Datum) : Except Unshowable String :=
  match datum.integer? with
  | some n => .ok (Numeral.hex8 n)
  | none => .error (.noInteger datum.kindName)

/-! ## Laws -/

theorem shown_of_isWritable {datum : Datum} (h : datum.isWritable = true) :
    datum.shown = .ok datum.display := by
  simp [shown, h]

@[simp] theorem shown_text (value : String) : (text value).shown = .ok value := rfl

/-- Every integer has a hexadecimal form. -/
@[simp] theorem hex_int (n : Int) : (int n).hex = .ok (Numeral.hex n) := rfl

@[simp] theorem hex8_int (n : Int) : (int n).hex8 = .ok (Numeral.hex8 n) := rfl

@[simp] theorem loggedHex8_int (n : Int) : (int n).loggedHex8 = .ok (Numeral.hex8 n) := rfl

end Datum

end CoreTiming
