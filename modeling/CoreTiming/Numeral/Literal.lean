import CoreTiming.Numeral.Digits
import CoreTiming.Text.Blank
import CoreTiming.Text.Digit
import CoreTiming.Text.Quoted

/-!
# Integer literals

A literal is read in one of two styles: `decimal`, or `marked`, where a leading `0x`, `0o` or
`0b` chooses the base and padding zeros are refused. Both allow blanks around the literal, one
sign, decimal digits of any script and single underscores between digits. A decimal literal of
more than `digitLimit` digits is refused for its length.

`scan` is the digit reader; `scan_nil_false` and `scan_underscore` say that a literal needs a
digit first and a digit after each underscore.
-/

namespace CoreTiming.Numeral

open CoreTiming.Text

/-! ## Styles and rejections -/

/-- How a literal states its base. -/
inductive Style where
  /-- Always base ten. -/
  | decimal
  /-- By its mark, and base ten without one. -/
  | marked
  deriving DecidableEq

/-- The number by which messages call a style: its base, and zero for "as marked". -/
def Style.number : Style → Int
  | .decimal => 10
  | .marked => 0

/-- Why a text is no literal. -/
inductive Rejection where
  /-- It does not have the form of a literal. -/
  | malformed
  /-- It has this many decimal digits, more than are read. -/
  | tooLong (count : Nat)
  deriving DecidableEq

/-- The explanation of a rejection. A quoted text is cut to two hundred characters. -/
def Rejection.message (style : Style) (text : List Char) : Rejection → String
  | .malformed =>
    "invalid literal for int() with base " ++ Numeral.decimal style.number ++ ": "
      ++ String.ofList ((quoted text).take 200)
  | .tooLong count =>
    limitMessage (": value has " ++ Numeral.decimal count ++ " digits")

/-! ## Digits -/

/-- The value of a digit in a base of at most sixteen. -/
def digitIn? (base : Nat) (c : Char) : Option Nat :=
  ((decimalValue? c).or (hexValue? c)).filter (· < base)

/-- Reads the longest run of digits and single underscores between them, and returns the digits
and the text after the run. The flag says whether the character before was a digit. -/
def scan (base : Nat) : Bool → List Char → Option (List Nat × List Char)
  | afterDigit, [] => if afterDigit then some ([], []) else none
  | afterDigit, c :: rest =>
    if c = '_' then if afterDigit then scan base false rest else none
    else match digitIn? base c with
      | some d => (scan base true rest).map fun found => (d :: found.1, found.2)
      | none => if afterDigit then some ([], c :: rest) else none

@[simp] theorem scan_nil_false (base : Nat) : scan base false [] = none := rfl

@[simp] theorem scan_nil_true (base : Nat) : scan base true [] = some ([], []) := rfl

@[simp] theorem scan_underscore (base : Nat) (afterDigit : Bool) (rest : List Char) :
    scan base afterDigit ('_' :: rest) = if afterDigit then scan base false rest else none := by
  simp [scan]

theorem scan_digit {base d : Nat} {c : Char} (hc : c ≠ '_') (hd : digitIn? base c = some d)
    (afterDigit : Bool) (rest : List Char) :
    scan base afterDigit (c :: rest)
      = (scan base true rest).map fun found => (d :: found.1, found.2) := by
  simp [scan, hc, hd]

/-! ## Sign and mark -/

/-- Whether the text starts with a minus sign, and the text after one sign of either kind. -/
def splitSign : List Char → Bool × List Char
  | '-' :: rest => (true, rest)
  | '+' :: rest => (false, rest)
  | text => (false, text)

/-- The base that the letter after a leading zero stands for. -/
def markedBase? (c : Char) : Option Nat :=
  if c = 'x' || c = 'X' then some 16
  else if c = 'o' || c = 'O' then some 8
  else if c = 'b' || c = 'B' then some 2
  else none

/-- Whether the text starts with a zero of any script. -/
def startsWithZero : List Char → Bool
  | [] => false
  | c :: _ => decimalValue? c = some 0

/-- The base of a marked literal and the text after its mark, of which one underscore belongs
to the mark. -/
def splitMark? : List Char → Option (Nat × List Char)
  | zero :: mark :: rest =>
    if decimalValue? zero = some 0 then
      (markedBase? mark).map fun base =>
        (base, match rest with | '_' :: rest => rest | rest => rest)
    else none
  | _ => none

/-! ## Literals -/

/-- Reads an unsigned literal of the given base; `onlyZero` refuses every value but zero. -/
def readDigits (base : Nat) (onlyZero : Bool) (text : List Char) : Except Rejection Nat :=
  match scan base false text with
  | none => .error .malformed
  | some (ds, rest) =>
    if base = 10 ∧ digitLimit < ds.length then .error (.tooLong ds.length)
    else if onlyZero ∧ ofDigits base ds ≠ 0 then .error .malformed
    else if rest.all isBlank then .ok (ofDigits base ds)
    else .error .malformed

/-- Reads an unsigned literal. A decimal literal in the marked style is zero or starts with
another digit. -/
def readUnsigned : Style → List Char → Except Rejection Nat
  | .decimal, text => readDigits 10 false text
  | .marked, text =>
    match splitMark? text with
    | some (base, rest) => readDigits base false rest
    | none => readDigits 10 (startsWithZero text) text

/-- Reads a literal. -/
def read (style : Style) (text : List Char) : Except Rejection Int :=
  let (negative, unsigned) := splitSign (text.dropWhile isBlank)
  (readUnsigned style unsigned).map fun n => if negative then -(n : Int) else (n : Int)

end CoreTiming.Numeral
