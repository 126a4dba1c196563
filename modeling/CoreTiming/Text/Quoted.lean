import CoreTiming.Numeral.Written
import CoreTiming.Text.Printable

/-!
# Quoted text

Text is shown between single quotes, or between double quotes when it holds a single quote and
no double quote. The quote in use, the backslash and every unprintable character are escaped;
`escape_of_plain` says that all else stands for itself.
-/

namespace CoreTiming.Text

/-- The quote that surrounds a text. -/
def quoteMark (text : List Char) : Char :=
  if text.contains '\'' && !text.contains '"' then '"' else '\''

/-- An unprintable character by its code point, on two, four or eight hexadecimal places. -/
def escapeCode (c : Char) : List Char :=
  if c.toNat < 0x100 then '\\' :: 'x' :: Numeral.padded 16 2 c.toNat
  else if c.toNat < 0x10000 then '\\' :: 'u' :: Numeral.padded 16 4 c.toNat
  else '\\' :: 'U' :: Numeral.padded 16 8 c.toNat

/-- One character of a text between marks. -/
def escape (mark c : Char) : List Char :=
  if c = mark || c = '\\' then ['\\', c]
  else if c = '\n' then ['\\', 'n']
  else if c = '\r' then ['\\', 'r']
  else if c = '\t' then ['\\', 't']
  else if isPrintable c then [c]
  else escapeCode c

/-- A text between its quotes. -/
def quoted (text : List Char) : List Char :=
  quoteMark text :: text.flatMap (escape (quoteMark text)) ++ [quoteMark text]

/-- A string between its quotes. -/
def quote (text : String) : String := String.ofList (quoted text.toList)

/-- A printable character other than the mark and the backslash stands for itself. -/
theorem escape_of_plain {mark c : Char} (printable : isPrintable c = true) (notMark : c ≠ mark)
    (notBackslash : c ≠ '\\') : escape mark c = [c] := by
  have notLine : c ≠ '\n' ∧ c ≠ '\r' ∧ c ≠ '\t' := by
    refine ⟨?_, ?_, ?_⟩ <;> rintro rfl <;> exact absurd printable (by decide)
  simp [escape, printable, notMark, notBackslash, notLine]

end CoreTiming.Text
