import CoreTiming.Text.Ranges

/-!
# White space

Two sets of white space are in use. A disassembly listing takes the code points with the Unicode
property `White_Space` (`isBlank`); a simulator trace takes those and the four information
separators U+001C to U+001F (`isSpace`). Both contain every character that
`Char.isWhitespace` accepts (`isBlank_of_isWhitespace`, `isSpace_of_isBlank`).

`trimEnd` and `trim` cut a class of characters off the ends of a text.
-/

namespace CoreTiming.Text

/-! ## Classes -/

/-- The code points with the Unicode property `White_Space`. -/
def blankRanges : Ranges :=
  [(0x09, 0x0D), (0x20, 0x20), (0x85, 0x85), (0xA0, 0xA0), (0x1680, 0x1680), (0x2000, 0x200A),
    (0x2028, 0x2029), (0x202F, 0x202F), (0x205F, 0x205F), (0x3000, 0x3000)]

/-- White space in a disassembly listing. -/
def isBlank (c : Char) : Bool := blankRanges.holds c

/-- The information separators: file, group, record and unit separator. -/
def isInformationSeparator (c : Char) : Bool := Ranges.holds [(0x1C, 0x1F)] c

/-- White space in a simulator trace. -/
def isSpace (c : Char) : Bool := isBlank c || isInformationSeparator c

/-- The two characters that end lines. -/
def isLineEnd (c : Char) : Bool := c = '\r' || c = '\n'

theorem isBlank_of_isWhitespace {c : Char} (h : c.isWhitespace = true) : isBlank c = true := by
  have cases : c = ' ' ∨ c = '\t' ∨ c = '\r' ∨ c = '\n' := by
    simpa [Char.isWhitespace, or_assoc] using h
  rcases cases with rfl | rfl | rfl | rfl <;> decide

theorem isSpace_of_isBlank {c : Char} (h : isBlank c = true) : isSpace c = true := by
  simp [isSpace, h]

theorem isBlank_of_isLineEnd {c : Char} (h : isLineEnd c = true) : isBlank c = true := by
  have cases : c = '\r' ∨ c = '\n' := by simpa [isLineEnd] using h
  rcases cases with rfl | rfl <;> decide

/-! ## Cutting the ends -/

/-- The text without the characters of the class at its end. -/
def trimEnd (class? : Char → Bool) (text : List Char) : List Char :=
  (text.reverse.dropWhile class?).reverse

/-- The text without the characters of the class at either end. -/
def trim (class? : Char → Bool) (text : List Char) : List Char :=
  trimEnd class? (text.dropWhile class?)

@[simp] theorem trimEnd_nil (class? : Char → Bool) : trimEnd class? [] = [] := rfl

/-- A character outside the class protects all before it. -/
theorem trimEnd_append_cons {class? : Char → Bool} {c : Char} (h : class? c = false)
    (text rest : List Char) :
    trimEnd class? (text ++ c :: rest) = text ++ c :: trimEnd class? rest := by
  simp only [trimEnd, List.reverse_append, List.reverse_cons, List.append_assoc,
    List.singleton_append, List.dropWhile_append]
  split
  · rename_i hrest
    rw [List.isEmpty_iff] at hrest
    simp [hrest, h]
  · simp

/-- Only the end is cut. -/
theorem trimEnd_isPrefix (class? : Char → Bool) (text : List Char) :
    trimEnd class? text <+: text := by
  rw [← List.reverse_suffix, trimEnd, List.reverse_reverse]
  exact List.dropWhile_suffix class?

end CoreTiming.Text
