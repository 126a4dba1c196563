import CoreTiming.Listing.Line
import CoreTiming.Numeral.Digits
import CoreTiming.Text.Blank
import CoreTiming.Text.Digit

/-!
# Reading a listing

A label line has exactly eight hexadecimal digits, one blank, and the label between `<` and
`>:`; the label is not empty and holds no `>`. An instruction line has any blanks, at least one
hexadecimal digit, a colon, any blanks, and a mnemonic, which ends at the next blank. What
follows the label or the mnemonic is free. Line ends at the end of a text are dropped first.

No text has both forms (`readInstruction?_eq_none_of_readLabel?`), so the order in which they
are tried does not matter.
-/

namespace CoreTiming.Listing

open CoreTiming.Text

/-- The address that a run of hexadecimal digits denotes, as `visit_address` and
`visit_label_address` read it. -/
def addressOf (digits : List Char) : Datum :=
  .int (Numeral.ofDigits 16 (digits.filterMap hexValue?))

/-- The rule `function_label` of `OBJDUMP_LINE_GRAMMAR` behind its address. -/
def readLabelName? : List Char → Option (List Char)
  | gap :: '<' :: rest =>
    let name := rest.takeWhile (· ≠ '>')
    match rest.dropWhile (· ≠ '>') with
    | '>' :: ':' :: _ => if isBlank gap && !name.isEmpty then some name else none
    | _ => none
  | _ => none

/-- The rule `function_label` of `OBJDUMP_LINE_GRAMMAR`. -/
def readLabel? (text : List Char) : Option Line :=
  let digits := text.take 8
  if digits.length = 8 && digits.all isHexDigit then
    (readLabelName? (text.drop 8)).map fun name =>
      .label (addressOf digits) (String.ofList name)
  else none

/-- The rule `instruction` of `OBJDUMP_LINE_GRAMMAR` behind the blanks in front. -/
def readInstructionAt? (text : List Char) : Option Line :=
  let digits := text.takeWhile isHexDigit
  match text.dropWhile isHexDigit with
  | ':' :: rest =>
    let mnemonic := (rest.dropWhile isBlank).takeWhile (!isBlank ·)
    if digits.isEmpty || mnemonic.isEmpty then none
    else some (.instruction (addressOf digits) (String.ofList mnemonic))
  | _ => none

/-- The rule `instruction` of `OBJDUMP_LINE_GRAMMAR`. -/
def readInstruction? (text : List Char) : Option Line :=
  readInstructionAt? (text.dropWhile isBlank)

/-- The rule `line` of `OBJDUMP_LINE_GRAMMAR`, an ordered choice, on a text without its line ends.
-/
def readChars? (text : List Char) : Option Line :=
  let text := trimEnd isLineEnd text
  (readLabel? text).or (readInstruction? text)

/-- `parse_line`: reads one line of a listing; other lines than the two kinds are none. -/
def read? (text : String) : Option Line := readChars? text.toList

/-- `iter_disassembly`: the lines of a listing that carry an address, in order. -/
def readAll (texts : List String) : List Line := texts.filterMap read?

/-- A hexadecimal digit is no white space. -/
theorem isBlank_of_isHexDigit {c : Char} (h : isHexDigit c = true) : isBlank c = false := by
  have range := toNat_of_isHexDigit h
  rw [← Bool.not_eq_true]
  intro blank
  obtain ⟨range, member, low, high⟩ := Ranges.holds_iff.1 blank
  simp only [blankRanges, List.mem_cons, List.not_mem_nil, or_false] at member
  rcases member with rfl | rfl | rfl | rfl | rfl | rfl | rfl | rfl | rfl | rfl <;>
    simp only at low high <;> omega

/-- A run of digits in front of a character of another kind is the longest run. -/
theorem readInstructionAt?_append {digits rest : List Char} {gap : Char}
    (hdigits : digits.all isHexDigit = true) (hgap : isBlank gap = true) :
    readInstructionAt? (digits ++ gap :: rest) = none := by
  have noDigit : isHexDigit gap = false := by
    rw [← Bool.not_eq_true]
    intro h
    simp [isBlank_of_isHexDigit h] at hgap
  have noColon : gap ≠ ':' := by
    rintro rfl
    exact absurd hgap (by decide)
  have after : (digits ++ gap :: rest).dropWhile isHexDigit = gap :: rest := by
    rw [List.dropWhile_append_of_pos (by simpa using hdigits),
      List.dropWhile_cons_of_neg (by simp [noDigit])]
  unfold readInstructionAt?
  rw [after]
  simp [noColon]

/-- No text is both a label line and an instruction line. -/
theorem readInstruction?_eq_none_of_readLabel? {text : List Char}
    (h : (readLabel? text).isSome = true) : readInstruction? text = none := by
  simp only [readLabel?] at h
  split at h
  · rename_i shape
    obtain ⟨length, digits⟩ : (text.take 8).length = 8 ∧ (text.take 8).all isHexDigit = true := by
      simpa using shape
    rcases hrest : text.drop 8 with _ | ⟨gap, rest⟩
    · simp [hrest, readLabelName?] at h
    · have hgap : isBlank gap = true := by
        rw [hrest] at h
        revert h
        unfold readLabelName?
        split
        · rename_i heq
          cases heq
          simp only
          split <;> simp_all
        · simp
      have split : text = text.take 8 ++ gap :: rest := by
        rw [← hrest, List.take_append_drop]
      have front : text.dropWhile isBlank = text := by
        rcases htext : text.take 8 with _ | ⟨first, more⟩
        · simp [htext] at length
        · rw [split, htext, List.cons_append, List.dropWhile_cons_of_neg]
          rw [htext] at digits
          simp [isBlank_of_isHexDigit (List.all_eq_true.1 digits first List.mem_cons_self)]
      rw [readInstruction?, front, split]
      exact readInstructionAt?_append digits hgap
  · simp at h

/-- The address of a line that is read from text is an integer. -/
theorem exists_int_of_read? {text : String} {line : Line} (h : read? text = some line) :
    ∃ n : Nat, line.address = .int n := by
  rcases Option.or_eq_some_iff.1 h with h | ⟨-, h⟩
  · rw [readLabel?] at h
    split at h
    · obtain ⟨name, -, rfl⟩ := Option.map_eq_some_iff.1 h
      exact ⟨_, rfl⟩
    · cases h
  · rw [readInstruction?, readInstructionAt?] at h
    split at h
    · simp only at h
      split at h
      · cases h
      · cases h
        exact ⟨_, rfl⟩
    · cases h

theorem exists_int_of_mem_readAll {texts : List String} {line : Line}
    (h : line ∈ readAll texts) : ∃ n : Nat, line.address = .int n := by
  obtain ⟨text, -, hread⟩ := List.mem_filterMap.1 h
  exact exists_int_of_read? hread

@[simp] theorem readAll_append (texts more : List String) :
    readAll (texts ++ more) = readAll texts ++ readAll more := by
  simp [readAll]

end CoreTiming.Listing
