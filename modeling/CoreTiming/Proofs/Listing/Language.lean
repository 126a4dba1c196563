import CoreTiming.Proofs.Text.Trim
import Mathlib.Data.List.Induction
import Mathlib.Data.List.TakeWhile
import Mathlib.Data.Nat.Digits.Defs

/-!
# The language of a listing

What is a label line and what is an instruction line, said by taking a text apart: a text is of a
kind when it can be cut into parts of the right classes in some way. The reader never looks for a
second way. It takes the longest run of a class wherever it stands, and looks for a label line
first.

Results:
* `readLabel?_eq_some_iff`, `readInstruction?_eq_some_iff`: the reader finds a line of a kind
  exactly where the text can be cut into the parts of that kind;
* `IsLabelLine.not_isInstructionLine`: no text is of both kinds;
* `read?_iff_shape`: what is read of a text, which is a line of the one kind, a line of the other,
  or nothing, and never depends on the order in which the kinds are tried.
-/

namespace CoreTiming.Listing

open CoreTiming.Text CoreTiming.Numeral

/-! ## Hexadecimal numbers -/

/-- The ASCII hexadecimal digits of either letter case. -/
def hexAlphabet : List Char := "0123456789abcdefABCDEF".toList

/-- The value of a hexadecimal digit: its place among the sixteen, whatever its letter case. -/
def hexDigitValue (c : Char) : Nat := "0123456789abcdef".toList.idxOf c.toLower

/-- The number that hexadecimal digits denote, the most significant one first. -/
def hexNumber (digits : List Char) : Nat := Nat.ofDigits 16 (digits.reverse.map hexDigitValue)

theorem hexValue?_of_mem {c : Char} (h : c ∈ hexAlphabet) :
    hexValue? c = some (hexDigitValue c) := by
  have all : hexAlphabet.all (fun c => hexValue? c == some (hexDigitValue c)) = true := by
    decide +kernel
  simpa using List.all_eq_true.1 all c h

theorem isHexDigit_iff {c : Char} : isHexDigit c = true ↔ c ∈ hexAlphabet := by
  constructor
  · intro h
    have range := toNat_of_isHexDigit h
    have hmem : ∀ n : Fin 128, (48 ≤ n.1 ∧ n.1 ≤ 57) ∨ (97 ≤ n.1 ∧ n.1 ≤ 102)
        ∨ (65 ≤ n.1 ∧ n.1 ≤ 70) → Char.ofNat n.1 ∈ hexAlphabet := by decide +kernel
    rw [← Char.ofNat_toNat c]
    exact hmem ⟨c.toNat, by omega⟩ range
  · intro h
    rw [isHexDigit, hexValue?_of_mem h, Option.isSome_some]

/-- Horner's rule. -/
theorem ofDigits_eq_ofDigits_reverse (base : Nat) (ds : List Nat) :
    Numeral.ofDigits base ds = Nat.ofDigits base ds.reverse := by
  induction ds using List.reverseRecOn with
  | nil => rfl
  | append_singleton ds d ih =>
    rw [ofDigits_append_singleton, ih, List.reverse_append, List.reverse_singleton,
      List.singleton_append, Nat.ofDigits_cons, Nat.mul_comm, Nat.add_comm]

theorem addressOf_eq_hexNumber {digits : List Char} (h : ∀ c ∈ digits, c ∈ hexAlphabet) :
    addressOf digits = .int (hexNumber digits) := by
  have hvalues : digits.filterMap hexValue? = digits.map hexDigitValue := by
    induction digits with
    | nil => rfl
    | cons c rest ih =>
      obtain ⟨hc, hrest⟩ := List.forall_mem_cons.1 h
      rw [List.filterMap_cons_some (hexValue?_of_mem hc), ih hrest, List.map_cons]
  rw [addressOf, hvalues, ofDigits_eq_ofDigits_reverse, ← List.map_reverse, hexNumber]

/-! ## The two kinds of lines -/

/-- A label line: eight hexadecimal digits, one blank, the label between `<` and `>:`, and anything
    behind it. -/
inductive IsLabelLine : List Char → Nat → String → Prop
  | intro {digits : List Char} {gap : Char} {label : String} {rest : List Char}
      (eight : digits.length = 8) (hexadecimal : ∀ c ∈ digits, c ∈ hexAlphabet)
      (blank : isBlank gap = true) (named : label ≠ "") (free : '>' ∉ label.toList) :
      IsLabelLine (digits ++ gap :: '<' :: (label.toList ++ '>' :: ':' :: rest))
        (hexNumber digits) label

/-- An instruction line: blanks, hexadecimal digits, a colon, blanks, a mnemonic without blanks, and
    anything behind it that starts with a blank. -/
inductive IsInstructionLine : List Char → Nat → String → Prop
  | intro {indent digits gap rest : List Char} {mnemonic : String}
      (indented : ∀ c ∈ indent, isBlank c = true) (some_digit : digits ≠ [])
      (hexadecimal : ∀ c ∈ digits, c ∈ hexAlphabet) (spaced : ∀ c ∈ gap, isBlank c = true)
      (named : mnemonic ≠ "") (solid : ∀ c ∈ mnemonic.toList, isBlank c = false)
      (apart : ∀ c, rest.head? = some c → isBlank c = true) :
      IsInstructionLine (indent ++ (digits ++ ':' :: (gap ++ (mnemonic.toList ++ rest))))
        (hexNumber digits) mnemonic

variable {text : List Char} {address other : Nat} {label mnemonic : String}

/-! ## Label lines -/

theorem IsLabelLine.readLabel?_eq (h : IsLabelLine text address label) :
    readLabel? text = some (.label (.int address) label) := by
  obtain ⟨eight, hexadecimal, blank, named, free⟩ := h
  have hne : label.toList ≠ [] := by rwa [ne_eq, String.toList_eq_nil_iff]
  rw [readLabel?_append eight (fun c hc => isHexDigit_iff.2 (hexadecimal c hc)) blank hne free,
    addressOf_eq_hexNumber hexadecimal, String.ofList_toList]

theorem exists_of_readLabelName? {name : List Char} (h : readLabelName? text = some name) :
    ∃ gap rest, isBlank gap = true ∧ name ≠ [] ∧ '>' ∉ name
      ∧ text = gap :: '<' :: (name ++ '>' :: ':' :: rest) := by
  unfold readLabelName? at h
  split at h
  · rename_i gap behind
    simp only at h
    split at h
    · rename_i rest hrest
      split at h
      · rename_i hshape
        cases h
        obtain ⟨blank, named⟩ : isBlank gap = true ∧ behind.takeWhile (· ≠ '>') ≠ [] := by
          simpa using hshape
        refine ⟨gap, rest, blank, named, fun hmem => ?_, ?_⟩
        · simpa using List.mem_takeWhile_imp hmem
        · rw [← hrest, List.takeWhile_append_dropWhile]
      · cases h
    · cases h
  · cases h

theorem readLabel?_eq_some_iff {line : Line} :
    readLabel? text = some line
      ↔ ∃ (address : Nat) (label : String), line = .label (.int address) label
          ∧ IsLabelLine text address label := by
  constructor
  · intro h
    rw [readLabel?] at h
    split at h
    · rename_i hshape
      obtain ⟨eight, hdigits⟩ : (text.take 8).length = 8
          ∧ (text.take 8).all isHexDigit = true := by simpa using hshape
      obtain ⟨name, hname, rfl⟩ := Option.map_eq_some_iff.1 h
      obtain ⟨gap, rest, blank, named, free, hbehind⟩ := exists_of_readLabelName? hname
      have hexadecimal : ∀ c ∈ text.take 8, c ∈ hexAlphabet := fun c hc =>
        isHexDigit_iff.1 (List.all_eq_true.1 hdigits c hc)
      refine ⟨hexNumber (text.take 8), String.ofList name, ?_, ?_⟩
      · rw [addressOf_eq_hexNumber hexadecimal]
      · have hline : IsLabelLine
            (text.take 8 ++ gap :: '<' :: ((String.ofList name).toList ++ '>' :: ':' :: rest))
            (hexNumber (text.take 8)) (String.ofList name) :=
          .intro eight hexadecimal blank (by simpa using named) (by simpa using free)
        rwa [String.toList_ofList, ← hbehind, List.take_append_drop] at hline
    · cases h
  · rintro ⟨address, label, rfl, h⟩
    exact h.readLabel?_eq

/-! ## Instruction lines -/

theorem IsInstructionLine.readInstruction?_eq (h : IsInstructionLine text address mnemonic) :
    readInstruction? text = some (.instruction (.int address) mnemonic) := by
  obtain ⟨indented, some_digit, hexadecimal, spaced, named, solid, apart⟩ := h
  have hne : mnemonic.toList ≠ [] := by rwa [ne_eq, String.toList_eq_nil_iff]
  rw [readInstruction?_append indented (fun c hc => isHexDigit_iff.2 (hexadecimal c hc)) some_digit
    spaced hne solid apart, addressOf_eq_hexNumber hexadecimal, String.ofList_toList]

theorem readInstruction?_eq_some_iff {line : Line} :
    readInstruction? text = some line
      ↔ ∃ (address : Nat) (mnemonic : String), line = .instruction (.int address) mnemonic
          ∧ IsInstructionLine text address mnemonic := by
  constructor
  · intro h
    rw [readInstruction?, readInstructionAt?] at h
    split at h
    · rename_i behind hbehind
      simp only at h
      split at h
      · cases h
      · rename_i hshape
        cases h
        obtain ⟨some_digit, named⟩ : (text.dropWhile isBlank).takeWhile isHexDigit ≠ []
            ∧ (behind.dropWhile isBlank).takeWhile (!isBlank ·) ≠ [] := by simpa using hshape
        have hexadecimal : ∀ c ∈ (text.dropWhile isBlank).takeWhile isHexDigit,
            c ∈ hexAlphabet := fun c hc => isHexDigit_iff.1 (List.mem_takeWhile_imp hc)
        refine ⟨_, _, by rw [addressOf_eq_hexNumber hexadecimal], ?_⟩
        have hline : IsInstructionLine
            (text.takeWhile isBlank ++ ((text.dropWhile isBlank).takeWhile isHexDigit
              ++ ':' :: (behind.takeWhile isBlank
                ++ ((String.ofList ((behind.dropWhile isBlank).takeWhile (!isBlank ·))).toList
                  ++ (behind.dropWhile isBlank).dropWhile (!isBlank ·)))))
            (hexNumber ((text.dropWhile isBlank).takeWhile isHexDigit))
            (String.ofList ((behind.dropWhile isBlank).takeWhile (!isBlank ·))) := .intro
          (fun c hc => List.mem_takeWhile_imp hc) some_digit hexadecimal
          (fun c hc => List.mem_takeWhile_imp hc) (by simpa using named)
          (fun c hc => by
            rw [String.toList_ofList] at hc
            simpa using List.mem_takeWhile_imp hc)
          (fun c hc => by
            have hfirst := List.head?_dropWhile_not (!isBlank ·) (behind.dropWhile isBlank)
            rw [hc] at hfirst
            simpa using hfirst)
        rwa [String.toList_ofList, List.takeWhile_append_dropWhile,
          List.takeWhile_append_dropWhile, ← hbehind, List.takeWhile_append_dropWhile,
          List.takeWhile_append_dropWhile] at hline
    · cases h
  · rintro ⟨address, mnemonic, rfl, h⟩
    exact h.readInstruction?_eq

/-! ## The language -/

theorem IsLabelLine.unique {name : String} (h : IsLabelLine text address label)
    (hother : IsLabelLine text other name) : address = other ∧ label = name := by
  have hsame := h.readLabel?_eq.symm.trans hother.readLabel?_eq
  simpa using hsame

theorem IsInstructionLine.unique {name : String} (h : IsInstructionLine text address mnemonic)
    (hother : IsInstructionLine text other name) : address = other ∧ mnemonic = name := by
  have hsame := h.readInstruction?_eq.symm.trans hother.readInstruction?_eq
  simpa using hsame

/-- No text is of both kinds: the digits of a label line end in a blank, those of an instruction
    line in a colon. -/
theorem IsLabelLine.not_isInstructionLine (h : IsLabelLine text address label) :
    ¬IsInstructionLine text other mnemonic := by
  intro hother
  have hnone : readInstruction? text = none :=
    readInstruction?_eq_none_of_readLabel? (by rw [h.readLabel?_eq, Option.isSome_some])
  rw [hother.readInstruction?_eq] at hnone
  cases hnone

/-- A text without the line ends at its end. -/
def stripped (text : String) : List Char := trimEnd isLineEnd text.toList

theorem stripped_spec (text : String) :
    ∃ ends, text.toList = stripped text ++ ends ∧ (∀ c ∈ ends, c = '\r' ∨ c = '\n')
      ∧ ∀ c, (stripped text).getLast? = some c → c ≠ '\r' ∧ c ≠ '\n' := by
  obtain ⟨ends, htext, hends⟩ := exists_padding isLineEnd text.toList
  refine ⟨ends, htext, fun c hc => ?_, fun c hc => ?_⟩
  · simpa [isLineEnd] using hends c hc
  · simpa [isLineEnd] using getLast?_trimEnd hc

theorem read?_eq (text : String) :
    read? text = (readLabel? (stripped text)).or (readInstruction? (stripped text)) := rfl

/-- What is read of a text is a label line or an instruction line that the text is. -/
theorem read?_eq_some_iff {text : String} {line : Line} :
    read? text = some line
      ↔ (∃ (address : Nat) (label : String), line = .label (.int address) label
            ∧ IsLabelLine (stripped text) address label)
        ∨ ∃ (address : Nat) (mnemonic : String), line = .instruction (.int address) mnemonic
            ∧ IsInstructionLine (stripped text) address mnemonic := by
  rw [read?_eq, Option.or_eq_some_iff, readLabel?_eq_some_iff, readInstruction?_eq_some_iff]
  constructor
  · rintro (h | ⟨-, h⟩)
    · exact .inl h
    · exact .inr h
  · rintro (h | ⟨address, mnemonic, rfl, h⟩)
    · exact .inl h
    · refine .inr ⟨?_, address, mnemonic, rfl, h⟩
      -- a label line would not be an instruction line
      rw [Option.eq_none_iff_forall_ne_some]
      intro line hline
      obtain ⟨other, label, -, hlabel⟩ := readLabel?_eq_some_iff.1 hline
      exact hlabel.not_isInstructionLine h

/-- **The language of a listing.** Let the line ends at the end of a text be cut off. A label line
    is read with an address and a label exactly where the text is a label line with these, and an
    instruction line with an address and a mnemonic exactly where the text is an instruction line
    with these. Nothing is read exactly where the text is of neither kind. No text is of both kinds,
    or of one kind with two addresses, labels or mnemonics, so it does not matter which kind is
    tried first. -/
theorem read?_iff_shape (text : String) :
    (∃ ends, text.toList = stripped text ++ ends ∧ (∀ c ∈ ends, c = '\r' ∨ c = '\n')
        ∧ ∀ c, (stripped text).getLast? = some c → c ≠ '\r' ∧ c ≠ '\n')
    ∧ (∀ address label, read? text = some (.label address label)
        ↔ ∃ n : Nat, address = .int n ∧ IsLabelLine (stripped text) n label)
    ∧ (∀ address mnemonic, read? text = some (.instruction address mnemonic)
        ↔ ∃ n : Nat, address = .int n ∧ IsInstructionLine (stripped text) n mnemonic)
    ∧ (read? text = none
        ↔ (∀ n label, ¬IsLabelLine (stripped text) n label)
          ∧ ∀ n mnemonic, ¬IsInstructionLine (stripped text) n mnemonic)
    ∧ (∀ shape n m label mnemonic,
        IsLabelLine shape n label → ¬IsInstructionLine shape m mnemonic)
    ∧ (∀ shape n m label other, IsLabelLine shape n label → IsLabelLine shape m other →
        n = m ∧ label = other)
    ∧ (∀ shape n m mnemonic other,
        IsInstructionLine shape n mnemonic → IsInstructionLine shape m other →
        n = m ∧ mnemonic = other)
    ∧ read? text = (readInstruction? (stripped text)).or (readLabel? (stripped text)) := by
  refine ⟨stripped_spec text, fun address label => ?_, fun address mnemonic => ?_, ?_,
    fun _ _ _ _ _ h => h.not_isInstructionLine, fun _ _ _ _ _ h => h.unique,
    fun _ _ _ _ _ h => h.unique, ?_⟩
  · simp [read?_eq_some_iff]
  · simp [read?_eq_some_iff]
  · constructor
    · intro hnone
      constructor
      · intro n label h
        have hread := read?_eq_some_iff.2 (.inl ⟨n, label, rfl, h⟩)
        rw [hnone] at hread
        cases hread
      · intro n mnemonic h
        have hread := read?_eq_some_iff.2 (.inr ⟨n, mnemonic, rfl, h⟩)
        rw [hnone] at hread
        cases hread
    · rintro ⟨hlabel, hinstruction⟩
      rw [Option.eq_none_iff_forall_ne_some]
      intro line hline
      obtain ⟨n, label, -, h⟩ | ⟨n, mnemonic, -, h⟩ := read?_eq_some_iff.1 hline
      · exact hlabel n label h
      · exact hinstruction n mnemonic h
  · rw [read?_eq]
    cases hlabel : readLabel? (stripped text) with
    | none => rw [Option.none_or, Option.or_none]
    | some line =>
      rw [readInstruction?_eq_none_of_readLabel? (by rw [hlabel, Option.isSome_some]),
        Option.some_or, Option.none_or]

end CoreTiming.Listing
