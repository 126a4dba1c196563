import CoreTiming.Listing.Reader
import CoreTiming.Numeral.Written

/-!
# Lines written as text

The two kinds of lines as a disassembler writes them, with all the freedom that it has: blanks
around an address, operands behind a mnemonic, anything behind a label. The conditions under which
such a text is a line are part of `InstructionText` and `LabelText`, so what is written is always
read back: `InstructionText.read?_render` and `LabelText.read?_render`.

Addresses are written in hexadecimal, on eight places in a label line. `addressOf_natural` and
`addressOf_padded` read them back.
-/

namespace CoreTiming.Listing

open CoreTiming.Text CoreTiming.Numeral

/-! ## Runs of a class -/

section Runs

variable {class? : Char → Bool} {run rest : List Char}

theorem takeWhile_run (hrun : ∀ c ∈ run, class? c = true)
    (hrest : ∀ c, rest.head? = some c → class? c = false) :
    (run ++ rest).takeWhile class? = run := by
  rw [List.takeWhile_append_of_pos hrun]
  cases rest with
  | nil => exact List.append_nil run
  | cons first rest => rw [List.takeWhile_cons_of_neg (by simp [hrest first rfl]), List.append_nil]

theorem dropWhile_run (hrun : ∀ c ∈ run, class? c = true)
    (hrest : ∀ c, rest.head? = some c → class? c = false) :
    (run ++ rest).dropWhile class? = rest := by
  rw [List.dropWhile_append_of_pos hrun]
  cases rest with
  | nil => rfl
  | cons first rest => rw [List.dropWhile_cons_of_neg (by simp [hrest first rfl])]

theorem mem_of_head?_append {c : Char} (hne : run ≠ []) (h : (run ++ rest).head? = some c) :
    c ∈ run := by
  cases run with
  | nil => exact absurd rfl hne
  | cons first run => exact List.mem_of_mem_head? h

end Runs

/-! ## Hexadecimal digits -/

theorem hexValue?_digitChar {d : Nat} (h : d < 16) : hexValue? (Nat.digitChar d) = some d := by
  have all : ∀ d : Fin 16, hexValue? (Nat.digitChar d) = some d.1 := by decide
  exact all ⟨d, h⟩

/-- The digits that are written are the digits that are read. -/
theorem filterMap_natural (n : Nat) : (natural 16 n).filterMap hexValue? = digits 16 n := by
  have all : ∀ ds : List Nat, (∀ d ∈ ds, d < 16) →
      (ds.map Nat.digitChar).filterMap hexValue? = ds := by
    intro ds hds
    induction ds with
    | nil => rfl
    | cons d rest ih =>
      obtain ⟨hd, hrest⟩ := List.forall_mem_cons.1 hds
      rw [List.map_cons, List.filterMap_cons_some (hexValue?_digitChar hd), ih hrest]
  exact all (digits 16 n) fun d hd => lt_of_mem_digits (by decide) hd

theorem isHexDigit_of_mem_natural {n : Nat} {c : Char} (h : c ∈ natural 16 n) :
    isHexDigit c = true := by
  obtain ⟨d, hd, rfl⟩ := List.mem_map.1 h
  rw [isHexDigit, hexValue?_digitChar (lt_of_mem_digits (by decide) hd), Option.isSome_some]

theorem natural_ne_nil (base n : Nat) : natural base n ≠ [] := by
  rw [natural, ne_eq, List.map_eq_nil_iff]
  exact digits_ne_nil base n

theorem addressOf_natural (n : Nat) : addressOf (natural 16 n) = .int n := by
  rw [addressOf, filterMap_natural, ofDigits_digits]

/-! ## Hexadecimal digits on eight places -/

theorem ofDigits_replicate_zero_append (base count : Nat) (ds : List Nat) :
    ofDigits base (List.replicate count 0 ++ ds) = ofDigits base ds := by
  induction count with
  | zero => rfl
  | succ count ih =>
    rw [List.replicate_succ, List.cons_append, ← ih, ofDigits, List.foldl_cons, Nat.zero_mul]
    rfl

theorem padded_natCast (base width n : Nat) :
    padded base width n
      = List.replicate (width - (natural base n).length) '0' ++ natural base n := by
  have hsign : sign (n : Int) = [] := if_neg (by omega)
  rw [padded, signed, hsign]
  rfl

theorem length_padded_natCast {n : Nat} (h : n < 0x100000000) :
    (padded 16 8 n).length = 8 := by
  have hlength : (natural 16 n).length ≤ 8 := by
    rw [natural, List.length_map, length_digits_le_iff (by decide) n (by decide)]
    exact h
  rw [padded_natCast, List.length_append, List.length_replicate]
  omega

theorem isHexDigit_of_mem_padded {n : Nat} {c : Char} (h : c ∈ padded 16 8 n) :
    isHexDigit c = true := by
  rw [padded_natCast, List.mem_append] at h
  rcases h with h | h
  · rw [List.eq_of_mem_replicate h]
    rfl
  · exact isHexDigit_of_mem_natural h

theorem addressOf_padded (n : Nat) : addressOf (padded 16 8 n) = .int n := by
  have hzero : hexValue? '0' = some 0 := by decide
  rw [addressOf, padded_natCast, List.filterMap_append, filterMap_natural,
    List.filterMap_replicate_of_some hzero, ofDigits_replicate_zero_append, ofDigits_digits]

/-! ## Instruction lines -/

/-- The parts of an instruction line are found where they are set. -/
theorem readInstruction?_append {indent digits gap mnemonic operands : List Char}
    (hindent : ∀ c ∈ indent, isBlank c = true) (hdigits : ∀ c ∈ digits, isHexDigit c = true)
    (hsome : digits ≠ []) (hgap : ∀ c ∈ gap, isBlank c = true) (hne : mnemonic ≠ [])
    (hsolid : ∀ c ∈ mnemonic, isBlank c = false)
    (hoperands : ∀ c, operands.head? = some c → isBlank c = true) :
    readInstruction? (indent ++ (digits ++ ':' :: (gap ++ (mnemonic ++ operands))))
      = some (.instruction (addressOf digits) (String.ofList mnemonic)) := by
  have hfirst : ∀ c, (digits ++ ':' :: (gap ++ (mnemonic ++ operands))).head? = some c →
      isBlank c = false := by
    intro c hc
    exact isBlank_of_isHexDigit (hdigits c (mem_of_head?_append hsome hc))
  have hcolon : ∀ c, (':' :: (gap ++ (mnemonic ++ operands))).head? = some c →
      isHexDigit c = false := by
    rintro c ⟨⟩
    decide
  have hstart : ∀ c, (mnemonic ++ operands).head? = some c → isBlank c = false := by
    intro c hc
    exact hsolid c (mem_of_head?_append hne hc)
  have hmnemonic : (mnemonic ++ operands).takeWhile (!isBlank ·) = mnemonic :=
    takeWhile_run (fun c hc => by simp [hsolid c hc]) fun c hc => by simp [hoperands c hc]
  rw [readInstruction?, dropWhile_run hindent hfirst, readInstructionAt?,
    takeWhile_run hdigits hcolon, dropWhile_run hdigits hcolon]
  simp only
  rw [dropWhile_run hgap hstart, hmnemonic, if_neg (by simpa using ⟨hsome, hne⟩)]

/-- An instruction line as text: blanks, an address, a colon, blanks, a mnemonic, and operands that
    are set off by a blank if there are any. -/
structure InstructionText where
  indent : String := ""
  address : Nat
  gap : String := ""
  mnemonic : String
  operands : String := ""
  indent_blank : indent.toList.all isBlank = true := by decide
  gap_blank : gap.toList.all isBlank = true := by decide
  mnemonic_ne_empty : mnemonic ≠ "" := by decide
  mnemonic_solid : mnemonic.toList.any isBlank = false := by decide
  operands_apart : operands.toList.head?.all isBlank = true := by decide
  deriving DecidableEq

namespace InstructionText

/-- The text itself. -/
def render (text : InstructionText) : String :=
  text.indent ++ hex text.address ++ ":" ++ text.gap ++ text.mnemonic ++ text.operands

/-- What the text stands for. -/
def line (text : InstructionText) : Line := .instruction (.int text.address) text.mnemonic

theorem toList_render (text : InstructionText) :
    text.render.toList
      = text.indent.toList ++ (natural 16 text.address
          ++ ':' :: (text.gap.toList ++ (text.mnemonic.toList ++ text.operands.toList))) := by
  have hsign : sign (text.address : Int) = [] := if_neg (by omega)
  simp [render, hex, signed, hsign]

theorem toList_mnemonic_ne_nil (text : InstructionText) : text.mnemonic.toList ≠ [] := by
  rw [ne_eq, String.toList_eq_nil_iff]
  exact text.mnemonic_ne_empty

theorem not_isBlank_of_mem_mnemonic (text : InstructionText) {c : Char}
    (h : c ∈ text.mnemonic.toList) : isBlank c = false := by
  rw [← Bool.not_eq_true]
  exact List.any_eq_false.1 text.mnemonic_solid c h

/-- Line ends are cut off the operands only, as a mnemonic does not end in one. -/
theorem trimEnd_render (text : InstructionText) :
    trimEnd isLineEnd text.render.toList
      = text.indent.toList ++ (natural 16 text.address
          ++ ':' :: (text.gap.toList
            ++ (text.mnemonic.toList ++ trimEnd isLineEnd text.operands.toList))) := by
  obtain ⟨front, last, hlast⟩ : ∃ front last, text.mnemonic.toList = front ++ [last] :=
    ⟨_, _, (List.dropLast_concat_getLast text.toList_mnemonic_ne_nil).symm⟩
  have hsolid : isLineEnd last = false := by
    have hblank := text.not_isBlank_of_mem_mnemonic (c := last) (by simp [hlast])
    rw [← Bool.not_eq_true]
    intro hend
    rw [isBlank_of_isLineEnd hend] at hblank
    cases hblank
  rw [toList_render, hlast]
  simpa using trimEnd_append_cons hsolid (text.indent.toList ++ (natural 16 text.address
    ++ ':' :: (text.gap.toList ++ front))) text.operands.toList

theorem isBlank_of_head?_trimEnd (text : InstructionText) {c : Char}
    (h : (trimEnd isLineEnd text.operands.toList).head? = some c) : isBlank c = true := by
  have happart := text.operands_apart
  obtain ⟨more, hmore⟩ := trimEnd_isPrefix isLineEnd text.operands.toList
  rw [← hmore, List.head?_append, h] at happart
  exact happart

/-- An instruction line is read back. -/
theorem read?_render (text : InstructionText) : read? text.render = some text.line := by
  have hread := readInstruction?_append (List.all_eq_true.1 text.indent_blank)
    (fun c hc => isHexDigit_of_mem_natural hc) (natural_ne_nil 16 text.address)
    (List.all_eq_true.1 text.gap_blank) text.toList_mnemonic_ne_nil
    (fun c hc => text.not_isBlank_of_mem_mnemonic hc) fun c hc => text.isBlank_of_head?_trimEnd hc
  rw [← trimEnd_render, addressOf_natural, String.ofList_toList] at hread
  -- a label line would not be an instruction line
  have hlabel : readLabel? (trimEnd isLineEnd text.render.toList) = none := by
    rw [← Option.not_isSome_iff_eq_none]
    intro hsome
    rw [readInstruction?_eq_none_of_readLabel? hsome] at hread
    cases hread
  rw [read?, readChars?, hlabel, Option.none_or, hread, line]

end InstructionText

/-! ## Label lines -/

/-- The label ends at the first closing bracket. -/
theorem readLabelName?_append {gap : Char} {name : List Char} (hgap : isBlank gap = true)
    (hne : name ≠ []) (hfree : '>' ∉ name) (rest : List Char) :
    readLabelName? (gap :: '<' :: (name ++ '>' :: ':' :: rest)) = some name := by
  have hname : ∀ c ∈ name, decide (c ≠ '>') = true := by
    intro c hc
    rw [decide_eq_true_iff]
    rintro rfl
    exact hfree hc
  have hclose : ∀ c, ('>' :: ':' :: rest).head? = some c → decide (c ≠ '>') = false := by
    rintro c ⟨⟩
    decide
  rw [readLabelName?, takeWhile_run hname hclose, dropWhile_run hname hclose]
  simp [hgap, hne]

theorem readLabel?_append {digits : List Char} {gap : Char} {name : List Char}
    (hlength : digits.length = 8) (hdigits : ∀ c ∈ digits, isHexDigit c = true)
    (hgap : isBlank gap = true) (hne : name ≠ []) (hfree : '>' ∉ name) (rest : List Char) :
    readLabel? (digits ++ gap :: '<' :: (name ++ '>' :: ':' :: rest))
      = some (.label (addressOf digits) (String.ofList name)) := by
  have hall : digits.all isHexDigit = true := List.all_eq_true.2 hdigits
  rw [readLabel?, List.take_left' hlength, List.drop_left' hlength,
    readLabelName?_append hgap hne hfree]
  simp [hlength, hall]

/-- A label line as text: an address on eight places, a blank, the label in angle brackets, and a
    colon. What follows is free. -/
structure LabelText where
  address : Nat
  label : String
  rest : String := ""
  address_lt : address < 0x100000000 := by decide
  label_ne_empty : label ≠ "" := by decide
  label_free : '>' ∉ label.toList := by decide

namespace LabelText

/-- The text itself. -/
def render (text : LabelText) : String :=
  hex8 text.address ++ " <" ++ text.label ++ ">:" ++ text.rest

/-- What the text stands for. -/
def line (text : LabelText) : Line := .label (.int text.address) text.label

/-- Line ends are cut off what follows the colon only. -/
theorem trimEnd_render (text : LabelText) :
    trimEnd isLineEnd text.render.toList
      = padded 16 8 text.address ++ ' ' :: '<' :: (text.label.toList
          ++ '>' :: ':' :: trimEnd isLineEnd text.rest.toList) := by
  have hcolon : isLineEnd ':' = false := by decide
  have hcut := trimEnd_append_cons hcolon
    (padded 16 8 text.address ++ ' ' :: '<' :: (text.label.toList ++ ['>'])) text.rest.toList
  simpa [render, hex8] using hcut

/-- A label line is read back. -/
theorem read?_render (text : LabelText) : read? text.render = some text.line := by
  have hblank : isBlank ' ' = true := by decide
  have hne : text.label.toList ≠ [] := by
    rw [ne_eq, String.toList_eq_nil_iff]
    exact text.label_ne_empty
  rw [read?, readChars?, trimEnd_render,
    readLabel?_append (length_padded_natCast text.address_lt)
      (fun c hc => isHexDigit_of_mem_padded hc) hblank hne text.label_free,
    addressOf_padded, String.ofList_toList, Option.some_or, line]

end LabelText

end CoreTiming.Listing
