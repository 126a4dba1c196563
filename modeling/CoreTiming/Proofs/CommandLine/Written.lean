import CoreTiming.CommandLine.Quote

/-!
# Command lines written and read back

The cutter of command lines works through a text piece by piece. A piece leads it from one mode to
another and adds characters to the word, whatever stands behind the piece (`Spells`); pieces one
behind the other add up. A quoted word is a piece that adds the characters of the word, and the
blank behind it completes the word.

Results:
* `spells_quoteWord`: a word as it is quoted is read as that word;
* `split_join`: a joined command line is cut into the words it was joined of.
-/

namespace CoreTiming.CommandLine

/-! ## Pieces of a command line -/

/-- A text leads from a mode to another and adds characters to the word, whatever follows. -/
def Spells (mode next : Mode) (text added : List Char) : Prop :=
  ∀ rest, words mode (text ++ rest) = (words next rest).map (List.modifyHead (added ++ ·))

variable {mode next last : Mode} {c : Char} {text more added others word : List Char}

theorem Spells.nil (mode : Mode) : Spells mode mode [] [] := by
  intro rest
  rw [List.nil_append]
  rcases words mode rest with e | _ | _ <;> rfl

theorem Spells.append (h : Spells mode next text added) (hmore : Spells next last more others) :
    Spells mode last (text ++ more) (added ++ others) := by
  intro rest
  rw [List.append_assoc, h, hmore]
  rcases words last rest with e | _ | ⟨first, later⟩
  · rfl
  · rfl
  · simp [Except.map]

theorem Spells.of_advance (h : advance mode c = (next, added)) (hne : next ≠ .between) :
    Spells mode next [c] added := by
  intro rest
  simp [words, h, hne]

/-! ## Quoted words -/

theorem advancePlain_of_isBare (h : isBare c = true) : advancePlain c = (.inWord, [c]) := by
  have hother (d : Char) (hd : isBare d = false) : c ≠ d := by
    rintro rfl
    simp [h] at hd
  have hblanks : c ≠ ' ' ∧ c ≠ '\t' ∧ c ≠ '\r' ∧ c ≠ '\n' :=
    ⟨hother _ rfl, hother _ rfl, hother _ rfl, hother _ rfl⟩
  have hmarks : c ≠ '\\' ∧ c ≠ '\'' ∧ c ≠ '"' := ⟨hother _ rfl, hother _ rfl, hother _ rfl⟩
  simp [advancePlain, isSeparator, hblanks, hmarks]

theorem spells_bare (h : word.all isBare = true) : Spells .inWord .inWord word word := by
  induction word with
  | nil => exact .nil _
  | cons c word ih =>
    rw [List.all_cons, Bool.and_eq_true] at h
    have hfirst : Spells .inWord .inWord [c] [c] :=
      .of_advance (advancePlain_of_isBare h.1) (by decide)
    exact hfirst.append (ih h.2)

/-- Between single quotes a character stands for itself, and a single quote is put in by leaving
    the quotes for a pair of double quotes around it. -/
theorem spells_quoteChar (c : Char) : Spells .inSingle .inSingle (quoteChar c) [c] := by
  unfold quoteChar
  split
  next h =>
    subst h
    have hleave : Spells .inSingle .inWord ['\''] [] := .of_advance rfl (by decide)
    have hopen : Spells .inWord .inDouble ['"'] [] := .of_advance rfl (by decide)
    have hquote : Spells .inDouble .inDouble ['\''] ['\''] := .of_advance rfl (by decide)
    have hclose : Spells .inDouble .inWord ['"'] [] := .of_advance rfl (by decide)
    have henter : Spells .inWord .inSingle ['\''] [] := .of_advance rfl (by decide)
    exact hleave.append (hopen.append (hquote.append (hclose.append henter)))
  next h => exact .of_advance (by simp [advance, h]) (by decide)

theorem spells_flatMap_quoteChar (word : List Char) :
    Spells .inSingle .inSingle (word.flatMap quoteChar) word := by
  induction word with
  | nil => exact .nil _
  | cons c word ih => exact (spells_quoteChar c).append ih

/-- A word as it is quoted is read as that word, and is still open behind it. -/
theorem spells_quoteWord (word : List Char) : Spells .between .inWord (quoteWord word) word := by
  unfold quoteWord
  split
  next h =>
    cases word with
    | nil => simp at h
    | cons c word =>
      have hbare : isBare c = true ∧ word.all isBare = true := by simpa using h
      have hfirst : Spells .between .inWord [c] [c] :=
        .of_advance (advancePlain_of_isBare hbare.1) (by decide)
      exact hfirst.append (spells_bare hbare.2)
  next =>
    have henter : Spells .between .inSingle ['\''] [] := .of_advance rfl (by decide)
    have hleave : Spells .inSingle .inWord ['\''] [] := .of_advance rfl (by decide)
    simpa using henter.append ((spells_flatMap_quoteChar word).append hleave)

/-! ## Command lines -/

/-- The words of a joined command line. -/
theorem words_joinWords (argv : List (List Char)) : words .between (joinWords argv) = .ok argv := by
  fun_induction joinWords argv with
  | case1 => rfl
  | case2 word =>
    have hword := spells_quoteWord word []
    rw [List.append_nil] at hword
    rw [hword]
    simp [words, finish, Except.map]
  | case3 word rest hrest ih =>
    rw [spells_quoteWord word, words_separator (by decide), ih]
    simp [Except.map]

/-- A command line that was joined of words is cut into these words. -/
theorem split_join (argv : List String) : split (join argv) = .ok argv := by
  rw [split, join, String.toList_ofList, words_joinWords]
  simp [Except.map, Function.comp_def]

end CoreTiming.CommandLine
