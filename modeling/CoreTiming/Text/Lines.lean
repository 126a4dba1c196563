import CoreTiming.Text.Blank

/-!
# Lines

A text is a sequence of lines, each without its end; what follows on the last end is a line of its
own, and an empty text has no line. Files and the output of processes are read in `lines`, which
end with a line feed, a carriage return, or both in the order of a carriage return and a line feed.
A console is read in `feedLines`, which end with a line feed only.

A text without a line end is one line (`lines_of_unbroken`), and a line feed ends exactly the line
in front of it (`feedLines_append`).
-/

namespace CoreTiming.Text

/-- Puts a character in front of the first line. -/
def consLine (c : Char) : List (List Char) → List (List Char)
  | [] => [[c]]
  | line :: rest => (c :: line) :: rest

/-- The lines of a file. -/
def lines : List Char → List (List Char)
  | [] => []
  | '\r' :: '\n' :: rest => [] :: lines rest
  | c :: rest => if isLineEnd c then [] :: lines rest else consLine c (lines rest)

/-- The lines of a console. -/
def feedLines : List Char → List (List Char)
  | [] => []
  | c :: rest => if c = '\n' then [] :: feedLines rest else consLine c (feedLines rest)

/-! ## Laws -/

@[simp] theorem lines_nil : lines [] = [] := rfl

theorem lines_cons {c : Char} (notReturn : c ≠ '\r') (notFeed : c ≠ '\n') (rest : List Char) :
    lines (c :: rest) = consLine c (lines rest) := by
  rw [lines] <;> simp_all [isLineEnd]

/-- A text without a line end is one line. -/
theorem lines_of_unbroken {text : List Char} (h : ∀ c ∈ text, c ≠ '\r' ∧ c ≠ '\n')
    (nonempty : text ≠ []) : lines text = [text] := by
  induction text with
  | nil => exact absurd rfl nonempty
  | cons c rest ih =>
    obtain ⟨⟨notReturn, notFeed⟩, unbroken⟩ := List.forall_mem_cons.1 h
    rw [lines_cons notReturn notFeed]
    cases rest with
    | nil => rfl
    | cons d rest => rw [ih unbroken (by simp), consLine]

@[simp] theorem feedLines_nil : feedLines [] = [] := rfl

/-- A line feed ends the line in front of it. -/
theorem feedLines_append {line : List Char} (h : '\n' ∉ line) (rest : List Char) :
    feedLines (line ++ '\n' :: rest) = line :: feedLines rest := by
  induction line with
  | nil => simp [feedLines]
  | cons c line ih =>
    simp only [List.mem_cons, not_or] at h
    rw [List.cons_append, feedLines, if_neg (Ne.symm h.1), ih h.2, consLine]

end CoreTiming.Text
