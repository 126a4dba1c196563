import CoreTiming.Text.Lines

/-!
# Lines with their ends

Lines may be written with ends of all three kinds, in any mixture. They are read back, but for the
empty ones (`filter_lines_terminated`): a line feed that ends an empty line belongs to the line in
front of it if that line ends with a carriage return.
-/

namespace CoreTiming.Text

/-- The ways to end a line. -/
inductive LineEnd where
  | lineFeed
  | carriageReturn
  | both
  deriving DecidableEq

/-- The characters that end a line. -/
def LineEnd.text : LineEnd → List Char
  | .lineFeed => ['\n']
  | .carriageReturn => ['\r']
  | .both => ['\r', '\n']

/-- Lines one after the other, each with its end. -/
def terminated (written : List (List Char × LineEnd)) : List Char :=
  written.flatMap fun line => line.1 ++ line.2.text

@[simp] theorem terminated_nil : terminated [] = [] := rfl

theorem terminated_cons (line : List Char × LineEnd) (written : List (List Char × LineEnd)) :
    terminated (line :: written) = line.1 ++ (line.2.text ++ terminated written) := by
  rw [terminated, List.flatMap_cons, List.append_assoc, terminated]

variable {line rest : List Char} {more : List (List Char)}

/-- What stands in front of a line end is one line. -/
theorem lines_append (h : ∀ c ∈ line, isLineEnd c = false) (hrest : lines rest = [] :: more) :
    lines (line ++ rest) = line :: more := by
  induction line with
  | nil => exact hrest
  | cons c line ih =>
    obtain ⟨hc, hline⟩ := List.forall_mem_cons.1 h
    obtain ⟨notReturn, notFeed⟩ : c ≠ '\r' ∧ c ≠ '\n' := by simpa [isLineEnd] using hc
    rw [List.cons_append, lines_cons notReturn notFeed, ih hline, consLine]

theorem lines_lineFeed (rest : List Char) : lines ('\n' :: rest) = [] :: lines rest := by
  simp [lines, isLineEnd]

/-- A line end is an empty line, and nothing but an empty line behind it may be lost. -/
theorem exists_of_lines_lineEnd (ending : LineEnd) (rest : List Char) :
    ∃ more, lines (ending.text ++ rest) = [] :: more
      ∧ more.filter (· ≠ []) = (lines rest).filter (· ≠ []) := by
  cases ending with
  | lineFeed => exact ⟨lines rest, lines_lineFeed rest, rfl⟩
  | both => exact ⟨lines rest, rfl, rfl⟩
  | carriageReturn =>
    by_cases hfeed : rest.head? = some '\n'
    · obtain ⟨later, rfl⟩ := List.head?_eq_some_iff.1 hfeed
      refine ⟨lines later, rfl, ?_⟩
      rw [lines_lineFeed, List.filter_cons_of_neg (by simp)]
    · refine ⟨lines rest, ?_, rfl⟩
      have hlone : ∀ later, rest ≠ '\n' :: later := by
        rintro later rfl
        exact hfeed rfl
      simp [LineEnd.text, lines, isLineEnd, hlone]

/-- Lines are read back, but for the empty ones. -/
theorem filter_lines_terminated {written : List (List Char × LineEnd)}
    (h : ∀ line ∈ written, ∀ c ∈ line.1, isLineEnd c = false) :
    (lines (terminated written)).filter (· ≠ [])
      = (written.map (·.1)).filter (· ≠ []) := by
  induction written with
  | nil => rfl
  | cons line written ih =>
    obtain ⟨hline, hwritten⟩ := List.forall_mem_cons.1 h
    obtain ⟨more, hlines, hmore⟩ := exists_of_lines_lineEnd line.2 (terminated written)
    rw [terminated_cons, lines_append hline hlines, List.map_cons, List.filter_cons,
      List.filter_cons, hmore, ih hwritten]

/-! ## Lines of a console -/

theorem consLine_append (c : Char) {front : List (List Char)} (h : front ≠ [])
    (more : List (List Char)) : consLine c (front ++ more) = consLine c front ++ more := by
  cases front with
  | nil => exact absurd rfl h
  | cons line rest => rfl

theorem feedLines_ne_nil {text : List Char} (h : text ≠ []) : feedLines text ≠ [] := by
  cases text with
  | nil => exact absurd rfl h
  | cons c rest =>
    rw [feedLines]
    split
    · simp
    · cases feedLines rest <;> simp [consLine]

theorem feedLines_append_lineFeed (text rest : List Char) :
    feedLines (text ++ '\n' :: rest) = feedLines (text ++ ['\n']) ++ feedLines rest := by
  induction text with
  | nil => rfl
  | cons c text ih =>
    rw [List.cons_append, List.cons_append, feedLines, feedLines]
    split
    · rw [ih, List.cons_append]
    · rw [ih, consLine_append c (feedLines_ne_nil (by simp))]

end CoreTiming.Text
