/-!
# Occurrences of a word

`occurs` decides whether a word stands somewhere in a text; `occurs_iff` says that it does so for
contiguous occurrences only.
-/

namespace CoreTiming.Text

/-- Whether a word stands somewhere in a text. -/
def occurs (word : List Char) : List Char → Bool
  | [] => word.isEmpty
  | c :: rest => word.isPrefixOf (c :: rest) || occurs word rest

theorem occurs_iff {word text : List Char} : occurs word text = true ↔ word <:+: text := by
  induction text with
  | nil => simp [occurs]
  | cons c rest ih => simp [occurs, ih, List.infix_cons_iff]

/-- The empty word stands in every text. -/
@[simp] theorem occurs_nil (text : List Char) : occurs [] text = true := by
  simp [occurs_iff]

end CoreTiming.Text
