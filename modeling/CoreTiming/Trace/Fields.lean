import CoreTiming.Text.Blank

/-!
# Fields of a trace line

The fields of a trace line stand between colons. A colon takes the white space around it with it,
and the white space at the ends of the line goes first, so no field has any at its ends. Only the
first three colons separate; what follows the third is one field.
-/

namespace CoreTiming.Trace

open CoreTiming.Text

/-- The text after a match of `_FIELD_SEPARATOR` at the front: white space, a colon, white space. -/
def afterSeparator? (text : List Char) : Option (List Char) :=
  match text.dropWhile isSpace with
  | ':' :: rest => some (rest.dropWhile isSpace)
  | _ => none

theorem length_lt_of_afterSeparator? {text after : List Char}
    (h : afterSeparator? text = some after) : after.length < text.length := by
  unfold afterSeparator? at h
  split at h
  · rename_i rest hrest
    cases h
    have inner := (List.dropWhile_suffix isSpace (l := rest)).length_le
    have outer := (List.dropWhile_suffix isSpace (l := text)).length_le
    rw [hrest, List.length_cons] at outer
    omega
  · cases h

/-- Cuts a text at its first `limit` separators. -/
def cutFields (limit : Nat) (text : List Char) : List (List Char) :=
  match limit, text with
  | 0, text => [text]
  | _ + 1, [] => [[]]
  | limit + 1, c :: rest =>
    match _found : afterSeparator? (c :: rest) with
    | some after => [] :: cutFields limit after
    | none => (cutFields (limit + 1) rest).modifyHead (c :: ·)
termination_by text.length
decreasing_by
  · exact length_lt_of_afterSeparator? (by assumption)
  · simp

/-- The fields of a line as `_parse` splits it, at most four. -/
def fields (line : List Char) : List (List Char) := cutFields 3 (trim isSpace line)

/-- A text has at least one field. -/
theorem length_cutFields_pos (limit : Nat) (text : List Char) :
    0 < (cutFields limit text).length := by
  fun_induction cutFields limit text with
  | case1 => simp
  | case2 => simp
  | case3 => simp
  | case4 _ _ _ _ ih => simpa using ih

/-- No text is cut more often than the limit allows. -/
theorem length_cutFields_le (limit : Nat) (text : List Char) :
    (cutFields limit text).length ≤ limit + 1 := by
  fun_induction cutFields limit text with
  | case1 => simp
  | case2 => simp
  | case3 _ _ _ _ _ ih => simpa using ih
  | case4 _ _ _ _ ih => simpa using ih

/-- A line has one to four fields. -/
theorem length_fields (line : List Char) :
    0 < (fields line).length ∧ (fields line).length ≤ 4 :=
  ⟨length_cutFields_pos 3 _, length_cutFields_le 3 _⟩

end CoreTiming.Trace
