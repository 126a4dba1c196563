import CoreTiming.Proofs.Numeral.Language
import CoreTiming.Proofs.Text.Trim
import CoreTiming.Trace.Line

/-!
# The fields of a line

A line is cut at separators, which take the white space around a colon with them, after its ends
have been trimmed. The same fields come of cutting the line at the colons alone and trimming each
piece afterwards (`fields_eq_map_trim`). So what stands in a field is told by the colons of the line
(`fields_append`, `exists_of_fields`), and a field has no blanks at its ends, which is why it is
read exactly when it is a literal (`read_field_eq_ok_iff`).
-/

namespace CoreTiming.Trace

open CoreTiming.Text CoreTiming.Numeral

/-- Cuts a text at its first `limit` colons. -/
def pieces : Nat → List Char → List (List Char)
  | 0, text => [text]
  | limit + 1, text =>
    if ':' ∈ text then
      text.takeWhile (· ≠ ':') :: pieces limit (text.dropWhile (· ≠ ':')).tail
    else [text]

variable {limit : Nat} {text piece rest : List Char}

theorem not_isSpace_colon : isSpace ':' = false := by decide

/-! ## Pieces -/

@[simp] theorem pieces_zero (text : List Char) : pieces 0 text = [text] := rfl

theorem pieces_of_not_mem (h : ':' ∉ text) (limit : Nat) : pieces limit text = [text] := by
  cases limit with
  | zero => rfl
  | succ limit => rw [pieces, if_neg h]

/-- The first piece ends at the first colon. -/
theorem pieces_append (h : ':' ∉ piece) (limit : Nat) (rest : List Char) :
    pieces (limit + 1) (piece ++ ':' :: rest) = piece :: pieces limit rest := by
  have hpiece : ∀ c ∈ piece, decide (c ≠ ':') = true := by
    intro c hc
    rw [decide_eq_true_iff]
    rintro rfl
    exact h hc
  have hcolon : ∀ c, (':' :: rest).head? = some c → decide (c ≠ ':') = false := by
    rintro c ⟨⟩
    decide
  rw [pieces, if_pos (by simp), Listing.takeWhile_run hpiece hcolon,
    Listing.dropWhile_run hpiece hcolon, List.tail_cons]

/-! ## Cutting with the white space -/

theorem afterSeparator?_of_blank (h : ∀ c ∈ piece, isSpace c = true) (rest : List Char) :
    afterSeparator? (piece ++ ':' :: rest) = some (rest.dropWhile isSpace) := by
  have hcolon : ∀ c, (':' :: rest).head? = some c → isSpace c = false := by
    rintro c ⟨⟩
    exact not_isSpace_colon
  rw [afterSeparator?, Listing.dropWhile_run h hcolon]
  rfl

/-- There is no separator in front of a text whose first solid character is no colon. -/
theorem afterSeparator?_eq_none (h : (text.dropWhile isSpace).head? ≠ some ':') :
    afterSeparator? text = none := by
  unfold afterSeparator?
  split
  · rename_i rest hrest
    rw [hrest] at h
    exact absurd rfl h
  · rfl

theorem cutFields_of_separator {after : List Char} (h : afterSeparator? text = some after)
    (limit : Nat) : cutFields (limit + 1) text = [] :: cutFields limit after := by
  cases text with
  | nil => cases h
  | cons c rest =>
    rw [cutFields]
    split
    · rename_i found hfound
      rw [h] at hfound
      cases hfound
      rfl
    · rename_i hnone
      rw [h] at hnone
      cases hnone

theorem cutFields_of_no_separator {c : Char} (h : afterSeparator? (c :: rest) = none)
    (limit : Nat) :
    cutFields (limit + 1) (c :: rest) = (cutFields (limit + 1) rest).modifyHead (c :: ·) := by
  rw [cutFields]
  split
  · rename_i found hfound
    rw [h] at hfound
    cases hfound
  · rfl

theorem cutFields_of_not_mem (h : ':' ∉ text) (limit : Nat) : cutFields limit text = [text] := by
  cases limit with
  | zero => rw [cutFields]
  | succ limit =>
    induction text with
    | nil => rw [cutFields]
    | cons c rest ih =>
      have hnone : afterSeparator? (c :: rest) = none := by
        refine afterSeparator?_eq_none fun hcolon => h ?_
        exact (List.dropWhile_suffix isSpace).subset (List.mem_of_mem_head? hcolon)
      have hrest : ':' ∉ rest := fun hmem => h (List.mem_cons_of_mem c hmem)
      rw [cutFields_of_no_separator hnone, ih hrest]
      rfl

/-- The first field ends where the white space in front of the first colon begins. -/
theorem cutFields_append (h : ':' ∉ piece) (limit : Nat) (rest : List Char) :
    cutFields (limit + 1) (piece ++ ':' :: rest)
      = trimEnd isSpace piece :: cutFields limit (rest.dropWhile isSpace) := by
  induction piece with
  | nil =>
    have hfound : afterSeparator? ([] ++ ':' :: rest) = some (rest.dropWhile isSpace) :=
      afterSeparator?_of_blank (by simp) rest
    rw [cutFields_of_separator hfound, trimEnd_nil]
  | cons c piece ih =>
    by_cases hblank : ∀ d ∈ c :: piece, isSpace d = true
    · rw [cutFields_of_separator (afterSeparator?_of_blank hblank rest),
        trimEnd_eq_nil_iff.2 hblank]
    · -- the field starts before the white space in front of the colon
      have hend : ¬ (isSpace c = true ∧ trimEnd isSpace piece = []) := by
        rintro ⟨hc, hpiece⟩
        exact hblank (List.forall_mem_cons.2 ⟨hc, trimEnd_eq_nil_iff.1 hpiece⟩)
      have hnone : afterSeparator? (c :: (piece ++ ':' :: rest)) = none := by
        have hsolid : (c :: piece).dropWhile isSpace ≠ [] := by
          rwa [ne_eq, List.dropWhile_eq_nil_iff]
        obtain ⟨d, behind, hsplit⟩ := List.exists_cons_of_ne_nil hsolid
        have hd : d ∈ c :: piece := by
          refine (List.dropWhile_suffix isSpace).subset ?_
          rw [hsplit]
          exact List.mem_cons_self
        refine afterSeparator?_eq_none ?_
        rw [← List.cons_append, dropWhile_append_cons not_isSpace_colon, hsplit]
        rintro ⟨⟩
        exact h hd
      have hpiece : ':' ∉ piece := fun hmem => h (List.mem_cons_of_mem c hmem)
      rw [trimEnd_cons, if_neg hend, List.cons_append, cutFields_of_no_separator hnone, ih hpiece]
      rfl

/-! ## The fields of a line -/

/-- A text without a colon is one piece, and any other text has a first one. -/
theorem exists_first_piece (text : List Char) :
    ':' ∉ text ∨ ∃ piece rest, text = piece ++ ':' :: rest ∧ ':' ∉ piece := by
  by_cases h : ':' ∈ text
  · exact .inr (List.eq_append_cons_of_mem h)
  · exact .inl h

theorem cutFields_trim (limit : Nat) (text : List Char) :
    cutFields limit (trim isSpace text) = (pieces limit text).map (trim isSpace) := by
  induction limit generalizing text with
  | zero =>
    rw [cutFields]
    rfl
  | succ limit ih =>
    obtain hnone | ⟨piece, rest, rfl, hpiece⟩ := exists_first_piece text
    · have htrim : ':' ∉ trim isSpace text := fun hmem => hnone (mem_of_mem_trim hmem)
      rw [cutFields_of_not_mem htrim, pieces_of_not_mem hnone]
      rfl
    · have hdrop : ':' ∉ piece.dropWhile isSpace := fun hmem =>
        hpiece ((List.dropWhile_suffix isSpace).subset hmem)
      rw [trim_append_cons not_isSpace_colon, cutFields_append hdrop, dropWhile_trimEnd, ih,
        pieces_append hpiece]
      rfl

/-- **Fields and pieces.** The fields of a line are its pieces between the colons, each without the
    white space at its ends. -/
theorem fields_eq_map_trim (line : List Char) : fields line = (pieces 3 line).map (trim isSpace) :=
  cutFields_trim 3 line

/-- What stands in the fields of a line with two colons. -/
theorem fields_append {time event : List Char} (htime : ':' ∉ time) (hevent : ':' ∉ event)
    (rest : List Char) :
    fields (time ++ ':' :: (event ++ ':' :: rest))
      = trim isSpace time :: trim isSpace event :: (pieces 1 rest).map (trim isSpace) := by
  rw [fields_eq_map_trim, pieces_append htime, pieces_append hevent, List.map_cons, List.map_cons]

variable {line time event counter : List Char} {more : List (List Char)}

theorem exists_of_fields (h : fields line = time :: event :: counter :: more) :
    ∃ timePiece eventPiece rest, line = timePiece ++ ':' :: (eventPiece ++ ':' :: rest)
      ∧ ':' ∉ timePiece ∧ ':' ∉ eventPiece ∧ time = trim isSpace timePiece
      ∧ event = trim isSpace eventPiece := by
  rw [fields_eq_map_trim] at h
  obtain hnone | ⟨timePiece, rest, rfl, htime⟩ := exists_first_piece line
  · rw [pieces_of_not_mem hnone] at h
    cases h
  · rw [pieces_append htime] at h
    obtain hnone | ⟨eventPiece, rest, rfl, hevent⟩ := exists_first_piece rest
    · rw [pieces_of_not_mem hnone] at h
      cases h
    · rw [pieces_append hevent] at h
      obtain ⟨rfl, hmore⟩ := List.cons.inj h
      obtain ⟨rfl, -⟩ := List.cons.inj hmore
      exact ⟨timePiece, eventPiece, rest, rfl, htime, hevent, rfl, rfl⟩

theorem readLine_of_fields {settings : Settings}
    (hfields : fields line = time :: event :: counter :: more)
    (hmarker : settings.marker.toList <:+: event) :
    readLine settings line = (readColumns settings time counter).map some := by
  rw [readLine, columns?, hfields]
  exact if_pos (occurs_iff.2 hmarker)

theorem ends_of_mem_fields {field : List Char} (h : field ∈ fields line) :
    (∀ c, field.head? = some c → isSpace c = false)
      ∧ ∀ c, field.getLast? = some c → isSpace c = false := by
  rw [fields_eq_map_trim] at h
  obtain ⟨piece, -, rfl⟩ := List.mem_map.1 h
  exact ⟨fun c hc => head?_trim hc, fun c hc => getLast?_trim hc⟩

theorem read_field_eq_ok_iff {field : List Char} (h : field ∈ fields line) {style : Style}
    {n : Int} : Numeral.read style field = .ok n ↔ IsLiteral style field n := by
  have hblank : ∀ c, isSpace c = false → isBlank c = false := by
    intro c hc
    rw [isSpace, Bool.or_eq_false_iff] at hc
    exact hc.1
  obtain ⟨hhead, hlast⟩ := ends_of_mem_fields h
  exact read_eq_ok_iff (fun c hc => hblank c (hhead c hc)) fun c hc => hblank c (hlast c hc)

end CoreTiming.Trace
