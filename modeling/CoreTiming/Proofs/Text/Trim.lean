import Mathlib.Data.List.TakeWhile
import CoreTiming.Proofs.Listing.Written

/-!
# Trimmed texts

What trimming leaves of a text has no character of the class at its ends, and a word that has none
at its ends itself stands in the trimmed text exactly when it stands in the text. The order in which
the ends are cut does not matter, nor does padding of the class that is put there.
-/

namespace CoreTiming.Text

variable {class? : Char → Bool} {text rest : List Char}

/-- A character at the front goes only if all behind it goes too. -/
theorem trimEnd_cons (class? : Char → Bool) (c : Char) (rest : List Char) :
    trimEnd class? (c :: rest)
      = if class? c = true ∧ trimEnd class? rest = [] then [] else c :: trimEnd class? rest := by
  simp only [trimEnd, List.reverse_cons, List.dropWhile_append, List.isEmpty_iff,
    List.reverse_eq_nil_iff]
  by_cases hrest : rest.reverse.dropWhile class? = []
  · by_cases hc : class? c = true <;> simp [hrest, hc]
  · simp [hrest]

theorem trimEnd_eq_nil_iff : trimEnd class? text = [] ↔ ∀ c ∈ text, class? c = true := by
  simp [trimEnd]

theorem length_trimEnd_le (class? : Char → Bool) (text : List Char) :
    (trimEnd class? text).length ≤ text.length :=
  List.IsPrefix.length_le (trimEnd_isPrefix class? text)

/-- The order in which the ends are cut does not matter. -/
theorem dropWhile_trimEnd (class? : Char → Bool) (text : List Char) :
    (trimEnd class? text).dropWhile class? = trim class? text := by
  rw [trim]
  induction text with
  | nil => rfl
  | cons c rest ih =>
    by_cases hc : class? c = true
    · rw [trimEnd_cons, List.dropWhile_cons_of_pos hc, ← ih]
      by_cases hrest : trimEnd class? rest = []
      · rw [if_pos ⟨hc, hrest⟩, hrest]
      · rw [if_neg fun h => hrest h.2, List.dropWhile_cons_of_pos hc]
    · rw [List.dropWhile_cons_of_neg hc, trimEnd_cons, if_neg fun h => hc h.1,
        List.dropWhile_cons_of_neg hc]

/-- A character outside the class protects all behind it. -/
theorem dropWhile_append_cons {c : Char} (h : class? c = false) (text rest : List Char) :
    (text ++ c :: rest).dropWhile class? = text.dropWhile class? ++ c :: rest := by
  rw [List.dropWhile_append]
  split
  · rename_i hempty
    rw [List.isEmpty_iff.1 hempty, List.nil_append, List.dropWhile_cons_of_neg (by simp [h])]
  · rfl

/-- A character outside the class protects what stands between it and the other end. -/
theorem trim_append_cons {c : Char} (h : class? c = false) (text rest : List Char) :
    trim class? (text ++ c :: rest) = text.dropWhile class? ++ c :: trimEnd class? rest := by
  rw [trim, dropWhile_append_cons h, trimEnd_append_cons h]

theorem mem_of_mem_trim {c : Char} (h : c ∈ trim class? text) : c ∈ text :=
  (List.dropWhile_suffix class?).subset ((trimEnd_isPrefix class? _).subset h)

/-! ## Ends -/

theorem head?_dropWhile {c : Char} (h : (text.dropWhile class?).head? = some c) :
    class? c = false := by
  have hnot := List.head?_dropWhile_not class? text
  rwa [h] at hnot

theorem head?_trim {c : Char} (h : (trim class? text).head? = some c) : class? c = false := by
  rw [← dropWhile_trimEnd] at h
  exact head?_dropWhile h

theorem getLast?_trimEnd {c : Char} (h : (trimEnd class? text).getLast? = some c) :
    class? c = false := by
  rw [trimEnd, List.getLast?_reverse] at h
  exact head?_dropWhile h

theorem getLast?_trim {c : Char} (h : (trim class? text).getLast? = some c) :
    class? c = false :=
  getLast?_trimEnd h

/-! ## Padding -/

variable {padding front back : List Char}

theorem exists_padding (class? : Char → Bool) (text : List Char) :
    ∃ padding, text = trimEnd class? text ++ padding ∧ ∀ c ∈ padding, class? c = true := by
  refine ⟨(text.reverse.takeWhile class?).reverse, ?_, fun c hc => ?_⟩
  · rw [trimEnd, ← List.reverse_append, List.takeWhile_append_dropWhile, List.reverse_reverse]
  · exact List.mem_takeWhile_imp (List.mem_reverse.1 hc)

theorem trimEnd_append_padding (h : ∀ c ∈ padding, class? c = true) (text : List Char) :
    trimEnd class? (text ++ padding) = trimEnd class? text := by
  have hreverse : ∀ c ∈ padding.reverse, class? c = true := fun c hc =>
    h c (List.mem_reverse.1 hc)
  rw [trimEnd, List.reverse_append, List.dropWhile_append_of_pos hreverse, trimEnd]

theorem trim_append_padding (h : ∀ c ∈ padding, class? c = true) (text : List Char) :
    trim class? (text ++ padding) = trim class? text := by
  rw [← dropWhile_trimEnd, trimEnd_append_padding h, dropWhile_trimEnd]

theorem trim_padding_append (h : ∀ c ∈ padding, class? c = true) (text : List Char) :
    trim class? (padding ++ text) = trim class? text := by
  rw [trim, List.dropWhile_append_of_pos h, trim]

theorem trim_of_solid (h : ∀ c ∈ text, class? c = false) : trim class? text = text := by
  have hdrop : ∀ solid : List Char, (∀ c ∈ solid, class? c = false) →
      solid.dropWhile class? = solid := by
    intro solid hsolid
    rw [List.dropWhile_eq_self_iff]
    intro hpos
    simp [hsolid _ (List.getElem_mem hpos)]
  have hreverse : ∀ c ∈ text.reverse, class? c = false := fun c hc => h c (List.mem_reverse.1 hc)
  rw [trim, hdrop text h, trimEnd, hdrop _ hreverse, List.reverse_reverse]

/-- A text with padding at its ends is what is left when they are trimmed. -/
theorem trim_padded (hfront : ∀ c ∈ front, class? c = true)
    (htext : ∀ c ∈ text, class? c = false) (hback : ∀ c ∈ back, class? c = true) :
    trim class? (front ++ (text ++ back)) = text := by
  rw [trim_padding_append hfront, trim_append_padding hback, trim_of_solid htext]

/-! ## Words -/

variable {word : List Char}

theorem infix_dropWhile_iff (hne : word ≠ [])
    (hhead : ∀ c, word.head? = some c → class? c = false) :
    word <:+: text.dropWhile class? ↔ word <:+: text := by
  constructor
  · intro h
    exact h.trans (List.dropWhile_suffix class?).isInfix
  · rintro ⟨front, back, rfl⟩
    obtain ⟨c, later, rfl⟩ := List.exists_cons_of_ne_nil hne
    have hsplit : front ++ c :: later ++ back = front ++ c :: (later ++ back) := by simp
    rw [hsplit, dropWhile_append_cons (hhead c rfl)]
    exact ⟨front.dropWhile class?, back, by simp⟩

/-- A word that has no character of the class at its ends stands in a text exactly when it stands in
    the trimmed text. -/
theorem infix_trim_iff (hne : word ≠ []) (hhead : ∀ c, word.head? = some c → class? c = false)
    (hlast : ∀ c, word.getLast? = some c → class? c = false) :
    word <:+: trim class? text ↔ word <:+: text := by
  have hreverse : word.reverse ≠ [] := by simpa using hne
  have hend : ∀ c, word.reverse.head? = some c → class? c = false := by simpa using hlast
  rw [trim, trimEnd, ← List.reverse_infix, List.reverse_reverse, infix_dropWhile_iff hreverse hend,
    List.reverse_infix, infix_dropWhile_iff hne hhead]

end CoreTiming.Text
