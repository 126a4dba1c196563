import Mathlib.Data.List.Basic
import CoreTiming.Proofs.Trace.Fields
import CoreTiming.Trace.Reader

/-!
# The separators of a line

Two ways to take a line apart, each said without the function that does it. A line without the
white space at its ends is separated: a greedy search finds the separator that starts furthest left
and takes as much white space as it can, and goes on behind it (`Separated`). And a line is cut at
its first three colons, whatever stands around them (`CutAtColons`).

Results:
* `separated_iff`, `cutAtColons_iff`: each way has exactly one outcome, which is what `cutFields`
  and `pieces` compute;
* `fields_append_colon`: what stands behind the third colon is one field of its own;
* `SameEvents.of_columns?`: lines with the same first three fields stand for the same events;
* `fields_exact`: the fields of a line, with what cannot change them.
-/

namespace CoreTiming.Trace

open CoreTiming CoreTiming.Text

/-! ## Specification -/

/-- White space, a colon, white space. -/
def IsSeparator (text : List Char) : Prop :=
  ∃ before after, text = before ++ ':' :: after ∧ (∀ c ∈ before, isSpace c = true)
    ∧ ∀ c ∈ after, isSpace c = true

/-- The first separator of a text, with the field in front of it and the rest behind it. No
    separator starts further left, and none that starts there is longer. -/
structure IsFirstSeparator (text field separator rest : List Char) : Prop where
  parts : text = field ++ (separator ++ rest)
  separates : IsSeparator separator
  leftmost : ∀ front other back, text = front ++ (other ++ back) → IsSeparator other →
    field.length ≤ front.length
  longest : ∀ other back, separator ++ rest = other ++ back → IsSeparator other →
    other.length ≤ separator.length

/-- The fields of a text between its first `limit` separators, each looked for behind the one
    before it. -/
inductive Separated : Nat → List Char → List (List Char) → Prop where
  | spent (text : List Char) : Separated 0 text [text]
  | whole {limit : Nat} {text : List Char}
      (bare : ∀ front separator back, text = front ++ (separator ++ back) →
        ¬IsSeparator separator) :
      Separated (limit + 1) text [text]
  | cut {limit : Nat} {text field separator rest : List Char} {fields : List (List Char)}
      (first : IsFirstSeparator text field separator rest) (later : Separated limit rest fields) :
      Separated (limit + 1) text (field :: fields)

/-- The pieces of a text that is cut at its first `limit` colons, or at all of them if it has fewer.
    The text is the pieces with colons in between, and only the last piece may have colons. -/
structure CutAtColons (limit : Nat) (text : List Char) (pieces : List (List Char)) : Prop where
  joined : [':'].intercalate pieces = text
  counted : pieces.length = min limit (text.count ':') + 1
  free : ∀ piece ∈ pieces.dropLast, ':' ∉ piece

variable {limit : Nat} {text field separator rest piece front before after back : List Char}

/-! ## Colons and white space -/

theorem colon_not_mem_of_blank (h : ∀ c ∈ text, isSpace c = true) : ':' ∉ text := by
  intro hmem
  have hspace := h _ hmem
  rw [not_isSpace_colon] at hspace
  cases hspace

theorem IsSeparator.colon_mem (h : IsSeparator text) : ':' ∈ text := by
  obtain ⟨before, after, rfl, -, -⟩ := h
  simp

theorem count_append_colon (h : ':' ∉ piece) (rest : List Char) :
    (piece ++ ':' :: rest).count ':' = rest.count ':' + 1 := by
  rw [List.count_append, List.count_eq_zero.2 h, List.count_cons_self, Nat.zero_add]

theorem append_colon_inj {other behind : List Char} (hpiece : ':' ∉ piece) (hother : ':' ∉ other)
    (h : piece ++ ':' :: rest = other ++ ':' :: behind) : piece = other ∧ rest = behind := by
  have hpieces := congrArg (pieces 1) h
  rw [pieces_append hpiece, pieces_append hother] at hpieces
  simpa using hpieces

/-- Whatever ends at a colon has all in front of the first colon in it. -/
theorem exists_of_append_colon (hpiece : ':' ∉ piece)
    (h : piece ++ ':' :: rest = front ++ ':' :: back) : ∃ more, front = piece ++ more := by
  obtain ⟨more, hfront, -⟩ | ⟨more, hsplit, hcolon⟩ := List.append_eq_append_iff.1 h
  · exact ⟨more, hfront⟩
  · -- the colon behind `front` is none of `piece`
    cases more with
    | nil => exact ⟨[], by simpa using hsplit.symm⟩
    | cons c more =>
      obtain ⟨rfl, -⟩ := List.cons.inj hcolon
      exact absurd (by rw [hsplit]; simp) hpiece

/-! ## Separated texts -/

/-- No separator starts further left than the white space in front of the first colon. -/
theorem length_trimEnd_le_of_isSeparator (hpiece : ':' ∉ piece)
    (htext : piece ++ ':' :: rest = front ++ (separator ++ back))
    (hseparator : IsSeparator separator) : (trimEnd isSpace piece).length ≤ front.length := by
  obtain ⟨before, after, rfl, hbefore, -⟩ := hseparator
  -- the colon of the separator is the first one or stands behind it
  have hcolon : piece ++ ':' :: rest = (front ++ before) ++ ':' :: (after ++ back) := by
    simpa using htext
  obtain ⟨more, hmore⟩ := exists_of_append_colon hpiece hcolon
  obtain ⟨blank, hfield, hbehind⟩ | ⟨_, hfront, -⟩ := List.append_eq_append_iff.1 hmore
  · have hblank : ∀ c ∈ blank, isSpace c = true := by
      intro c hc
      exact hbefore c (by rw [hbehind]; exact List.mem_append_left _ hc)
    rw [hfield, trimEnd_append_padding hblank]
    exact length_trimEnd_le isSpace front
  · have hlength := length_trimEnd_le isSpace piece
    rw [hfront, List.length_append]
    omega

/-- No separator at the front of a text is longer than the one that takes all white space behind
    its colon. -/
theorem length_le_of_isSeparator (hbefore : ∀ c ∈ before, isSpace c = true)
    (htext : before ++ ':' :: rest = separator ++ back) (hseparator : IsSeparator separator) :
    separator.length ≤ (before ++ ':' :: rest.takeWhile isSpace).length := by
  obtain ⟨other, after, rfl, hother, hafter⟩ := hseparator
  have hcolon : before ++ ':' :: rest = other ++ ':' :: (after ++ back) := by
    simpa using htext
  obtain ⟨rfl, hrest⟩ := append_colon_inj (colon_not_mem_of_blank hbefore)
    (colon_not_mem_of_blank hother) hcolon
  rw [hrest, List.takeWhile_append_of_pos hafter]
  simp

/-- The separator around the first colon of a text is its first separator. -/
theorem exists_isFirstSeparator (hpiece : ':' ∉ piece) (rest : List Char) :
    ∃ separator, IsFirstSeparator (piece ++ ':' :: rest) (trimEnd isSpace piece) separator
      (rest.dropWhile isSpace) := by
  obtain ⟨padding, hpadding, hblank⟩ := exists_padding isSpace piece
  have hrest : rest.takeWhile isSpace ++ rest.dropWhile isSpace = rest :=
    List.takeWhile_append_dropWhile
  have hsplit : (padding ++ ':' :: rest.takeWhile isSpace) ++ rest.dropWhile isSpace
      = padding ++ ':' :: rest := by
    rw [List.append_assoc, List.cons_append, hrest]
  refine ⟨padding ++ ':' :: rest.takeWhile isSpace, ?parts, ?separates, ?leftmost, ?longest⟩
  case parts => rw [hsplit, ← List.append_assoc, ← hpadding]
  case separates => exact ⟨padding, _, rfl, hblank, fun c hc => List.mem_takeWhile_imp hc⟩
  case leftmost =>
    intro front other back htext hother
    exact length_trimEnd_le_of_isSeparator hpiece htext hother
  case longest =>
    intro other back htext hother
    rw [hsplit] at htext
    exact length_le_of_isSeparator hblank htext hother

theorem IsFirstSeparator.unique {other separator' rest' : List Char}
    (h : IsFirstSeparator text field separator rest)
    (hother : IsFirstSeparator text other separator' rest') : field = other ∧ rest = rest' := by
  have hle := h.leftmost _ _ _ hother.parts hother.separates
  have hge := hother.leftmost _ _ _ h.parts h.separates
  obtain ⟨hfield, hbehind⟩ := List.append_inj (h.parts.symm.trans hother.parts) (by omega)
  have hle' := h.longest _ _ hbehind hother.separates
  have hge' := hother.longest _ _ hbehind.symm h.separates
  exact ⟨hfield, (List.append_inj hbehind (by omega)).2⟩

theorem separated_cutFields (limit : Nat) (text : List Char) :
    Separated limit text (cutFields limit text) := by
  induction limit generalizing text with
  | zero =>
    rw [cutFields]
    exact .spent text
  | succ limit ih =>
    obtain hnone | ⟨piece, rest, rfl, hpiece⟩ := exists_first_piece text
    · rw [cutFields_of_not_mem hnone]
      refine .whole ?_
      rintro front separator back rfl hseparator
      exact hnone (by simp [hseparator.colon_mem])
    · obtain ⟨separator, hfirst⟩ := exists_isFirstSeparator hpiece rest
      rw [cutFields_append hpiece]
      exact .cut hfirst (ih _)

theorem Separated.unique {cut other : List (List Char)} (h : Separated limit text cut)
    (hother : Separated limit text other) : cut = other := by
  induction h generalizing other with
  | spent text =>
    cases hother
    rfl
  | whole bare =>
    cases hother with
    | whole => rfl
    | cut first later => exact absurd first.separates (bare _ _ _ first.parts)
  | cut first later ih =>
    cases hother with
    | whole bare => exact absurd first.separates (bare _ _ _ first.parts)
    | cut first' later' =>
      obtain ⟨rfl, rfl⟩ := first.unique first'
      rw [ih later']

/-- A text is separated in exactly one way. -/
theorem separated_iff {cut : List (List Char)} :
    Separated limit text cut ↔ cut = cutFields limit text := by
  constructor
  · intro h
    exact h.unique (separated_cutFields limit text)
  · rintro rfl
    exact separated_cutFields limit text

/-! ## Texts cut at colons -/

theorem cutAtColons_singleton_iff {cut : List (List Char)} (h : limit = 0 ∨ ':' ∉ text) :
    CutAtColons limit text cut ↔ cut = [text] := by
  have hcount : min limit (text.count ':') = 0 := by
    rcases h with rfl | hnone
    · omega
    · rw [List.count_eq_zero.2 hnone]
      omega
  constructor
  · rintro ⟨joined, counted, -⟩
    obtain ⟨piece, rfl⟩ := List.length_eq_one_iff.1 (by rw [counted, hcount])
    rw [← joined, List.intercalate_singleton]
  · rintro rfl
    exact ⟨List.intercalate_singleton, by rw [hcount]; rfl, by simp⟩

/-- The first piece ends at the first colon, and the others are the pieces of what is behind it. -/
theorem cutAtColons_cons_iff {first : List Char} {later : List (List Char)}
    (hpiece : ':' ∉ piece) :
    CutAtColons (limit + 1) (piece ++ ':' :: rest) (first :: later)
      ↔ first = piece ∧ CutAtColons limit rest later := by
  have hcount : min (limit + 1) ((piece ++ ':' :: rest).count ':')
      = min limit (rest.count ':') + 1 := by
    rw [count_append_colon hpiece]
    omega
  constructor
  · rintro ⟨joined, counted, free⟩
    rw [List.length_cons, hcount] at counted
    have hlater : later ≠ [] := by
      rintro rfl
      simp at counted
    rw [List.dropLast_cons_of_ne_nil hlater, List.forall_mem_cons] at free
    rw [List.intercalate_cons_of_ne_nil hlater, List.append_assoc, List.singleton_append] at joined
    obtain ⟨rfl, hrest⟩ := append_colon_inj free.1 hpiece joined
    exact ⟨rfl, hrest, by omega, free.2⟩
  · rintro ⟨rfl, joined, counted, free⟩
    have hlater : later ≠ [] := by
      rintro rfl
      simp at counted
    refine ⟨?_, ?_, ?_⟩
    · rw [List.intercalate_cons_of_ne_nil hlater, joined, List.append_assoc, List.singleton_append]
    · rw [List.length_cons, counted, hcount]
    · rw [List.dropLast_cons_of_ne_nil hlater, List.forall_mem_cons]
      exact ⟨hpiece, free⟩

/-- A text is cut at its colons in exactly one way. -/
theorem cutAtColons_iff {cut : List (List Char)} :
    CutAtColons limit text cut ↔ cut = pieces limit text := by
  induction limit generalizing text cut with
  | zero => exact cutAtColons_singleton_iff (.inl rfl)
  | succ limit ih =>
    obtain hnone | ⟨piece, rest, rfl, hpiece⟩ := exists_first_piece text
    · rw [pieces_of_not_mem hnone]
      exact cutAtColons_singleton_iff (.inr hnone)
    · rw [pieces_append hpiece]
      cases cut with
      | nil =>
        constructor
        · intro h
          exact absurd h.counted (by simp)
        · rintro ⟨⟩
      | cons first later => rw [cutAtColons_cons_iff hpiece, ih, List.cons.injEq]

theorem length_pieces (limit : Nat) (text : List Char) :
    (pieces limit text).length = min limit (text.count ':') + 1 :=
  (cutAtColons_iff.2 rfl).counted

/-! ## Colons that separate, and colons that do not -/

theorem pieces_append_colon (h : front.count ':' < limit) (rest : List Char) :
    pieces limit (front ++ ':' :: rest)
      = pieces limit front ++ pieces (limit - (front.count ':' + 1)) rest := by
  induction limit generalizing front with
  | zero => omega
  | succ limit ih =>
    obtain hnone | ⟨piece, behind, rfl, hpiece⟩ := exists_first_piece front
    · rw [pieces_append hnone, pieces_of_not_mem hnone, List.count_eq_zero.2 hnone]
      rfl
    · have hleft : limit + 1 - (behind.count ':' + 1 + 1) = limit - (behind.count ':' + 1) := by
        omega
      rw [count_append_colon hpiece] at h ⊢
      rw [List.append_assoc, List.cons_append, pieces_append hpiece, pieces_append hpiece,
        ih (by omega), hleft, List.cons_append]

theorem exists_colon_of_lt_count {n : Nat} (h : n < text.count ':') :
    ∃ front back, text = front ++ ':' :: back ∧ front.count ':' = n := by
  induction n generalizing text with
  | zero =>
    obtain ⟨piece, rest, rfl, hpiece⟩ := List.eq_append_cons_of_mem (List.count_pos_iff.1 h)
    exact ⟨piece, rest, rfl, List.count_eq_zero.2 hpiece⟩
  | succ n ih =>
    have hcolon : ':' ∈ text := List.count_pos_iff.1 (by omega)
    obtain ⟨piece, rest, rfl, hpiece⟩ := List.eq_append_cons_of_mem hcolon
    rw [count_append_colon hpiece] at h
    obtain ⟨front, back, rfl, hfront⟩ := ih (by omega : n < rest.count ':')
    refine ⟨piece ++ ':' :: front, back, by simp, ?_⟩
    rw [count_append_colon hpiece, hfront]

variable {line : List Char}

theorem length_fields_eq (line : List Char) :
    (fields line).length = min 3 (line.count ':') + 1 := by
  rw [fields_eq_map_trim, List.length_map, length_pieces]

/-- What stands behind the third colon is one field, whatever colons it has. -/
theorem fields_append_colon (h : line.count ':' = 2) (rest : List Char) :
    fields (line ++ ':' :: rest) = fields line ++ [trim isSpace rest] := by
  rw [fields_eq_map_trim, pieces_append_colon (by omega), h, fields_eq_map_trim, List.map_append]
  rfl

/-- Padding at the ends of a text goes with the white space at the ends of its pieces. -/
theorem map_trim_pieces_of_trim_eq {other : List Char}
    (h : trim isSpace text = trim isSpace other) (limit : Nat) :
    (pieces limit text).map (trim isSpace) = (pieces limit other).map (trim isSpace) := by
  rw [← cutFields_trim, h, cutFields_trim]

/-- White space on either side of a separating colon goes with it. -/
theorem fields_respaced (hbefore : ∀ c ∈ before, isSpace c = true)
    (hafter : ∀ c ∈ after, isSpace c = true) (h : front.count ':' < 3) :
    fields (front ++ (before ++ ':' :: (after ++ back))) = fields (front ++ ':' :: back) := by
  have hcount : (front ++ before).count ':' = front.count ':' := by
    rw [List.count_append, List.count_eq_zero.2 (colon_not_mem_of_blank hbefore), Nat.add_zero]
  rw [fields_eq_map_trim, fields_eq_map_trim, ← List.append_assoc,
    pieces_append_colon (by omega), pieces_append_colon h, hcount, List.map_append, List.map_append,
    map_trim_pieces_of_trim_eq (trim_append_padding hbefore front),
    map_trim_pieces_of_trim_eq (trim_padding_append hafter back)]

/-! ## Lines that stand for the same events -/

/-- Lines that make no difference to the events of a trace. Both are read alike, and a run over a
    file hands out the same events with the one as with the other in its place. -/
structure SameEvents (line other : List Char) : Prop where
  readLine_eq : ∀ settings, readLine settings line = readLine settings other
  events_eq : ∀ settings path count number earlier later,
    (drainLines settings path count number (earlier ++ line :: later)).events
      = (drainLines settings path count number (earlier ++ other :: later)).events

theorem SameEvents.of_columns? {other : List Char} (h : columns? line = columns? other) :
    SameEvents line other := by
  have hread : ∀ settings, readLine settings line = readLine settings other := by
    intro settings
    rw [readLine, readLine, h]
  refine ⟨hread, fun settings path count number earlier later => ?_⟩
  induction earlier generalizing count number with
  | nil =>
    rw [List.nil_append, List.nil_append, drainLines, drainLines, hread settings]
    cases readLine settings other with
    | error e => rfl
    | ok said => cases said <;> rfl
  | cons first earlier ih =>
    rw [List.cons_append, List.cons_append, drainLines, drainLines]
    cases readLine settings first with
    | error e => rfl
    | ok said =>
      cases said with
      | none => exact ih count (number + 1)
      | some content => exact congrArg (_ :: ·) (ih (count + 1) (number + 1))

theorem columns?_append_colon (h : line.count ':' = 2) (rest : List Char) :
    columns? (line ++ ':' :: rest) = columns? line := by
  obtain ⟨time, event, counter, hfields⟩ : ∃ time event counter,
      fields line = [time, event, counter] := by
    rw [← List.length_eq_three, length_fields_eq, h]
    rfl
  rw [columns?, columns?, fields_append_colon h, hfields]
  rfl

theorem columns?_respaced (hbefore : ∀ c ∈ before, isSpace c = true)
    (hafter : ∀ c ∈ after, isSpace c = true) (front back : List Char) :
    columns? (front ++ (before ++ ':' :: (after ++ back))) = columns? (front ++ ':' :: back) := by
  by_cases h : front.count ':' < 3
  · rw [columns?, columns?, fields_respaced hbefore hafter h]
  · -- the white space stands behind the third colon
    obtain ⟨head, tail, rfl, hhead⟩ := exists_colon_of_lt_count (by omega : 2 < front.count ':')
    rw [List.append_assoc, List.append_assoc, List.cons_append, List.cons_append,
      columns?_append_colon hhead, columns?_append_colon hhead]

/-! ## The fields of a line, exactly -/

/-- **The fields of a line.** Let the white space at the ends of a line go, and let what is left be
    separated at its first three separators, each taken as far left and as long as it can be. This
    has one outcome, the fields. It is the same to cut the line at its first three colons, or at all
    if it has fewer, which has one outcome as well, and to trim each of the pieces.

    So no field has white space at its ends. White space put on either side of any colon changes no
    event, nor any field if the colon separates. And what stands behind the third colon, whatever
    colons it has, is a field of its own: it leaves the first three fields and the event alone. -/
theorem fields_exact (line : List Char) :
    (∀ cut, Separated 3 (trim isSpace line) cut ↔ cut = fields line)
      ∧ (∀ cut, CutAtColons 3 line cut ↔ cut = pieces 3 line)
      ∧ fields line = (pieces 3 line).map (trim isSpace)
      ∧ (∀ field ∈ fields line, (∀ c, field.head? = some c → isSpace c = false)
        ∧ ∀ c, field.getLast? = some c → isSpace c = false)
      ∧ (∀ front before after back, line = front ++ ':' :: back →
        (∀ c ∈ before, isSpace c = true) → (∀ c ∈ after, isSpace c = true) →
        (front.count ':' < 3 → fields (front ++ (before ++ ':' :: (after ++ back))) = fields line)
          ∧ SameEvents (front ++ (before ++ ':' :: (after ++ back))) line)
      ∧ (line.count ':' = 2 → (fields line).length = 3 ∧ ∀ rest,
        fields (line ++ ':' :: rest) = fields line ++ [trim isSpace rest]
          ∧ SameEvents (line ++ ':' :: rest) line) := by
  refine ⟨fun cut => separated_iff, fun cut => cutAtColons_iff, fields_eq_map_trim line,
    fun field hfield => ends_of_mem_fields hfield, ?respaced, ?free⟩
  case respaced =>
    rintro front before after back rfl hbefore hafter
    exact ⟨fields_respaced hbefore hafter,
      .of_columns? (columns?_respaced hbefore hafter front back)⟩
  case free =>
    intro hcount
    refine ⟨by rw [length_fields_eq, hcount]; rfl, fun rest => ?_⟩
    exact ⟨fields_append_colon hcount rest, .of_columns? (columns?_append_colon hcount rest)⟩

/-- A line with white space of several kinds around its fields. -/
def crowdedLine : List Char := " 1000 ".toList ++ ':' :: "\u2003system.cpu.0:\t0x1F ".toList

/-- The same line with more white space on either side of its first colon. -/
def looseLine : List Char :=
  " 1000 ".toList ++ (['\u001c'] ++ ':' :: (['\u0085', ' '] ++ "\u2003system.cpu.0:\t0x1F ".toList))

/-- The same line with free text that has colons. -/
def longLine : List Char := crowdedLine ++ ':' :: " lw : a0:: ".toList

theorem fields_exact_crowded :
    crowdedLine.count ':' = 2
      ∧ (∀ c ∈ ['\u001c'], isSpace c = true) ∧ (∀ c ∈ ['\u0085', ' '], isSpace c = true)
      ∧ fields crowdedLine = ["1000".toList, "system.cpu.0".toList, "0x1F".toList]
      ∧ Separated 3 (trim isSpace crowdedLine)
        ["1000".toList, "system.cpu.0".toList, "0x1F".toList]
      ∧ CutAtColons 3 crowdedLine
        [" 1000 ".toList, "\u2003system.cpu.0".toList, "\t0x1F ".toList]
      ∧ (∀ c, "0x1F".toList.getLast? = some c → isSpace c = false)
      ∧ fields looseLine = fields crowdedLine ∧ SameEvents looseLine crowdedLine
      ∧ fields longLine
        = ["1000".toList, "system.cpu.0".toList, "0x1F".toList, "lw : a0::".toList]
      ∧ SameEvents longLine crowdedLine := by
  have hcount : crowdedLine.count ':' = 2 := by decide
  have hbefore : ∀ c ∈ ['\u001c'], isSpace c = true := List.all_eq_true.1 (by decide)
  have hafter : ∀ c ∈ ['\u0085', ' '], isSpace c = true := List.all_eq_true.1 (by decide)
  obtain ⟨hseparated, hcut, hfields, hsolid, hrespaced, hfree⟩ := fields_exact crowdedLine
  have hthree : fields crowdedLine
      = ["1000".toList, "system.cpu.0".toList, "0x1F".toList] := by
    rw [hfields]
    decide
  obtain ⟨hloose, hsame⟩ := hrespaced _ ['\u001c'] ['\u0085', ' '] _ rfl hbefore hafter
  obtain ⟨hfour, hsameLong⟩ := (hfree hcount).2 " lw : a0:: ".toList
  have hlong : fields longLine
      = ["1000".toList, "system.cpu.0".toList, "0x1F".toList, "lw : a0::".toList] := by
    rw [longLine, hfour, hthree]
    decide
  exact ⟨hcount, hbefore, hafter, hthree, (hseparated _).2 hthree.symm, (hcut _).2 (by decide),
    (hsolid _ (by rw [hthree]; decide)).2, hloose (by decide), hsame, hlong, hsameLong⟩

end CoreTiming.Trace
