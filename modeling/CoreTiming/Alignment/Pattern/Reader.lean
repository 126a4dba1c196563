import CoreTiming.Alignment.Pattern
import CoreTiming.Numeral.Written

/-!
# Reading mnemonic patterns

A bar separates alternatives, `^` and `$` stand for the ends of the text, a point for any
character and a point in brackets for itself. A question mark makes the character in front of it
optional; a second one prefers the match without it, which changes nothing here, and a third one
has nothing left to act on. Any other character stands for itself. The remaining signs of the
pattern language are not read.

A text of plain characters is the pattern that searches for it (`read_of_plain`).
-/

namespace CoreTiming.Alignment.Pattern

/-- Why a text is no pattern. -/
inductive Fault where
  /-- It holds a sign that is not read. -/
  | unread
  /-- The question mark at this position stands behind nothing. -/
  | nothingToRepeat (position : Nat)
  /-- The question mark at this position stands behind two others. -/
  | multipleRepeat (position : Nat)
  deriving DecidableEq

/-- The line and the column of a position, shown for texts of several lines. -/
def location (source : List Char) (position : Nat) : String :=
  let before := source.take position
  let column := (before.reverse.takeWhile (· ≠ '\n')).length + 1
  if source.contains '\n' then
    " (line " ++ Numeral.decimal (before.count '\n' + 1) ++ ", column "
      ++ Numeral.decimal column ++ ")"
  else ""

/-- The explanation of a fault at a position. -/
def faultAt (complaint : String) (source : String) (position : Nat) : String :=
  complaint ++ " at position " ++ Numeral.decimal position ++ location source.toList position

/-- The explanation of a fault. -/
def Fault.message (source : String) : Fault → String
  | .unread => "unread sign"
  | .nothingToRepeat position => faultAt "nothing to repeat" source position
  | .multipleRepeat position => faultAt "multiple repeat" source position

/-! ## Signs -/

/-- The signs of a written pattern. -/
inductive Sign where
  | atom (atom : Atom)
  | bar
  | start
  | finish
  /-- A question mark, with its position. -/
  | mark (position : Nat)
  deriving DecidableEq

/-- Whether an opening brace in front of a text starts a count of repetitions. -/
def startsCount (text : List Char) : Bool :=
  match text.dropWhile Char.isDigit with
  | ',' :: rest => (rest.dropWhile Char.isDigit).head? == some '\x7d'
  | rest => text.head? != some '\x7d' && rest.head? == some '\x7d'

/-- Whether a character in front of a text is a sign that is not read. -/
def isUnread (c : Char) (text : List Char) : Bool :=
  "*+()[\\".toList.contains c || (c == '\x7b' && startsCount text)

/-- The sign of a single character at a position. -/
def signOf (c : Char) (position : Nat) : Sign :=
  if c = '|' then .bar
  else if c = '^' then .start
  else if c = '$' then .finish
  else if c = '?' then .mark position
  else if c = '.' then .atom .any
  else .atom (.char c)

/-- Reads the signs of a text that starts at a position. -/
def signs (position : Nat) : List Char → Except Fault (List Sign)
  | [] => .ok []
  | '[' :: '.' :: ']' :: rest => (signs (position + 3) rest).map (.atom (.char '.') :: ·)
  | c :: rest =>
    if isUnread c rest then .error .unread
    else (signs (position + 1) rest).map (signOf c position :: ·)

/-! ## Alternatives -/

/-- An alternative with one more item in front, among the alternatives read. -/
def consItem (item : Item) (alternatives : List (List Item)) : List (List Item) :=
  alternatives.modifyHead (item :: ·)

/-- The alternatives that signs stand for. -/
def ofSigns : List Sign → Except Fault (List (List Item))
  | [] => .ok [[]]
  | .bar :: rest => (ofSigns rest).map ([] :: ·)
  | .start :: rest => (ofSigns rest).map (consItem .start)
  | .finish :: rest => (ofSigns rest).map (consItem .finish)
  | .atom _ :: .mark _ :: .mark _ :: .mark position :: _ => .error (.multipleRepeat position)
  | .atom atom :: .mark _ :: .mark _ :: rest =>
    (ofSigns rest).map (consItem (.optional atom))
  | .atom atom :: .mark _ :: rest => (ofSigns rest).map (consItem (.optional atom))
  | .atom atom :: rest => (ofSigns rest).map (consItem (.one atom))
  | .mark position :: _ => .error (.nothingToRepeat position)

/-- Reads a pattern. -/
def read (source : String) : Except Fault Pattern := do
  let found ← signs 0 source.toList
  return .ofAlternatives source (← ofSigns found)

/-! ## Laws -/

/-- Whether a character stands for itself wherever it is. -/
def isPlain (c : Char) : Bool := !"|^$?.*+()[\\\x7b".toList.contains c

theorem signs_of_plain {text : List Char} (h : text.all isPlain = true) (position : Nat) :
    signs position text = .ok (text.map fun c => .atom (.char c)) := by
  induction text generalizing position with
  | nil => rfl
  | cons c rest ih =>
    simp only [List.all_cons, Bool.and_eq_true] at h
    obtain ⟨plain, others⟩ := h
    simp only [isPlain, Bool.not_eq_true', List.contains_eq_mem, decide_eq_false_iff_not] at plain
    simp at plain
    rw [signs]
    · simp [isUnread, plain, ih others, signOf, Except.map]
    · rintro more rfl
      simp at plain

theorem ofSigns_of_plain (text : List Char) :
    ofSigns (text.map fun c => .atom (.char c)) = .ok [text.map fun c => .one (.char c)] := by
  induction text with
  | nil => rfl
  | cons c rest ih =>
    cases rest with
    | nil => rfl
    | cons d rest =>
      simp only [List.map_cons] at ih ⊢
      rw [ofSigns, ih]
      · rfl
      all_goals simp

/-- A text of plain characters is the pattern that searches for it. -/
theorem read_of_plain {text : String} (h : text.toList.all isPlain = true) :
    read text = .ok (literal text) := by
  simp only [read, signs_of_plain h, bind, Except.bind, ofSigns_of_plain, pure, Except.pure,
    ofAlternatives_literal]

end CoreTiming.Alignment.Pattern
