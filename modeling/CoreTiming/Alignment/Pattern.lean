import CoreTiming.Text.Occurrence

/-!
# Mnemonic patterns

A pattern is the text it was written as, together with the search that it stands for, which may
tell any texts apart.

A search can be given by alternatives, each a sequence of items: a character, any character but a
line feed, one of these made optional, the start of the text, or its end. A final line feed counts
as after the end. `ofAlternatives` looks for a place where some alternative matches; alternatives of
plain characters make the same pattern as the search for them in a row (`ofAlternatives_literal`).
-/

namespace CoreTiming.Alignment

/-- A pattern: the text it was written as, and whether it is found in a text. -/
structure Pattern where
  source : String
  found : String → Bool

/-- The pattern that searches for a text. -/
def Pattern.literal (text : String) : Pattern where
  source := text
  found mnemonic := Text.occurs text.toList mnemonic.toList

/-! ## Alternatives -/

/-- One character of a text. -/
inductive Atom where
  | char (c : Char)
  /-- Any character but a line feed. -/
  | any
  deriving DecidableEq

/-- Whether an atom stands for a character. -/
def Atom.holds : Atom → Char → Bool
  | .char c, d => c = d
  | .any, d => d ≠ '\n'

/-- One step of a match. -/
inductive Item where
  | one (atom : Atom)
  | optional (atom : Atom)
  | start
  | finish
  deriving DecidableEq

namespace Pattern

/-- Whether nothing but a final line feed is left. -/
def atEnd (text : List Char) : Bool := text.isEmpty || text = ['\n']

/-- Whether a sequence of items matches at the front of a text. The flag says whether the text
starts here. -/
def matchesFront : List Item → Bool → List Char → Bool
  | [], _, _ => true
  | .one atom :: items, _, c :: rest => atom.holds c && matchesFront items false rest
  | .one _ :: _, _, [] => false
  | .optional atom :: items, atStart, c :: rest =>
    (atom.holds c && matchesFront items false rest) || matchesFront items atStart (c :: rest)
  | .optional _ :: items, atStart, [] => matchesFront items atStart []
  | .start :: items, atStart, text => atStart && matchesFront items atStart text
  | .finish :: items, atStart, text => atEnd text && matchesFront items atStart text

/-- Whether a sequence of items matches at some place of a text. -/
def matchesWithin (items : List Item) : Bool → List Char → Bool
  | atStart, [] => matchesFront items atStart []
  | atStart, c :: rest => matchesFront items atStart (c :: rest) || matchesWithin items false rest

/-- The pattern that searches for a place where some alternative matches. -/
def ofAlternatives (source : String) (alternatives : List (List Item)) : Pattern where
  source
  found text := alternatives.any fun items => matchesWithin items true text.toList

/-! ## Laws -/

/-- A literal matches in front of a text exactly when it is a first part of it. -/
theorem matchesFront_literal (word : List Char) (atStart : Bool) (text : List Char) :
    matchesFront (word.map fun c => .one (.char c)) atStart text = word.isPrefixOf text := by
  induction word generalizing atStart text with
  | nil => cases text <;> simp [matchesFront]
  | cons c word ih =>
    cases text with
    | nil => simp [matchesFront]
    | cons d text =>
      rw [List.map_cons, matchesFront, ih, List.isPrefixOf_cons_cons]
      rfl

/-- A literal matches at some place of a text exactly when it occurs there. -/
theorem matchesWithin_literal (word : List Char) (atStart : Bool) (text : List Char) :
    matchesWithin (word.map fun c => .one (.char c)) atStart text = Text.occurs word text := by
  induction text generalizing atStart with
  | nil =>
    rw [matchesWithin, matchesFront_literal, Text.occurs]
    cases word <;> rfl
  | cons c rest ih => rw [matchesWithin, matchesFront_literal, ih, Text.occurs]

/-- The characters of a text, each standing for itself, search for the text. -/
theorem ofAlternatives_literal (text : String) :
    ofAlternatives text [text.toList.map fun c => .one (.char c)] = literal text := by
  simp only [ofAlternatives, literal, List.any_cons, List.any_nil, Bool.or_false,
    matchesWithin_literal]

end Pattern

end CoreTiming.Alignment
