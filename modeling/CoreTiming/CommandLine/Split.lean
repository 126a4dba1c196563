/-!
# Splitting a command line

A command line is cut into words at blanks, tabs, carriage returns and line feeds. Quotes join
what stands between them into the word around them, and an empty pair of quotes is an empty
word. A backslash outside quotes takes the next character as it is; between double quotes it does
so before a double quote or a backslash only; between single quotes it stands for itself. There
are no comments.

The cutter is a machine with six modes. `advance` is one step of it, and `words` collects the
words that the steps complete; within a word the first of them is what is left of it.
-/

namespace CoreTiming.CommandLine

/-- Why a command line cannot be cut into words. -/
inductive SplitError where
  /-- It ends between quotes. -/
  | unclosedQuote
  /-- It ends on a backslash that takes the next character. -/
  | nothingEscaped
  deriving DecidableEq

/-- The explanation of a failure. -/
def SplitError.message : SplitError → String
  | .unclosedQuote => "No closing quotation"
  | .nothingEscaped => "No escaped character"

/-- Where in a command line the cutter stands. -/
inductive Mode where
  | between
  | inWord
  | inSingle
  | inDouble
  | escaped
  | escapedInDouble
  deriving DecidableEq

/-- The characters that separate words. -/
def isSeparator (c : Char) : Bool := c = ' ' || c = '\t' || c = '\r' || c = '\n'

/-- One step outside quotes: the next mode and what the step adds to the word. -/
def advancePlain (c : Char) : Mode × List Char :=
  if isSeparator c then (.between, [])
  else if c = '\\' then (.escaped, [])
  else if c = '\'' then (.inSingle, [])
  else if c = '"' then (.inDouble, [])
  else (.inWord, [c])

/-- One step: the next mode and what the step adds to the word. -/
def advance : Mode → Char → Mode × List Char
  | .between, c => advancePlain c
  | .inWord, c => advancePlain c
  | .inSingle, c => if c = '\'' then (.inWord, []) else (.inSingle, [c])
  | .inDouble, c =>
    if c = '"' then (.inWord, [])
    else if c = '\\' then (.escapedInDouble, [])
    else (.inDouble, [c])
  | .escaped, c => (.inWord, [c])
  | .escapedInDouble, c =>
    (.inDouble, if c = '"' || c = '\\' then [c] else ['\\', c])

/-- The words at the end of a command line. -/
def finish : Mode → Except SplitError (List (List Char))
  | .between => .ok []
  | .inWord => .ok [[]]
  | .inSingle => .error .unclosedQuote
  | .inDouble => .error .unclosedQuote
  | .escaped => .error .nothingEscaped
  | .escapedInDouble => .error .nothingEscaped

/-- The words from a mode on. -/
def words (mode : Mode) : List Char → Except SplitError (List (List Char))
  | [] => finish mode
  | c :: rest =>
    let (next, added) := advance mode c
    if next ≠ .between then (words next rest).map (List.modifyHead (added ++ ·))
    else if mode = .inWord then (words next rest).map ([] :: ·)
    else words next rest

/-- The words of a command line. -/
def split (commandLine : String) : Except SplitError (List String) :=
  (words .between commandLine.toList).map (·.map String.ofList)

/-- A separator completes the word. -/
theorem words_separator {c : Char} (hc : isSeparator c = true) (rest : List Char) :
    words .inWord (c :: rest) = (words .between rest).map ([] :: ·) := by
  simp [words, advance, advancePlain, hc]

end CoreTiming.CommandLine
