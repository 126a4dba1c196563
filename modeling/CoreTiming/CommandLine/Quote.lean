import CoreTiming.CommandLine.Split

/-!
# Quoting a command line

A word of bare characters is written as it is. Any other word stands between single quotes, a
single quote inside it between double quotes of its own. `join` writes a list of words with a
blank between neighbours.
-/

namespace CoreTiming.CommandLine

/-- The characters of a word that needs no quotes. -/
def isBare (c : Char) : Bool := c.isAlphanum || "_@%+=:,./-".toList.contains c

/-- A character of a word between single quotes. -/
def quoteChar (c : Char) : List Char :=
  if c = '\'' then ['\'', '"', '\'', '"', '\''] else [c]

/-- A word as it is written in a command line. -/
def quoteWord (word : List Char) : List Char :=
  if !word.isEmpty && word.all isBare then word
  else '\'' :: word.flatMap quoteChar ++ ['\'']

/-- The words of a command line, a blank between neighbours. -/
def joinWords : List (List Char) → List Char
  | [] => []
  | [word] => quoteWord word
  | word :: rest => quoteWord word ++ ' ' :: joinWords rest

/-- `describe_command`: a list of words as one command line. -/
def join (words : List String) : String :=
  String.ofList (joinWords (words.map String.toList))

/-- A quoted word is never empty. -/
theorem quoteWord_ne_nil (word : List Char) : quoteWord word ≠ [] := by
  unfold quoteWord
  split
  · rename_i h
    rintro rfl
    simp at h
  · simp

end CoreTiming.CommandLine
