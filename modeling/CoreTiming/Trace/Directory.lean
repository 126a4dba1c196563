import CoreTiming.Text.Quoted
import CoreTiming.Trace.Reader

/-!
# A directory of trace files

One way to open trace files: a single directory whose files are known, while of any other directory
nothing is. A path is followed from name to name, with slashes between the names. An empty name and
a single point lead nowhere else, two points and a slash in front lead into another directory, and
any other name leads to the file that bears it. A file has no names in it, so not even an empty one
may follow on its name.

The name of a file is a path to it (`openFile_of_isName`).
-/

namespace CoreTiming.Trace

/-- What stands under the names of the current directory. -/
abbrev Files := List (String × List UInt8)

namespace OpenFault

/-- A path holds a null character. -/
def nullCharacter : OpenFault := { message := "embedded null byte" }

/-- An error that the system has a number for. -/
def numbered (number : Nat) (explanation path : String) : OpenFault where
  number
  message := "[Errno " ++ Numeral.decimal number ++ "] " ++ explanation ++ ": " ++ Text.quote path

/-- A name leads nowhere. -/
def missing : String → OpenFault := numbered 2 "No such file or directory"

/-- A name follows on that of a file. -/
def notDirectory : String → OpenFault := numbered 20 "Not a directory"

/-- A path leads to a directory. -/
def directory : String → OpenFault := numbered 21 "Is a directory"

/-- A path or one of its names is too long. -/
def tooLong : String → OpenFault := numbered 36 "File name too long"

end OpenFault

/-! ## Paths -/

/-- The greatest number of bytes of a name. -/
def nameLimit : Nat := 255

/-- The greatest number of bytes of a path. -/
def pathLimit : Nat := 4095

/-- The names of a path, in order. -/
def namesOf : List Char → List (List Char)
  | [] => [[]]
  | c :: rest => if c = '/' then [] :: namesOf rest else (namesOf rest).modifyHead (c :: ·)

/-- Where a path has led so far. -/
inductive Place where
  /-- Into the current directory. -/
  | current
  /-- Into another directory. -/
  | elsewhere
  /-- To a file. -/
  | file (content : List UInt8)
  deriving DecidableEq

/-- Where a path starts. -/
def startOf (path : String) : Place :=
  if path.toList.head? = some '/' then .elsewhere else .current

/-- Where a name leads within a directory, which is the current one or another. -/
def enter (files : Files) (path : String) (place : Place) (name : String) :
    Except OpenFault Place :=
  if name = "" ∨ name = "." then .ok place
  else if name = ".." then .ok .elsewhere
  else if nameLimit < name.utf8ByteSize then .error (.tooLong path)
  else
    match (files.lookup name).filter fun _ => place = .current with
    | some content => .ok (.file content)
    | none => .error (.missing path)

/-- Follows one name of a path. -/
def follow (files : Files) (path : String) (place : Place) (name : List Char) :
    Except OpenFault Place :=
  match place with
  | .file _ => .error (.notDirectory path)
  | place => enter files path place (String.ofList name)

/-- Follows a path to its end. -/
def resolve (files : Files) (path : String) : Except OpenFault Place :=
  (namesOf path.toList).foldlM (follow files path) (startOf path)

/-- The opening of the files of a directory. -/
def openFile (files : Files) : Opening := fun path =>
  if path.toList.contains '\x00' then .error .nullCharacter
  else if pathLimit < path.utf8ByteSize then .error (.tooLong path)
  else
    match resolve files path with
    | .ok (.file content) => .ok content
    | .ok _ => .error (.directory path)
    | .error e => .error e

/-! ## Laws -/

/-- A text without a slash is one name. -/
theorem namesOf_of_not_mem {text : List Char} (h : '/' ∉ text) : namesOf text = [text] := by
  induction text with
  | nil => rfl
  | cons c rest ih =>
    simp only [List.mem_cons, not_or] at h
    rw [namesOf, if_neg (Ne.symm h.1), ih h.2]
    rfl

/-- Whether a text may be the name of a file. -/
def isName (name : String) : Bool :=
  name ≠ "" && name ≠ "." && name ≠ ".." && name.utf8ByteSize ≤ nameLimit
    && !name.toList.contains '/' && !name.toList.contains '\x00'

/-- The name of a file is a path to it. -/
theorem openFile_of_isName {files : Files} {name : String} (h : isName name = true) :
    openFile files name = (files.lookup name).elim (.error (.missing name)) .ok := by
  simp only [isName, Bool.and_eq_true, decide_eq_true_eq, Bool.not_eq_true', ne_eq,
    List.contains_eq_mem, decide_eq_false_iff_not] at h
  obtain ⟨⟨⟨⟨⟨notEmpty, notHere⟩, notUp⟩, short⟩, noSlash⟩, noNull⟩ := h
  have start : startOf name = .current := by
    rw [startOf, if_neg]
    intro first
    exact noSlash (List.mem_of_mem_head? first)
  have long : ¬ pathLimit < name.utf8ByteSize := by
    simp only [nameLimit] at short
    simp only [pathLimit]
    omega
  have single : ¬ nameLimit < name.utf8ByteSize := by omega
  rw [openFile, if_neg (by simpa using noNull), if_neg long, resolve,
    namesOf_of_not_mem noSlash, start]
  simp only [List.foldlM_cons, List.foldlM_nil, follow, enter, String.ofList_toList, notEmpty,
    notHere, notUp, single]
  cases files.lookup name <;> rfl

end CoreTiming.Trace
