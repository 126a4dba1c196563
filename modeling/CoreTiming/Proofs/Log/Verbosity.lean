import Mathlib.Data.List.Basic
import Mathlib.Data.List.Flatten
import Mathlib.Data.List.Induction
import CoreTiming.Alignment.Pass
import CoreTiming.Log.Console
import CoreTiming.Proofs.Text.Endings

/-!
# What a console shows of passes

Logging is configured any number of times, and passes are made in between. From the first time on
there is one handler, so a pass is written once, and of its records those that the latest verbosity
lets through. What a pass reports and how it ends is the same before every console.

Results:
* `linesOf_eq_flatMap`: the lines of records are those of each record, one behind the other;
* `Console.after_eq`, `Console.written_after`: the console, and what it writes, after any history;
* `isHeard_mono`: a higher verbosity lets more through;
* `console_exact`: what passes write, and that they do the same, whatever the history.
-/

namespace CoreTiming.Log

open CoreTiming CoreTiming.Alignment

/-! ## Specification -/

/-- A pass, by what it is given. -/
structure Pass where
  rules : Rules := {}
  program : Program
  texts : List String

/-- The records of a pass. -/
def Pass.records (pass : Pass) : List Record := (align pass.rules pass.program pass.texts).1.records

/-- What can happen before a console: logging is configured, or a pass is made. -/
inductive Action where
  | configure (verbosity : Int)
  | run (pass : Pass)

/-- The verbosity that logging is configured with, if it is. -/
def Action.verbosity? : Action → Option Int
  | .configure verbosity => some verbosity
  | .run _ => none

/-- The pass that is made, if one is. -/
def Action.pass? : Action → Option Pass
  | .configure _ => none
  | .run pass => some pass

/-- The verbosity that logging was configured with last, if it ever was. -/
def latest? (done : List Action) : Option Int := (done.filterMap Action.verbosity?).getLast?

/-- What a pass comes to: what it reports, how it ends, and what is written of it. -/
structure Passage where
  reports : List Report
  outcome : Except Fault Tally
  written : List Record

/-- What a pass comes to apart from the console. -/
def Passage.result (passage : Passage) : List Report × Except Fault Tally :=
  (passage.reports, passage.outcome)

/-- Whether a verbosity lets records of a level through: warnings always, information from one on,
    and the rest from two on. -/
def isHeard (verbosity : Int) : Level → Bool
  | .warning => true
  | .info => 1 ≤ verbosity
  | .debug => 2 ≤ verbosity

namespace Console

/-- A pass that is made before a console. -/
def make (console : Console) (pass : Pass) : Passage :=
  let (journal, outcome) := align pass.rules pass.program pass.texts
  { reports := journal.reports, outcome, written := console.written journal.records }

/-- The console after something has happened. -/
def act (console : Console) : Action → Console
  | .configure verbosity => console.configure verbosity
  | .run _ => console

/-- The console after a history. -/
def after (console : Console) (done : List Action) : Console := done.foldl act console

/-- The passes of a history, each before the console that is there by then. -/
def passages (console : Console) : List Action → List Passage
  | [] => []
  | .configure verbosity :: rest => (console.configure verbosity).passages rest
  | .run pass :: rest => console.make pass :: console.passages rest

end Console

/-! ## Lines of records -/

section Lines

variable {complaint : Record → String} {time : String}

theorem linesOf_cons_append (record : Record) (records : List Record) :
    linesOf complaint time (record :: records)
      = linesOf complaint time [record] ++ linesOf complaint time records := by
  simp only [linesOf, List.flatMap_cons, List.flatMap_nil, List.append_assoc, List.singleton_append,
    List.append_nil]
  rw [Text.feedLines_append_lineFeed, List.map_append]

theorem linesOf_eq_flatMap (records : List Record) :
    linesOf complaint time records
      = records.flatMap fun record => linesOf complaint time [record] := by
  induction records with
  | nil => rfl
  | cons record rest ih => rw [linesOf_cons_append, ih, List.flatMap_cons]

theorem linesOf_eq_map {records : List Record}
    (h : ∀ record ∈ records, '\n' ∉ (record.line complaint time).toList) :
    linesOf complaint time records = records.map (Record.line complaint time) := by
  induction records with
  | nil => rfl
  | cons record rest ih =>
    obtain ⟨hrecord, hrest⟩ := List.forall_mem_cons.1 h
    rw [linesOf_cons hrecord, ih hrest, List.map_cons]

end Lines

/-! ## Consoles after a history -/

theorem latest?_concat_configure (done : List Action) (verbosity : Int) :
    latest? (done ++ [.configure verbosity]) = some verbosity := by
  simp [latest?, Action.verbosity?]

theorem latest?_concat_run (done : List Action) (pass : Pass) :
    latest? (done ++ [.run pass]) = latest? done := by
  simp [latest?, Action.verbosity?]

namespace Console

theorem after_append (console : Console) (done rest : List Action) :
    console.after (done ++ rest) = (console.after done).after rest := List.foldl_append

/-- The console after a history is told by the latest call alone. -/
theorem after_eq (done : List Action) :
    after {} done = match latest? done with
      | none => {}
      | some verbosity => { threshold := thresholdOf verbosity, handlers := 1 } := by
  induction done using List.reverseRecOn with
  | nil => rfl
  | append_singleton done action ih =>
    rw [after_append]
    cases action with
    | configure verbosity =>
      have hone : (after {} done).handlers ≤ 1 := by
        rw [ih]
        cases latest? done <;> simp
      rw [latest?_concat_configure]
      exact congrArg (Console.mk (thresholdOf verbosity)) (handlers_configure hone verbosity)
    | run pass =>
      rw [latest?_concat_run]
      exact ih

theorem passages_append (console : Console) (done rest : List Action) :
    console.passages (done ++ rest)
      = console.passages done ++ (console.after done).passages rest := by
  induction done generalizing console with
  | nil => rfl
  | cons action done ih =>
    cases action with
    | configure verbosity => exact ih _
    | run pass => exact congrArg (console.make pass :: ·) (ih console)

/-- What passes come to does not depend on the console they are made before. -/
theorem map_result_passages (console : Console) (done : List Action) :
    (console.passages done).map Passage.result
      = (done.filterMap Action.pass?).map fun pass =>
          ((align pass.rules pass.program pass.texts).1.reports,
            (align pass.rules pass.program pass.texts).2) := by
  induction done generalizing console with
  | nil => rfl
  | cons action done ih =>
    cases action with
    | configure verbosity => exact ih _
    | run pass => exact congrArg (_ :: ·) (ih console)

/-! ## Records by verbosity -/

theorem rank_thresholdOf_le_iff (verbosity : Int) (level : Level) :
    (thresholdOf verbosity).rank ≤ level.rank ↔ isHeard verbosity level = true := by
  unfold thresholdOf
  split
  · cases level <;> simp [Level.rank, isHeard] <;> omega
  · split
    · cases level <;> simp [Level.rank, isHeard] <;> omega
    · cases level <;> simp [Level.rank, isHeard] <;> omega

/-- Before the first call nothing is written, and then the records that the latest verbosity lets
    through, each once. -/
theorem written_after (done : List Action) (records : List Record) :
    (after {} done).written records = match latest? done with
      | none => []
      | some verbosity => records.filter fun record => isHeard verbosity record.level := by
  rw [after_eq]
  cases latest? done with
  | none => simp [written]
  | some verbosity =>
    have hadmits : admits { threshold := thresholdOf verbosity, handlers := 1 }
        = fun record => isHeard verbosity record.level := by
      funext record
      rw [admits, Bool.eq_iff_iff, decide_eq_true_iff, rank_thresholdOf_le_iff]
    rw [written, hadmits]
    exact List.flatMap_singleton' _

end Console

theorem isHeard_mono {verbosity higher : Int} (h : verbosity ≤ higher) {level : Level}
    (hheard : isHeard verbosity level = true) : isHeard higher level = true := by
  cases level <;> simp [isHeard] at hheard ⊢ <;> omega

/-- **The console shows each record of a pass once, or not at all.** Take any history of calls that
    configure logging and of passes, and a pass that follows on it. There is one handler from the
    first call on. Before it nothing is written. After it exactly the records of the pass that the
    latest verbosity lets through are written, in order, and their lines are those of each record,
    which is a single one where the record has no line feed; this holds whatever a handler writes in
    place of a record that cannot be shown. So the lines at a lower verbosity are a
    subsequence of those at a higher one. Histories of the same passes come to the same reports and
    endings, whatever they configure in between. -/
theorem console_exact (done : List Action) (pass : Pass) (rest : List Action) :
    let console := Console.after {} done
    let passage := console.make pass
    Console.passages {} (done ++ .run pass :: rest)
        = Console.passages {} done ++ passage :: console.passages rest
      ∧ console.handlers = (if (latest? done).isSome then 1 else 0)
      ∧ (latest? done = none → passage.written = [])
      ∧ (∀ verbosity, latest? done = some verbosity →
        passage.written = pass.records.filter fun record => isHeard verbosity record.level)
      ∧ (∀ complaint time, linesOf complaint time passage.written
          = passage.written.flatMap (fun record => linesOf complaint time [record])
        ∧ ((∀ record ∈ passage.written, '\n' ∉ (record.line complaint time).toList) →
          linesOf complaint time passage.written
            = passage.written.map (Record.line complaint time)))
      ∧ (∀ others verbosity higher, latest? done = some verbosity → latest? others = some higher →
        verbosity ≤ higher → ∀ complaint time,
          (linesOf complaint time passage.written).Sublist
            (linesOf complaint time ((Console.after {} others).make pass).written))
      ∧ ∀ others, done.filterMap Action.pass? = others.filterMap Action.pass? →
        (Console.passages {} done).map Passage.result
          = (Console.passages {} others).map Passage.result := by
  intro console passage
  have hwritten (done : List Action) {verbosity : Int} (h : latest? done = some verbosity) :
      ((Console.after {} done).make pass).written
        = pass.records.filter fun record => isHeard verbosity record.level := by
    have hafter := Console.written_after done pass.records
    rw [h] at hafter
    exact hafter
  refine ⟨Console.passages_append {} done _, ?_, ?_, fun _ => hwritten done,
    fun complaint time => ⟨linesOf_eq_flatMap _, linesOf_eq_map⟩, ?_, ?_⟩
  · change (Console.after {} done).handlers = _
    rw [Console.after_eq]
    cases latest? done <;> rfl
  · intro h
    have hafter := Console.written_after done pass.records
    rw [h] at hafter
    exact hafter
  · intro others verbosity higher hlatest hhigher hle complaint time
    rw [linesOf_eq_flatMap, linesOf_eq_flatMap, hwritten done hlatest, hwritten others hhigher]
    have hmore : (pass.records.filter fun record => isHeard verbosity record.level).Sublist
        (pass.records.filter fun record => isHeard higher record.level) :=
      List.monotone_filter_right _ fun record => isHeard_mono hle
    exact hmore.flatMap _
  · intro others hpasses
    rw [Console.map_result_passages, Console.map_result_passages, hpasses]

/-- A pass over the label of an unknown subroutine, which is told at a high verbosity only. -/
def unknownOnly : Pass := { program := .empty, texts := ["00000010 <g>:"] }

/-- The verbosity is raised, a pass is made, and the verbosity is lowered again. -/
def raisedAndLowered : List Action := [.configure 2, .run unknownOnly, .configure 1]

theorem console_exact_lowered :
    ((Console.after {} raisedAndLowered).make unknownOnly).written
        = [logged .info "Aligned 0 instructions in 1 symbols (0 warnings)"]
      ∧ ((Console.after {} []).make unknownOnly).written = []
      ∧ ∀ complaint time,
        (linesOf complaint time
            ((Console.after {} raisedAndLowered).make unknownOnly).written).Sublist
          (linesOf complaint time
            ((Console.after {} [.configure 5]).make unknownOnly).written) := by
  obtain ⟨-, -, -, hwritten, -, hmore, -⟩ := console_exact raisedAndLowered unknownOnly []
  obtain ⟨-, -, hbefore, -⟩ := console_exact [] unknownOnly []
  refine ⟨?_, hbefore rfl, hmore [.configure 5] 1 5 rfl rfl (by decide)⟩
  rw [hwritten 1 rfl]
  decide +kernel

end CoreTiming.Log
