import CoreTiming.Log.Record
import CoreTiming.Text.Lines

/-!
# The console

Records reach the console through handlers, once logging is configured. Configuring it sets the
threshold from a verbosity and installs a handler where there is none, so a record at or above
the threshold is written exactly once however often logging was configured
(`handlers_configure`). A record covers one line, or several where its message holds line feeds
(`linesOf_cons`). A record that cannot be shown raises nothing either: the handler complains about
it in its place, in words that are taken as given.
-/

namespace CoreTiming.Log

/-- The state of logging: the least level that is written, and the number of handlers. -/
structure Console where
  threshold : Level := .debug
  handlers : Nat := 0
  deriving DecidableEq

namespace Console

/-- The threshold of a verbosity. -/
def thresholdOf (verbosity : Int) : Level :=
  if verbosity ≤ 0 then .warning else if verbosity = 1 then .info else .debug

/-- `configure_logging`: sets the threshold and installs a handler where there is none. -/
def configure (console : Console) (verbosity : Int) : Console where
  threshold := thresholdOf verbosity
  handlers := if console.handlers = 0 then 1 else console.handlers

/-- Whether a record is at or above the threshold. -/
def admits (console : Console) (record : Record) : Bool :=
  console.threshold.rank ≤ record.level.rank

/-- The records that the handlers write, in order. -/
def written (console : Console) (records : List Record) : List Record :=
  (records.filter console.admits).flatMap (List.replicate console.handlers)

/-- Once logging is configured there is one handler. -/
theorem handlers_configure {console : Console} (h : console.handlers ≤ 1) (verbosity : Int) :
    (console.configure verbosity).handlers = 1 := by
  unfold configure
  simp only
  split <;> omega

end Console

/-- The name of a level on five places. -/
def Level.label (level : Level) : String :=
  String.ofList ((level.name.toList ++ List.replicate 5 ' ').take 5)

/-- A record as a handler writes it at a time, with the complaints of the handler about records
that cannot be shown. -/
def Record.line (complaint : Record → String) (time : String) (record : Record) : String :=
  match record.message with
  | .ok text => time ++ " [" ++ record.level.label ++ "] " ++ record.channel.name ++ ": " ++ text
  | .error _ => complaint record

/-- The lines that records written at a time cover. -/
def linesOf (complaint : Record → String) (time : String) (records : List Record) : List String :=
  let text := records.flatMap fun record => (record.line complaint time).toList ++ ['\n']
  (Text.feedLines text).map String.ofList

/-- A record without line feeds covers a line of its own. -/
theorem linesOf_cons {complaint : Record → String} {time : String} {record : Record}
    (h : '\n' ∉ (record.line complaint time).toList) (records : List Record) :
    linesOf complaint time (record :: records)
      = record.line complaint time :: linesOf complaint time records := by
  simp [linesOf, Text.feedLines_append h]

end CoreTiming.Log
