import CoreTiming.Datum.Display

/-!
# Log records

The library logs what it skips and what it completes. A record has a level, the channel it comes
from, and its message. The message is put together only where the record is shown, so whoever logs
goes on as before when some datum of it cannot be shown.
-/

namespace CoreTiming.Log

/-- The levels of records, from least to most severe. -/
inductive Level where
  | debug
  | info
  | warning
  deriving DecidableEq

namespace Level

/-- The name of a level. -/
def name : Level → String
  | debug => "DEBUG"
  | info => "INFO"
  | warning => "WARNING"

/-- The rank of a level in the order of severity. -/
def rank : Level → Nat
  | debug => 0
  | info => 1
  | warning => 2

end Level

/-- The parts of the library that log. -/
inductive Channel where
  | alignment
  | program
  | trace
  | architecture
  deriving DecidableEq

/-- The channel above all others. -/
def rootChannel : String := "wildcat_wcet"

/-- The name of a channel. -/
def Channel.name : Channel → String
  | alignment => rootChannel ++ ".aligner"
  | program => rootChannel ++ ".program"
  | trace => rootChannel ++ ".trace"
  | architecture => rootChannel ++ ".architecture"

instance : DecidableEq (Except Unshowable String)
  | .ok a, .ok b => decidable_of_iff (a = b) ⟨congrArg _, Except.ok.inj⟩
  | .error a, .error b => decidable_of_iff (a = b) ⟨congrArg _, Except.error.inj⟩
  | .ok _, .error _ => isFalse nofun
  | .error _, .ok _ => isFalse nofun

/-- One message: its text, or why it has none. -/
structure Record where
  level : Level
  channel : Channel
  message : Except Unshowable String
  deriving DecidableEq

end CoreTiming.Log
