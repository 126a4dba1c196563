import CoreTiming.Diagnostic.Basic
import CoreTiming.Disassembler.Command
import CoreTiming.Log.Record
import CoreTiming.Machine.Config
import CoreTiming.OrderedMap

/-!
# Architectures

An architecture is the core as the enclosing tool sees it: a class by name, a target triple and a
machine configuration. Classes are found by the name of their target in a registry; a name that
is registered anew leads to the new class, which is logged when the class is another one.

Timing of caches and of the scratchpad is not modelled: there are no cache models, and no data
access is cached.
-/

namespace CoreTiming.Machine

/-! ## Architectures -/

/-- The class of the core's own architecture. -/
def coreClass : String := "WildcatArchitecture"

/-- `WildcatArchitecture`, by what its operations read of it. -/
structure Architecture where
  className : String := coreClass
  triple : String := "riscv32"
  config : Config := .standard
  deriving DecidableEq

namespace Architecture

/-- An architecture in one line. -/
def display (a : Architecture) : String := a.className ++ "(" ++ Text.quote a.triple ++ ")"

/-- `data_memory`: the memory behind the area of data. -/
def dataMemory? (a : Architecture) : Option Memory := (a.config.area? "data").map (·.memory)

/-- `local_memory`: the memory for local data and the stack. -/
def localMemory? (a : Architecture) : Option Memory := a.config.memory? "local"

/-- Whether the configuration is the standard one. -/
def isStandard (a : Architecture) : Bool := a.config.agrees .standard

/-- `max_data_transfer_bytes`: the greatest number of bytes of a load or a store. -/
def maxDataTransfer : Int := 4

/-- `data_cache_access`: whether data accesses go through a cache. -/
def cachesData : Bool := false

end Architecture

/-! ## Registry -/

/-- The classes of architectures by the names of their targets. -/
abbrev Registry := OrderedMap String String

/-- A target without a class, and the targets that have one. -/
structure UnknownArchitecture where
  name : String
  known : List String
  deriving DecidableEq

/-- The targets that have a class as a hint lists them: nothing to show counts as none. -/
def knownNames (known : List String) : String :=
  let names := ", ".intercalate known
  if names.isEmpty then "none" else names

/-- A target without a class, as a diagnostic with a hint at the others. -/
def UnknownArchitecture.diagnostic (e : UnknownArchitecture) : Diagnostic :=
  { cause := .configuration
    message := .text ("Unknown architecture: " ++ e.name)
    hint := .text ("registered: " ++ knownNames e.known) }

namespace Registry

/-- The registry with the core's own architecture. -/
def standard : Registry := .ofList [("riscv32", coreClass)]

/-- `registered_architectures`: the targets, in the order of their characters. -/
def names (registry : Registry) : List String :=
  registry.keys.mergeSort fun a b => a ≤ b

/-- The record of a class that takes the place of another. -/
def replacedRecord (name old new : String) : Log.Record where
  level := .warning
  channel := .architecture
  message := .ok ("Replacing architecture " ++ name ++ ": " ++ old ++ " -> " ++ new)

/-- `register_architecture`: registers a class for a target. -/
def register (registry : Registry) (name className : String) : Registry × List Log.Record :=
  let records :=
    match registry.get? name with
    | some old => if old = className then [] else [replacedRecord name old className]
    | none => []
  (registry.insert name className, records)

/-- Removes a target and returns the class it had. -/
def unregister (registry : Registry) (name : String) : Option String × Registry :=
  (registry.get? name, registry.erase name)

/-- `architecture_for`: the class of a target. -/
def find (registry : Registry) (name : String) : Except UnknownArchitecture String :=
  match registry.get? name with
  | some className => .ok className
  | none => .error ⟨name, registry.names⟩

/-- A class is found under the name it was registered for. -/
theorem find_register (registry : Registry) (name className : String) :
    find (register registry name className).1 name = .ok className := by
  simp [find, register]

end Registry

end CoreTiming.Machine
