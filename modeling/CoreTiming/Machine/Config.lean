import CoreTiming.Datum.Order

/-!
# Machine configurations

A machine configuration is plain data: memories, caches, and memory areas, which tie ranges of
addresses to them. The ends of a range are integers as a rule, but may be any datum; an address is
compared with them as a number, and configurations agree when their ranges do so as numbers.

`Config.standard` is the configuration of the core: an external flash behind an instruction
cache, and a data scratchpad of 16 KiB, whose addresses are addresses of the core
(`contains_fullRange_of_scratchpadRange`).
-/

namespace CoreTiming.Machine

/-- `MemoryConfig`: a memory with its timing. -/
structure Memory where
  name : String
  size : Int
  transferSize : Int
  readLatency : Int
  readTransferTime : Int
  writeLatency : Int
  writeTransferTime : Int
  deriving DecidableEq

/-- `CacheConfig`: a cache with its geometry. -/
structure Cache where
  name : String
  kind : String
  policy : String
  associativity : Int
  blockSize : Int
  size : Int
  deriving DecidableEq

/-- `ValueRange`: a range of addresses, both ends included. -/
structure AddressRange where
  first : Datum
  last : Datum
  deriving DecidableEq

namespace AddressRange

/-- `ValueRange.__contains__`: whether a datum is an address in the range. Only integers are
addresses, and truth values count as such. -/
def contains (range : AddressRange) (address : Datum) : Except Datum.Incomparable Bool :=
  match address.integer? with
  | none => .ok false
  | some _ => do
    if ← range.first.atMost address then address.atMost range.last else return false

/-- Whether two ranges have the same ends. -/
def agrees (a b : AddressRange) : Bool := a.first.agrees b.first && a.last.agrees b.last

/-- An integer is in a range of integers exactly when it lies between the ends. -/
theorem contains_int (first last n : Int) :
    contains ⟨.int first, .int last⟩ (.int n) = .ok (decide (first ≤ n ∧ n ≤ last)) := by
  by_cases h : first ≤ n <;>
    simp [contains, Datum.integer?, Datum.atMost_int, h, bind, Except.bind, pure, Except.pure]

end AddressRange

/-- `MemoryArea`: a range of addresses with the memory and the cache behind it. -/
structure Area where
  name : String
  kind : String
  cache : Option Cache
  memory : Memory
  range : AddressRange
  deriving DecidableEq

/-- Whether two areas are the same. -/
def Area.agrees (a b : Area) : Bool :=
  a.name == b.name && a.kind == b.kind && a.cache == b.cache && a.memory == b.memory
    && a.range.agrees b.range

/-- `MachineConfig`: the memories, the caches and the areas of a machine. -/
structure Config where
  memories : List Memory := []
  caches : List Cache := []
  areas : List Area := []
  deriving DecidableEq

namespace Config

/-- Whether two configurations are the same. -/
def agrees (a b : Config) : Bool :=
  a.memories == b.memories && a.caches == b.caches && a.areas.isEqv b.areas Area.agrees

/-- `memory_by_name`: the first memory of a name. -/
def memory? (config : Config) (name : String) : Option Memory :=
  config.memories.find? (·.name = name)

/-- `cache_by_name`: the first cache of a name. -/
def cache? (config : Config) (name : String) : Option Cache :=
  config.caches.find? (·.name = name)

/-- `area_by_name`: the first area of a name. -/
def area? (config : Config) (name : String) : Option Area :=
  config.areas.find? (·.name = name)

end Config

/-! ## The configuration of the core -/

/-- `FULL_RANGE`: all addresses of the core. -/
def fullRange : AddressRange := ⟨.int 0, .int 0xFFFFFFFF⟩

/-- `DTIM_RANGE`: the addresses of the data scratchpad. -/
def scratchpadRange : AddressRange := ⟨.int 0x80000000, .int 0x80003FFF⟩

/-- The external flash. Burst size and transfer times are estimates. -/
def flash : Memory := ⟨"main", 126 * 1024 * 1024, 16, 0, 21, 0, 21⟩

/-- The data scratchpad. -/
def scratchpad : Memory := ⟨"data-sram", 16384, 16, 16, 3, 21, 3⟩

/-- `default_instr_cache`: a cache of whole methods if asked for by this kind, and else a cache of
lines. -/
def instructionCache (kind : Datum) : Cache :=
  if kind.agrees (.text "method-cache") then ⟨"method-cache", "method-cache", "fifo", 16, 8, 4096⟩
  else ⟨"instruction-cache", "instruction-cache", "lru", 2, 32, 16384⟩

/-- The cache for instructions of the core. -/
def lineCache : Cache := instructionCache (.text "instruction-cache")

/-- `default_machine_config`: the configuration of the core. -/
def Config.standard : Config where
  memories := [flash, scratchpad]
  caches := [lineCache]
  areas :=
    [⟨"instructions", "code", some lineCache, flash, fullRange⟩,
      ⟨"data", "data", none, scratchpad, scratchpadRange⟩]

/-- The scratchpad's addresses are addresses of the core. -/
theorem contains_fullRange_of_scratchpadRange {n : Int}
    (h : scratchpadRange.contains (.int n) = .ok true) :
    fullRange.contains (.int n) = .ok true := by
  simp only [scratchpadRange, fullRange, AddressRange.contains_int, Except.ok.injEq,
    decide_eq_true_eq] at h ⊢
  omega

end CoreTiming.Machine
