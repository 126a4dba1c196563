import CoreTiming.Proofs.Numeral.Strict
import CoreTiming.Proofs.Trace.Fields
import CoreTiming.Proofs.Trace.Stream

/-!
# Which numbers a trace may hold

The two numbers of a core line are read as literals, and whatever is none of its style is refused
with the place of the line. A strict reader would refuse more: it would not take a time or a program
counter with a sign or with characters beyond ASCII, nor a time with underscores.

Results:
* `Ahead.reply_eq`: an advance is answered by the first core line ahead, wherever that line stands;
* `answer_of_coreLine`: what is handed out for it. It is an event only if each number is strict or
  has a character of that kind, and otherwise the complaint about the line;
* `event_of_underscore`: such a number is taken.
-/

namespace CoreTiming.Trace

open CoreTiming CoreTiming.Text CoreTiming.Numeral

/-! ## Advances to a core line -/

/-- The lines that a pass has ahead, after the line of a number and with a count of events: what is
    left of its file, and the whole file if it waits. -/
inductive Ahead (opening : Opening) (reader : Reader) (pass : Nat) (path : String) :
    Nat → Nat → List (List Char) → Prop
  | reading {number : Nat} {rest : List (List Char)}
      (hpass : reader.passes[pass]? = some (.reading path number rest)) :
      Ahead opening reader pass path number reader.count rest
  | waiting {all : List (List Char)} (hpass : reader.passes[pass]? = some .waiting)
      (htrace : nonempty? reader.options.trace = some path)
      (hopen : openLines opening path = .ok all) :
      Ahead opening reader pass path 0 0 all

variable {opening : Opening} {reader : Reader} {pass number count : Nat} {path : String}
  {line time event counter : List Char} {skipped rest more : List (List Char)}

theorem seek_append {settings : Settings}
    (hskipped : ∀ line ∈ skipped, isCore settings line = false) (path : String) (number : Nat)
    (rest : List (List Char)) :
    seek settings path number (skipped ++ rest)
      = seek settings path (number + skipped.length) rest := by
  induction skipped generalizing number with
  | nil => rfl
  | cons line skipped ih =>
    obtain ⟨hline, hlater⟩ := List.forall_mem_cons.1 hskipped
    rw [List.cons_append, seek, readLine_of_not_isCore hline, List.length_cons,
      ← Nat.add_assoc, Nat.add_right_comm]
    exact ih hlater (number + 1)

theorem Ahead.advanced_eq {lines : List (List Char)}
    (h : Ahead opening reader pass path number count lines) :
    reader.advanced opening pass = advanceReading reader.settings count path number lines := by
  cases h with
  | reading hpass => rw [advanced_of_getElem? hpass, advance]
  | waiting hpass htrace hopen =>
    rw [advanced_of_getElem? hpass, advance, advanceWaiting, htrace]
    simp only [hopen]

theorem Ahead.reply_eq (h : Ahead opening reader pass path number count (skipped ++ line :: rest))
    (hskipped : ∀ line ∈ skipped, isCore reader.settings line = false) :
    (reader.act opening (.next pass)).2
      = (advanceReading reader.settings count path (number + skipped.length)
          (line :: rest)).reply := by
  rw [act_next, h.advanced_eq, advanceReading, seek_append hskipped, advanceReading]

theorem reply_of_event {settings : Settings} {pc tick : Int}
    (hread : readLine settings line = .ok (some (pc, tick))) (count : Nat) (path : String)
    (number : Nat) (rest : List (List Char)) :
    (advanceReading settings count path number (line :: rest)).reply
      = { events := [⟨pc, tick, count⟩] } := by
  rw [advanceReading, seek, hread]
  rfl

theorem reply_of_error {settings : Settings} {e : LineFault}
    (hread : readLine settings line = .error e) (count : Nat) (path : String) (number : Nat)
    (rest : List (List Char)) :
    (advanceReading settings count path number (line :: rest)).reply
      = { fault := some (e.located path (number + 1) line) } := by
  rw [advanceReading, seek, hread]
  rfl

/-- Whether the time and the program counter of a line are literals. -/
def AreLiterals (time counter : List Char) : Prop :=
  (∃ units, IsLiteral .decimal time units) ∧ ∃ pc, IsLiteral .marked counter pc

/-- What may be handed out for a core line. If its two numbers are literals, that is its event,
    unless the time cannot be divided. Otherwise it is the complaint about the line. -/
inductive Answer (scale : Int) (count : Nat) (path : String) (number : Nat)
    (time counter : List Char) : Reply → Prop
  | event {units pc : Int} (hscale : scale ≠ 0) (htime : IsLiteral .decimal time units)
      (hcounter : IsLiteral .marked counter pc) :
      Answer scale count path number time counter
        { events := [⟨pc, ⌊(units : ℚ) / scale⌋, count⟩] }
  | zeroScale (hscale : scale = 0) (hliterals : AreLiterals time counter) :
      Answer scale count path number time counter { fault := some .zeroScale }
  | malformed {fault : Fault} (hbad : ¬ AreLiterals time counter)
      (hcause : fault.diagnostic?.map (·.cause)
        = some (.traceFormat (.text path) (.int number))) :
      Answer scale count path number time counter { fault := some fault }

/-- A core line is answered by its event or by the complaint about it. -/
theorem answer_of_fields {settings : Settings}
    (hfields : fields line = time :: event :: counter :: more)
    (hmarker : settings.marker.toList <:+: event) (count : Nat) (path : String) (number : Nat)
    (rest : List (List Char)) :
    Answer settings.scale count path (number + 1) time counter
      (advanceReading settings count path number (line :: rest)).reply := by
  have htimeField : time ∈ fields line := by simp [hfields]
  have hcounterField : counter ∈ fields line := by simp [hfields]
  have hread := readLine_of_fields hfields hmarker
  rw [readColumns, readField, readField] at hread
  cases hcounter : Numeral.read .marked counter with
  | error reason =>
    rw [hcounter] at hread
    rw [reply_of_error hread]
    refine .malformed ?_ rfl
    rintro ⟨-, pc, hliteral⟩
    rw [← read_field_eq_ok_iff hcounterField, hcounter] at hliteral
    cases hliteral
  | ok pc =>
    rw [hcounter] at hread
    rw [read_field_eq_ok_iff hcounterField] at hcounter
    cases htime : Numeral.read .decimal time with
    | error reason =>
      rw [htime] at hread
      rw [reply_of_error hread]
      refine .malformed ?_ rfl
      rintro ⟨⟨units, hliteral⟩, -⟩
      rw [← read_field_eq_ok_iff htimeField, htime] at hliteral
      cases hliteral
    | ok units =>
      rw [htime] at hread
      rw [read_field_eq_ok_iff htimeField] at htime
      by_cases hscale : settings.scale = 0
      · have hzero : readLine settings line = .error .zeroScale := by
          simpa [bind, Except.bind, Except.mapError, Except.map, hscale] using hread
        rw [reply_of_error hzero]
        exact .zeroScale hscale ⟨⟨units, htime⟩, pc, hcounter⟩
      · have hevent : readLine settings line
            = .ok (some (pc, ⌊(units : ℚ) / settings.scale⌋)) := by
          simpa [bind, Except.bind, Except.mapError, Except.map, hscale, fdiv_eq_floor] using hread
        rw [reply_of_event hevent]
        exact .event hscale htime hcounter

/-- **Strict or lax numbers.** Let a pass be advanced, and let the first core line that it has ahead
    be one with the marker in its second field. What is handed out is the event of that line, if the
    time and the program counter are literals and the time can be divided, and the complaint that
    names the file and the line, if they are not. It is an event only if each of the two is strict
    or has a lax character, and it is the complaint if one of them is neither strict nor lax. It is
    an event if both are strict and within the limit of decimals. -/
theorem answer_of_coreLine
    (hahead : Ahead opening reader pass path number count (skipped ++ line :: rest))
    (hskipped : ∀ line ∈ skipped, isCore reader.settings line = false)
    (hfields : fields line = time :: event :: counter :: more)
    (hmarker : reader.settings.marker.toList <:+: event) :
    Answer reader.settings.scale count path (number + skipped.length + 1) time counter
        (reader.act opening (.next pass)).2
      ∧ ((reader.act opening (.next pass)).2.events ≠ [] →
          (Strict .decimal time ∨ Lax .decimal time)
            ∧ (Strict .marked counter ∨ Lax .marked counter))
      ∧ (¬ ((Strict .decimal time ∨ Lax .decimal time)
            ∧ (Strict .marked counter ∨ Lax .marked counter)) →
          ∃ fault, (reader.act opening (.next pass)).2 = { fault := some fault }
            ∧ fault.diagnostic?.map (·.cause)
              = some (.traceFormat (.text path) (.int (number + skipped.length + 1 : Nat))))
      ∧ (reader.settings.scale ≠ 0 → Strict .decimal time → Strict .marked counter →
          time.length ≤ digitLimit → counter.length ≤ digitLimit →
          ∃ event, (reader.act opening (.next pass)).2 = { events := [event] }) := by
  have hanswer := answer_of_fields hfields hmarker count path (number + skipped.length) rest
  rw [← hahead.reply_eq hskipped] at hanswer
  refine ⟨hanswer, ?_⟩
  generalize (reader.act opening (.next pass)).2 = reply at hanswer
  cases hanswer with
  | event hscale htime hcounter =>
    have hstrict := And.intro htime.strict_or_lax hcounter.strict_or_lax
    exact ⟨fun _ => hstrict, fun hnot => absurd hstrict hnot, fun _ _ _ _ _ => ⟨_, rfl⟩⟩
  | zeroScale hscale hliterals =>
    obtain ⟨⟨units, htime⟩, pc, hcounter⟩ := hliterals
    have hstrict := And.intro htime.strict_or_lax hcounter.strict_or_lax
    exact ⟨fun _ => hstrict, fun hnot => absurd hstrict hnot, fun hne => absurd hscale hne⟩
  | malformed hbad hcause =>
    refine ⟨fun hevents => absurd rfl hevents, fun _ => ⟨_, rfl, hcause⟩, ?_⟩
    intro _ htime hcounter hshort hshort'
    exact absurd ⟨htime.isLiteral hshort, hcounter.isLiteral hshort'⟩ hbad

/-! ## A fraction, and lax numbers -/

/-- Two lines that are not the core's, and a core line whose time has a fraction. -/
def fractionLines : List (List Char) :=
  ["# start".toList, "900: system.mem: 0x10".toList, "1000.5 : system.cpu.fetch: 0x10: lw".toList]

/-- A directory with a file of these lines. -/
def fractionFiles : Opening :=
  openFile [("t", (fractionLines.flatMap (· ++ ['\n'])).map fun c => c.toNat.toUInt8)]

/-- A reader of that file that has handed out events before. -/
def fractionReader : Reader :=
  { options := { trace := some "t" }, count := 2, passes := [.waiting] }

theorem answer_of_coreLine_fraction :
    Ahead fractionFiles fractionReader 0 "t" 0 0 fractionLines
      ∧ (∀ line ∈ fractionLines.take 2, isCore fractionReader.settings line = false)
      ∧ fields fractionLines[2]
        = ["1000.5".toList, "system.cpu.fetch".toList, "0x10".toList, "lw".toList]
      ∧ fractionReader.settings.marker.toList <:+: "system.cpu.fetch".toList
      ∧ ∃ fault, (fractionReader.act fractionFiles (.next 0)).2 = { fault := some fault }
          ∧ fault.diagnostic?.map (·.cause) = some (.traceFormat (.text "t") (.int 3)) := by
  have hopen : openLines fractionFiles "t" = .ok fractionLines := by decide +kernel
  have hahead : Ahead fractionFiles fractionReader 0 "t" 0 0
      (fractionLines.take 2 ++ fractionLines[2] :: []) := .waiting rfl rfl hopen
  have hskipped : ∀ line ∈ fractionLines.take 2,
      isCore fractionReader.settings line = false := by decide +kernel
  have hfields : fields fractionLines[2]
      = ["1000.5".toList, "system.cpu.fetch".toList, "0x10".toList, "lw".toList] := by
    decide +kernel
  have hmarker : fractionReader.settings.marker.toList <:+: "system.cpu.fetch".toList :=
    ⟨[], ".fetch".toList, rfl⟩
  have hneither : ¬ (Strict .decimal "1000.5".toList ∨ Lax .decimal "1000.5".toList) := by
    rintro (⟨-, hdigits⟩ | hlax)
    · exact absurd (hdigits '.' (by decide)) (by decide)
    · exact absurd hlax (by decide)
  obtain ⟨-, -, hfault, -⟩ := answer_of_coreLine hahead hskipped hfields hmarker
  exact ⟨hahead, hskipped, hfields, hmarker, hfault fun hboth => hneither hboth.1⟩

/-- A directory with a trace that has an underscore in a time, and signs. -/
def laxFiles : Opening :=
  openFile [("t",
    "1_000: system.cpu: 0x10\n-500: system.cpu: -1\n".toList.map fun c => c.toNat.toUInt8)]

/-- A reader of that file. -/
def laxReader : Reader := { options := { trace := some "t" }, passes := [.waiting] }

/-- An underscore in a time is taken, and so are signs, though such numbers are not strict. -/
theorem event_of_underscore :
    (laxReader.nth laxFiles 0 0).2 = { events := [⟨16, 2, 0⟩] }
      ∧ (laxReader.nth laxFiles 0 1).2 = { events := [⟨-1, -1, 1⟩] }
      ∧ ¬ Strict .decimal "1_000".toList
      ∧ ¬ Strict .decimal "-500".toList := by
  refine ⟨by decide +kernel, by decide +kernel, ?_, ?_⟩
  · rintro ⟨-, hdigits⟩
    exact absurd (hdigits '_' (by decide)) (by decide)
  · rintro ⟨-, hdigits⟩
    exact absurd (hdigits '-' (by decide)) (by decide)

end CoreTiming.Trace
