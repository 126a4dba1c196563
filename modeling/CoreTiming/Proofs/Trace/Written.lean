import CoreTiming.Proofs.Numeral.Spelling
import CoreTiming.Proofs.Text.Encoding
import CoreTiming.Proofs.Text.Endings
import CoreTiming.Proofs.Trace.Fields
import CoreTiming.Proofs.Trace.Stream

/-!
# Traces written as text

A trace as it may be written, with all the freedom that there is: white space around the fields, a
program counter in any spelling, text behind it that may have colons of its own, other lines in
between, and line ends of every kind. The conditions under which a text is a core line, or none, are
part of `EventText` and `TraceLine`, so what is written is always read back.

Results:
* `EventText.readLine_render`: a core line is read as its program counter and its tick;
* `drainLines_of_readLine`: the events of lines that are all read without a fault;
* `pass_written`: a pass over a written trace hands out what was written, and nothing else.
-/

namespace CoreTiming.Trace

open CoreTiming CoreTiming.Text CoreTiming.Numeral

/-! ## Core lines -/

/-- White space that ends no line. -/
def isGap (c : Char) : Bool := isSpace c && !isLineEnd c

/-- White space on either side of a field. -/
structure Padding where
  front : List Char := []
  back : List Char := []
  front_gap : front.all isGap = true := by decide
  back_gap : back.all isGap = true := by decide

/-- A text with white space on either side. -/
def Padding.around (padding : Padding) (text : List Char) : List Char :=
  padding.front ++ (text ++ padding.back)

/-- A core line as text: a time in decimal, an event that contains the marker, a program counter in
    any spelling, and any text behind a third colon. White space around the event is part of it. -/
structure EventText where
  time : Nat
  event : List Char
  pc : Nat
  counter : List Char
  tail : Option (List Char) := none
  timePadding : Padding := {}
  counterPadding : Padding := {}
  time_short : (natural 10 time).length ≤ digitLimit
  event_marked : "system.cpu".toList <:+: event
  event_free : ':' ∉ event
  event_unbroken : event.any isLineEnd = false
  counter_spells : Spells pc counter
  tail_unbroken : (tail.all fun text => !text.any isLineEnd) = true

/-- The text itself. -/
def EventText.render (text : EventText) : List Char :=
  text.timePadding.around (natural 10 text.time) ++ ':' :: (text.event ++ ':'
    :: (text.counterPadding.around text.counter ++ text.tail.elim [] (':' :: ·)))

/-- What a core line says: the program counter, and the time in whole ticks. -/
def EventText.content (text : EventText) (ticks : Nat) : Int × Int :=
  (text.pc, (text.time / ticks : Nat))

/-! ## Core lines are read back -/

theorem isLineEnd_of_any {text : List Char} (h : text.any isLineEnd = false) {c : Char}
    (hc : c ∈ text) : isLineEnd c = false := by
  rw [← Bool.not_eq_true]
  exact List.any_eq_false.1 h c hc

/-- A gap is white space, ends no line, and has no colon. -/
theorem of_isGap {gap : List Char} (hgap : gap.all isGap = true) {c : Char} (hc : c ∈ gap) :
    isSpace c = true ∧ isLineEnd c = false ∧ c ≠ ':' := by
  have hspace := List.all_eq_true.1 hgap c hc
  rw [isGap, Bool.and_eq_true, Bool.not_eq_true'] at hspace
  refine ⟨hspace.1, hspace.2, ?_⟩
  rintro rfl
  rw [not_isSpace_colon] at hspace
  cases hspace.1

/-- A padded field has no colon and no line end, and is found again. -/
theorem Padding.around_spec (padding : Padding) {text : List Char}
    (h : ∀ c ∈ text, c.isAlphanum = true) :
    trim isSpace (padding.around text) = text
      ∧ ∀ c ∈ padding.around text, isLineEnd c = false ∧ c ≠ ':' := by
  constructor
  · exact trim_padded (fun c hc => (of_isGap padding.front_gap hc).1)
      (fun c hc => (of_isAlphanum (h c hc)).1) (fun c hc => (of_isGap padding.back_gap hc).1)
  · intro c hc
    rw [Padding.around, List.mem_append, List.mem_append] at hc
    rcases hc with hc | hc | hc
    · exact (of_isGap padding.front_gap hc).2
    · exact (of_isAlphanum (h c hc)).2
    · exact (of_isGap padding.back_gap hc).2

/-- The marker stands in an event exactly when it stands in the event without the white space at
    its ends. -/
theorem marker_infix_trim {event : List Char} :
    "system.cpu".toList <:+: trim isSpace event ↔ "system.cpu".toList <:+: event := by
  refine infix_trim_iff (by decide) ?_ ?_
  · rintro c ⟨⟩
    decide
  · rintro c ⟨⟩
    decide

namespace EventText

variable (text : EventText)

theorem timePiece_spec :
    trim isSpace (text.timePadding.around (natural 10 text.time)) = natural 10 text.time
      ∧ ∀ c ∈ text.timePadding.around (natural 10 text.time), isLineEnd c = false ∧ c ≠ ':' :=
  text.timePadding.around_spec fun _ hc => isAlphanum_of_mem_natural hc

theorem counterPiece_spec :
    trim isSpace (text.counterPadding.around text.counter) = text.counter
      ∧ ∀ c ∈ text.counterPadding.around text.counter, isLineEnd c = false ∧ c ≠ ':' :=
  text.counterPadding.around_spec fun _ hc => text.counter_spells.isAlphanum hc

theorem fields_render : ∃ more, fields text.render
    = natural 10 text.time :: trim isSpace text.event :: text.counter :: more := by
  obtain ⟨htime, htimeFree⟩ := text.timePiece_spec
  obtain ⟨hcounter, hcounterFree⟩ := text.counterPiece_spec
  have hnoColon : ':' ∉ text.timePadding.around (natural 10 text.time) := fun hmem =>
    (htimeFree _ hmem).2 rfl
  have hnoColon' : ':' ∉ text.counterPadding.around text.counter := fun hmem =>
    (hcounterFree _ hmem).2 rfl
  rw [render, fields_append hnoColon text.event_free, htime]
  cases text.tail with
  | none =>
    rw [Option.elim_none, List.append_nil, pieces_of_not_mem hnoColon']
    exact ⟨[], by rw [List.map_singleton, hcounter]⟩
  | some tail =>
    rw [Option.elim_some, pieces_append hnoColon', pieces_zero]
    exact ⟨[trim isSpace tail], by rw [List.map_cons, List.map_singleton, hcounter]⟩

/-- **A core line is read back**, as its program counter and its tick. -/
theorem readLine_render {ticks : Nat} (hticks : 0 < ticks) :
    readLine { scale := ticks } text.render = .ok (some (text.content ticks)) := by
  obtain ⟨more, hfields⟩ := text.fields_render
  have hcounterField : text.counter ∈ fields text.render := by simp [hfields]
  have htimeField : natural 10 text.time ∈ fields text.render := by simp [hfields]
  have hcounter : Numeral.read .marked text.counter = .ok (text.pc : Int) :=
    (read_field_eq_ok_iff hcounterField).2 (.plain text.counter_spells.unsigned)
  have htime : Numeral.read .decimal (natural 10 text.time) = .ok (text.time : Int) := by
    have hshort : (digits 10 text.time).length ≤ digitLimit := by
      simpa [natural] using text.time_short
    have hliteral := Unsigned.decimal (run_natural text.time) hshort
    rw [ofDigits_digits] at hliteral
    exact (read_field_eq_ok_iff htimeField).2 (.plain hliteral)
  have hscale : ticks ≠ 0 := by omega
  have htick : (text.time : Int).fdiv ticks = (text.time : Int) / ticks :=
    Int.fdiv_eq_ediv_of_nonneg _ (Int.natCast_nonneg ticks)
  have hmarker : ({ scale := ticks } : Settings).marker.toList <:+: trim isSpace text.event :=
    marker_infix_trim.2 text.event_marked
  rw [readLine_of_fields hfields hmarker]
  simp only [readColumns, readField, hcounter, htime]
  simp [bind, Except.bind, Except.mapError, Except.map, hscale, htick, content]

theorem isLineEnd_of_mem_render {c : Char} (hc : c ∈ text.render) : isLineEnd c = false := by
  simp only [render, List.mem_append, List.mem_cons] at hc
  rcases hc with hc | rfl | hc | rfl | hc | hc
  · exact (text.timePiece_spec.2 c hc).1
  · decide
  · exact isLineEnd_of_any text.event_unbroken hc
  · decide
  · exact (text.counterPiece_spec.2 c hc).1
  · cases htail : text.tail with
    | none =>
      rw [htail] at hc
      cases hc
    | some tail =>
      have hunbroken := text.tail_unbroken
      rw [htail, Option.all_some, Bool.not_eq_true'] at hunbroken
      rw [htail, Option.elim_some, List.mem_cons] at hc
      rcases hc with rfl | hc
      · decide
      · exact isLineEnd_of_any hunbroken hc

end EventText

/-! ## Other lines -/

/-- Whether a line has three fields between colons and the marker stands in the second one. -/
def HasCoreEvent (line : List Char) : Prop :=
  ∃ time event rest, line = time ++ ':' :: (event ++ ':' :: rest) ∧ ':' ∉ time ∧ ':' ∉ event
    ∧ "system.cpu".toList <:+: event

/-- The core lines are those with the marker between the first two colons. -/
theorem isCore_iff_hasCoreEvent {line : List Char} (scale : Int) :
    isCore { scale } line = true ↔ HasCoreEvent line := by
  rw [isCore_iff]
  constructor
  · rintro ⟨time, event, counter, more, hfields, hmarker⟩
    obtain ⟨timePiece, eventPiece, rest, rfl, htime, hevent, -, rfl⟩ := exists_of_fields hfields
    exact ⟨timePiece, eventPiece, rest, rfl, htime, hevent, marker_infix_trim.1 hmarker⟩
  · rintro ⟨time, event, rest, rfl, htime, hevent, hmarker⟩
    obtain ⟨counter, more, hpieces⟩ : ∃ counter more, pieces 1 rest = counter :: more := by
      obtain hnone | ⟨piece, behind, rfl, hpiece⟩ := exists_first_piece rest
      · exact ⟨_, _, pieces_of_not_mem hnone 1⟩
      · exact ⟨_, _, pieces_append hpiece 0 behind⟩
    have hfields := fields_append htime hevent rest
    rw [hpieces, List.map_cons] at hfields
    exact ⟨_, _, _, _, hfields, marker_infix_trim.2 hmarker⟩

instance (line : List Char) : Decidable (HasCoreEvent line) :=
  decidable_of_iff _ (isCore_iff_hasCoreEvent 1)

/-- A line of a trace: a core line, or a line without an event of the core. -/
inductive TraceLine where
  | event (text : EventText)
  | other (line : List Char) (quiet : ¬ HasCoreEvent line)
      (unbroken : line.any isLineEnd = false)

namespace TraceLine

/-- The text of a line. -/
def text : TraceLine → List Char
  | event text => text.render
  | other line _ _ => line

/-- The core line, if the line is one. -/
def event? : TraceLine → Option EventText
  | event text => some text
  | other _ _ _ => none

theorem isLineEnd_of_mem_text {line : TraceLine} {c : Char} (hc : c ∈ line.text) :
    isLineEnd c = false := by
  cases line with
  | event text => exact text.isLineEnd_of_mem_render hc
  | other line quiet unbroken => exact isLineEnd_of_any unbroken hc

theorem readLine_text {ticks : Nat} (hticks : 0 < ticks) (line : TraceLine) :
    readLine { scale := ticks } line.text = .ok (line.event?.map (·.content ticks)) := by
  cases line with
  | event text => exact text.readLine_render hticks
  | other line quiet unbroken =>
    refine readLine_of_not_isCore ?_
    rw [← Bool.not_eq_true, isCore_iff_hasCoreEvent]
    exact quiet

end TraceLine

/-! ## Lines without a fault -/

/-- Events that bear their numbers, counted from a base. -/
def numberedFrom (base : Nat) (said : List (Int × Int)) : List Event :=
  (said.zipIdx base).map fun (content, index) => ⟨content.1, content.2, index⟩

/-- What a line says, if it is read without a fault. -/
def said? (settings : Settings) (line : List Char) : Option (Int × Int) :=
  (readLine settings line).toOption.join

theorem said?_of_readLine {settings : Settings} {line : List Char} {said : Option (Int × Int)}
    (h : readLine settings line = .ok said) : said? settings line = said := by
  rw [said?, h]
  rfl

theorem drainLines_of_readLine {settings : Settings} {all : List (List Char)}
    (h : ∀ line ∈ all, readLine settings line = .ok (said? settings line))
    (path : String) (count number : Nat) :
    drainLines settings path count number all
      = { count := count + (all.filterMap (said? settings)).length
          events := numberedFrom count (all.filterMap (said? settings))
          records := [finishedRecord (count + (all.filterMap (said? settings)).length) path]
          outcome := .ok () } := by
  induction all generalizing count number with
  | nil => rfl
  | cons line rest ih =>
    obtain ⟨hline, hrest⟩ := List.forall_mem_cons.1 h
    rw [drainLines, hline]
    cases hsaid : said? settings line with
    | none => simp only [ih hrest, List.filterMap_cons_none hsaid]
    | some content =>
      simp only [ih hrest, List.filterMap_cons_some hsaid, List.length_cons, numberedFrom,
        List.zipIdx_cons, List.map_cons, Nat.add_assoc, Nat.add_comm 1]

theorem readLine_nil (scale : Int) : readLine { scale } [] = .ok none := by
  refine readLine_of_not_isCore ?_
  rw [← Bool.not_eq_true, isCore_iff_hasCoreEvent]
  rintro ⟨time, event, rest, hnil, -⟩
  simp at hnil

theorem filterMap_said?_filter (scale : Int) (all : List (List Char)) :
    (all.filter (· ≠ [])).filterMap (said? { scale }) = all.filterMap (said? { scale }) := by
  rw [List.filterMap_filter]
  refine List.filterMap_congr fun line _ => ?_
  by_cases hline : line = []
  · subst hline
    simp [said?_of_readLine (readLine_nil scale)]
  · simp [hline]

/-! ## Written traces -/

/-- The text of a trace. -/
def traceText (trace : List (TraceLine × LineEnd)) : List Char :=
  terminated (trace.map fun (line, ending) => (line.text, ending))

/-- The core lines of a trace. -/
def eventTexts (trace : List (TraceLine × LineEnd)) : List EventText :=
  trace.filterMap (·.1.event?)

/-- The events of core lines, with the times in whole ticks. -/
def eventsOfTexts (ticks : Nat) (texts : List EventText) : List Event :=
  numberedFrom 0 (texts.map (·.content ticks))

variable {ticks : Nat}

/-- The lines of a written trace are those that were written, but for the empty ones. -/
theorem filter_lines_traceText (trace : List (TraceLine × LineEnd)) :
    (lines (traceText trace)).filter (· ≠ [])
      = (trace.map (·.1.text)).filter (· ≠ []) := by
  rw [traceText, filter_lines_terminated, List.map_map]
  · rfl
  · intro line hline c hc
    obtain ⟨⟨traceLine, ending⟩, -, rfl⟩ := List.mem_map.1 hline
    exact traceLine.isLineEnd_of_mem_text hc

/-- Every line of a written trace is read without a fault. -/
theorem readLine_of_mem_traceText (hticks : 0 < ticks) {trace : List (TraceLine × LineEnd)}
    {line : List Char} (hline : line ∈ lines (traceText trace)) :
    readLine { scale := ticks } line = .ok (said? { scale := ticks } line) := by
  obtain ⟨said, hread⟩ : ∃ said, readLine { scale := ticks } line = .ok said := by
    by_cases hempty : line = []
    · exact ⟨_, hempty ▸ readLine_nil ticks⟩
    · have hmem : line ∈ (lines (traceText trace)).filter (· ≠ []) :=
        List.mem_filter.2 ⟨hline, by simpa using hempty⟩
      rw [filter_lines_traceText] at hmem
      obtain ⟨⟨traceLine, ending⟩, -, rfl⟩ := List.mem_map.1 (List.mem_filter.1 hmem).1
      exact ⟨_, traceLine.readLine_text hticks⟩
  rw [hread, said?_of_readLine hread]

theorem filterMap_said?_traceText (hticks : 0 < ticks) (trace : List (TraceLine × LineEnd)) :
    (lines (traceText trace)).filterMap (said? { scale := ticks })
      = (eventTexts trace).map (·.content ticks) := by
  rw [← filterMap_said?_filter, filter_lines_traceText, filterMap_said?_filter,
    List.filterMap_map, eventTexts, List.map_filterMap]
  refine List.filterMap_congr fun line _ => ?_
  exact said?_of_readLine (line.1.readLine_text hticks)

theorem drainLines_traceText (hticks : 0 < ticks) (trace : List (TraceLine × LineEnd))
    (path : String) :
    drainLines { scale := ticks } path 0 0 (lines (traceText trace))
      = { count := (eventTexts trace).length
          events := eventsOfTexts ticks (eventTexts trace)
          records := [finishedRecord (eventTexts trace).length path]
          outcome := .ok () } := by
  rw [drainLines_of_readLine fun _ hline => readLine_of_mem_traceText hticks hline,
    filterMap_said?_traceText hticks, List.length_map, Nat.zero_add]
  rfl

variable {opening : Opening} {reader : Reader} {pass : Nat}

/-- **Writing and reading back.** Let a trace be written to a file, with core lines in any form,
    other lines anywhere in between, and line ends of every kind, and let the times be counted in
    ticks of a positive length. A pass over the file that is advanced time after time hands out one
    event for each core line, in order: the program counter, the time in whole ticks, and the number
    of events before. Then it ends with the record of how many there were, and there is no fault.
    The same events come of a pass that is run to its end at once. -/
theorem pass_written {trace : List (TraceLine × LineEnd)} {path : String} (hticks : 0 < ticks)
    (hwaiting : reader.passes[pass]? = some .waiting)
    (htrace : nonempty? reader.options.trace = some path)
    (hsettings : reader.settings = { scale := ticks })
    (hfile : opening path = .ok (encodeUtf8 (traceText trace))) :
    (∀ k (hk : k < (eventTexts trace).length), (reader.nth opening pass k).2 =
        { events := [⟨(eventTexts trace)[k].pc, ((eventTexts trace)[k].time / ticks : Nat), k⟩] })
      ∧ (reader.nth opening pass (eventTexts trace).length).2
        = { records := [finishedRecord (eventTexts trace).length path] }
      ∧ (∀ k, (eventTexts trace).length < k → (reader.nth opening pass k).2 = {})
      ∧ (reader.act opening .readAll).2 = {
          events := eventsOfTexts ticks (eventTexts trace)
          records := [finishedRecord (eventTexts trace).length path] } := by
  have hopen : openLines opening path = .ok (lines (traceText trace)) := by
    rw [openLines, hfile]
    simp only [Except.map, decodeUtf8_encodeUtf8]
  have hdrain : drain opening reader.options reader.settings reader.count
      = { count := (eventTexts trace).length
          events := eventsOfTexts ticks (eventTexts trace)
          records := [finishedRecord (eventTexts trace).length path]
          outcome := .ok () } := by
    simp only [drain, htrace, hopen, hsettings, drainLines_traceText hticks]
  have hlength : (eventsOfTexts ticks (eventTexts trace)).length = (eventTexts trace).length := by
    simp [eventsOfTexts, numberedFrom]
  have hfollows := follows_of_waiting hwaiting opening
  rw [hdrain] at hfollows
  refine ⟨?events, ?ending, ?after, ?whole⟩
  case events =>
    intro k hk
    rw [((hfollows k).event (by rw [hlength]; exact hk)).1]
    simp [eventsOfTexts, numberedFrom, EventText.content]
  case ending =>
    have hend := (hfollows (eventsOfTexts ticks (eventTexts trace)).length).ending
    rw [hlength] at hend
    exact hend
  case after =>
    intro k hk
    exact (hfollows k).after (by rw [hlength]; exact hk)
  case whole =>
    rw [Reader.act, Reader.readAll, hdrain]
    rfl

/-! ## A trace of many forms -/

/-- A line in capitals, with white space of several scripts and colons in its tail. -/
def capitalText : EventText where
  time := 1000
  event := "  core\u2028system.cpu.0\t".toList
  pc := 0xabc
  counter := "0XaBC".toList
  tail := some " T0 : lw:sw ".toList
  timePadding := { front := ['\t', ' '], back := ['\u2003'] }
  counterPadding := { front := ['\u001c'], back := [' '] }
  time_short := by decide +kernel
  event_marked := occurs_iff.1 (by decide)
  event_free := by decide
  event_unbroken := by decide
  counter_spells := @Spells.marked _ 'x' 16 0 _ (by decide) (by decide +kernel)
  tail_unbroken := by decide

/-- A line without any white space, and a padded program counter in binary. -/
def binaryText : EventText where
  time := 1499
  event := "system.cpu".toList
  pc := 5
  counter := "0b00101".toList
  time_short := by decide +kernel
  event_marked := occurs_iff.1 (by decide)
  event_free := by decide
  event_unbroken := by decide
  counter_spells := @Spells.marked _ 'b' 2 2 _ (by decide) (by decide +kernel)
  tail_unbroken := by decide

/-- A line with a program counter in decimal. -/
def decimalText : EventText where
  time := 2500
  event := "system.cpu".toList
  pc := 20
  counter := natural 10 20
  time_short := by decide +kernel
  event_marked := occurs_iff.1 (by decide)
  event_free := by decide
  event_unbroken := by decide
  counter_spells := .decimal (by decide +kernel)
  tail_unbroken := by decide

/-- A trace with these lines among others. -/
def mixedTrace : List (TraceLine × LineEnd) :=
  [(.other "# start".toList (by decide +kernel) (by decide), .carriageReturn),
    (.other [] (by decide +kernel) (by decide), .lineFeed),
    (.event capitalText, .both),
    (.other "1200: system.mem: 0x10: system.cpu".toList (by decide +kernel) (by decide), .lineFeed),
    (.event binaryText, .carriageReturn),
    (.other "1600: system.cpu".toList (by decide +kernel) (by decide), .carriageReturn),
    (.event decimalText, .lineFeed)]

/-- A directory with that trace. -/
def mixedFiles : Opening := openFile [("t", encodeUtf8 (traceText mixedTrace))]

/-- A reader of that trace that has handed out events before. -/
def mixedReader : Reader :=
  { options := { trace := some "t" }, count := 7, passes := [.finished, .waiting] }

theorem pass_written_mixed :
    mixedReader.passes[1]? = some .waiting
      ∧ nonempty? mixedReader.options.trace = some "t"
      ∧ mixedReader.settings = { scale := (500 : Nat) }
      ∧ mixedFiles "t" = .ok (encodeUtf8 (traceText mixedTrace))
      ∧ (mixedReader.nth mixedFiles 1 0).2 = { events := [⟨0xabc, 2, 0⟩] }
      ∧ (mixedReader.nth mixedFiles 1 1).2 = { events := [⟨5, 2, 1⟩] }
      ∧ (mixedReader.nth mixedFiles 1 2).2 = { events := [⟨20, 5, 2⟩] }
      ∧ (mixedReader.nth mixedFiles 1 3).2 = { records := [finishedRecord 3 "t"] }
      ∧ (mixedReader.nth mixedFiles 1 4).2 = {}
      ∧ (mixedReader.act mixedFiles .readAll).2
        = { events := [⟨0xabc, 2, 0⟩, ⟨5, 2, 1⟩, ⟨20, 5, 2⟩]
            records := [finishedRecord 3 "t"] } := by
  have hticks : 0 < 500 := by decide
  have hwaiting : mixedReader.passes[1]? = some .waiting := rfl
  have htrace : nonempty? mixedReader.options.trace = some "t" := rfl
  have hsettings : mixedReader.settings = { scale := (500 : Nat) } := rfl
  have hfile : mixedFiles "t" = .ok (encodeUtf8 (traceText mixedTrace)) :=
    (openFile_of_isName (by decide)).trans rfl
  have htexts : eventTexts mixedTrace = [capitalText, binaryText, decimalText] := rfl
  obtain ⟨hevents, hend, hafter, hwhole⟩ := pass_written hticks hwaiting htrace hsettings hfile
  rw [htexts] at hevents hend hafter hwhole
  have hfirst := hevents 0 (by decide)
  have hsecond := hevents 1 (by decide)
  have hthird := hevents 2 (by decide)
  exact ⟨hwaiting, htrace, hsettings, hfile, hfirst, hsecond, hthird, hend,
    hafter 4 (by decide), hwhole⟩

end CoreTiming.Trace
