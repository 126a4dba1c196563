import CoreTiming.Proofs.Trace.History
import CoreTiming.Proofs.Trace.Numbering
import CoreTiming.Proofs.Trace.Stream

/-!
# Passes that overlap

The passes of a reader share its count and its options, but a pass takes its lines from the file
that it opened. So what it hands out, the numbers of its events apart (`Content`), is what it would
hand out alone over that file, however the other passes and the options change meanwhile.

Results:
* `advance_twin`: what an advance hands out depends on the pass, on the settings, and for a pass
  that waits on the trace file, but not on the count;
* `contents_of_left`: the contents of a pass that was advanced, up to its closing and behind it;
* `contents_of_overlapping`: the contents of any pass of any schedule that keeps the settings.
-/

namespace CoreTiming.Trace

open CoreTiming

/-! ## Contents -/

/-- What a step hands out, the numbers of events apart: program counters and ticks, a fault, and
    whether a pass has come to the end of its file. -/
structure Content where
  events : List (Int × Int) := []
  fault : Option Fault := none
  ended : Bool := false
  deriving DecidableEq

/-- The content of nothing. -/
def Content.nothing : Content := {}

/-- The content of a reply. -/
def Reply.content (reply : Reply) : Content where
  events := reply.events.map Event.content
  fault := reply.fault
  ended := !reply.records.isEmpty

/-- The contents of the advances of the pass of a number. -/
def contentsOf (pass : Nat) (steps : List Step) : List Content :=
  (steps.filter (·.action = .next pass)).map (·.reply.content)

/-- A reader with a single pass, which waits, and with a trace file. -/
def Reader.alone (settings : Settings) (name : Option String) : Reader :=
  { options := { trace := name }, settings, passes := [.waiting] }

/-- What a pass that is run alone over a trace file hands out at the advance with the number
    `k`. -/
def contentAlone (opening : Opening) (settings : Settings) (name : Option String) (k : Nat) :
    Content := ((Reader.alone settings name).nth opening 0 k).2.content

/-- Whether a step keeps marker and scale. -/
def Action.isSteady : Action → Bool
  | .setScale _ => false
  | .setMarker _ => false
  | _ => true

/-- How often the pass of a number is advanced before it is closed. -/
def openAdvances (pass : Nat) (actions : List Action) : Nat :=
  (actions.takeWhile (· ≠ .close pass)).count (.next pass)

/-- How often the pass of a number is advanced after it is closed. -/
def closedAdvances (pass : Nat) (actions : List Action) : Nat :=
  (actions.dropWhile (· ≠ .close pass)).count (.next pass)

variable {opening : Opening} {reader : Reader} {pass : Nat} {done : List Action} {action : Action}

theorem contentsOf_cons_next (reader : Reader) (pass : Nat) (reply : Reply) (steps : List Step) :
    contentsOf pass (⟨reader, .next pass, reply⟩ :: steps)
      = reply.content :: contentsOf pass steps := by
  simp [contentsOf]

theorem contentsOf_cons_of_ne (h : action ≠ .next pass) (reader : Reader) (reply : Reply)
    (steps : List Step) :
    contentsOf pass (⟨reader, action, reply⟩ :: steps) = contentsOf pass steps := by
  simp [contentsOf, h]

theorem contentsOf_append (pass : Nat) (steps later : List Step) :
    contentsOf pass (steps ++ later) = contentsOf pass steps ++ contentsOf pass later := by
  simp [contentsOf]

theorem length_contentsOf (opening : Opening) (reader : Reader) (pass : Nat)
    (actions : List Action) :
    (contentsOf pass (trail opening reader actions)).length = actions.count (.next pass) := by
  have hactions := congrArg (List.count (.next pass)) (map_action_trail opening reader actions)
  rw [← hactions, contentsOf, List.length_map, List.count, List.countP_map,
    List.countP_eq_length_filter]
  congr 1

theorem settings_act (h : action.isSteady = true) (opening : Opening) (reader : Reader) :
    (reader.act opening action).1.settings = reader.settings := by
  cases action with
  | setScale scale => cases h
  | setMarker marker => cases h
  | _ => rfl

/-! ## One advance -/

theorem advanceReading_twin (settings : Settings) (count other : Nat) (path : String)
    (number : Nat) (rest : List (List Char)) :
    (advanceReading settings count path number rest).pass
        = (advanceReading settings other path number rest).pass
      ∧ (advanceReading settings count path number rest).reply.content
        = (advanceReading settings other path number rest).reply.content := by
  unfold advanceReading
  cases seek settings path number rest <;> exact ⟨rfl, rfl⟩

/-- What an advance makes of a pass and hands out does not depend on the count, and on the trace
    file only where the pass waits. -/
theorem advance_twin {options others : RunOptions} {state : Pass}
    (h : state = .waiting → options.trace = others.trace) (opening : Opening) (settings : Settings)
    (count other : Nat) :
    (advance opening options settings count state).pass
        = (advance opening others settings other state).pass
      ∧ (advance opening options settings count state).reply.content
        = (advance opening others settings other state).reply.content := by
  cases state with
  | waiting =>
    simp only [advance, advanceWaiting, h rfl]
    cases nonempty? others.trace <;> exact ⟨rfl, rfl⟩
  | reading path number rest => exact advanceReading_twin settings count other path number rest
  | finished => exact ⟨rfl, rfl⟩

theorem pass_advanceReading_of_quiet {settings : Settings} {count number : Nat} {path : String}
    {rest : List (List Char)}
    (h : (advanceReading settings count path number rest).reply.events = []) :
    (advanceReading settings count path number rest).pass = .finished := by
  unfold advanceReading at h ⊢
  cases hseek : seek settings path number rest with
  | event pc tick number rest => simp [hseek, Advance.reply, eventsIn] at h
  | fault reason => rfl
  | exhausted => rfl

theorem pass_advance_of_quiet {options : RunOptions} {settings : Settings} {count : Nat}
    {state : Pass} (h : (advance opening options settings count state).reply.events = []) :
    (advance opening options settings count state).pass = .finished := by
  cases state with
  | waiting =>
    rw [advance, advanceWaiting] at h ⊢
    cases hname : nonempty? options.trace with
    | none => rfl
    | some path =>
      rw [hname] at h
      simp only at h ⊢
      cases hopen : openLines opening path with
      | error e => rfl
      | ok rest =>
        rw [hopen] at h
        exact pass_advanceReading_of_quiet h
  | reading path number rest => exact pass_advanceReading_of_quiet h
  | finished => rfl

theorem finished_of_quiet {state : Pass} (hstate : reader.passes[pass]? = some state)
    (hquiet : action = .close pass
      ∨ action = .next pass ∧ (reader.act opening action).2.events = []) :
    (reader.act opening action).1.passes[pass]? = some .finished := by
  rw [getElem?_act hstate]
  rcases hquiet with rfl | ⟨rfl, hevents⟩
  · simp
  · rw [act_next] at hevents
    rw [if_pos rfl, Reader.advanced, pass_advance_of_quiet hevents]

/-- Two passes in the same state, of readers with the same settings, are led to the same state and
    hand out the same content. -/
theorem act_next_twin {twin : Reader} {other : Nat} {state : Pass}
    (hstate : reader.passes[pass]? = some state) (htwin : twin.passes[other]? = some state)
    (hsettings : twin.settings = reader.settings)
    (htrace : state = .waiting → reader.options.trace = twin.options.trace) (opening : Opening) :
    ∃ next, (reader.act opening (.next pass)).1.passes[pass]? = some next
      ∧ (twin.act opening (.next other)).1.passes[other]? = some next
      ∧ next ≠ .waiting
      ∧ (reader.act opening (.next pass)).2.content
        = (twin.act opening (.next other)).2.content := by
  have hadvanced := advanced_of_getElem? hstate opening
  have hother := advanced_of_getElem? htwin opening
  obtain ⟨hpass, hcontent⟩ := advance_twin htrace opening reader.settings reader.count twin.count
  rw [← hadvanced, ← hsettings, ← hother] at hpass hcontent
  refine ⟨_, getElem?_act hstate opening _, ?_, ?_, hcontent⟩
  · rw [getElem?_act htwin, if_pos rfl, if_pos rfl, hpass]
  · rw [if_pos rfl, hadvanced]
    exact pass_advance_ne_waiting _ _ _ _ _

/-! ## Passes that hand out nothing -/

theorem act_next_of_length_le (h : reader.passes.length ≤ pass) (opening : Opening) :
    reader.act opening (.next pass) = (reader, {}) := by
  have hcurrent : reader.current pass = .finished := by
    rw [Reader.current, List.getElem?_eq_none h, Option.getD_none]
  rw [act_next, Reader.advanced, hcurrent, advance_finished, List.set_eq_of_length_le h]
  rfl

theorem reply_of_finished (h : reader.passes[pass]? = some .finished) (opening : Opening)
    (actions : List Action) :
    ∀ step ∈ trail opening reader actions, step.action = .next pass → step.reply = {} := by
  induction actions generalizing reader with
  | nil => simp
  | cons action rest ih =>
    rw [trail_cons]
    refine List.forall_mem_cons.2 ⟨?_, ih (finished_act h opening action)⟩
    rintro ⟨⟩
    rw [act_next_finished h]

/-- A pass that waits has handed out nothing, and neither has one that was not begun. -/
theorem reply_of_waits (opening : Opening) (options : RunOptions) (settings : Settings)
    (h : done.count .begin ≤ pass ∨ Waits done pass) :
    ∀ step ∈ trail opening (.new options settings) done, step.action = .next pass →
      step.reply = {} := by
  induction done using List.reverseRecOn with
  | nil => simp
  | append_singleton done action ih =>
    rw [trail_append, trail_cons, trail_nil, List.forall_mem_append, List.forall_mem_singleton]
    rw [List.count_append, waits_concat] at h
    rcases h with hcount | ⟨rfl, hcount⟩ | ⟨hwaits, hother, -⟩
    · refine ⟨ih (.inl (Nat.le_of_add_right_le hcount)), ?_⟩
      rintro ⟨⟩
      rw [act_next_of_length_le]
      rw [length_passes_after]
      exact Nat.le_of_add_right_le hcount
    · exact ⟨ih (.inl hcount.le), fun hbegin => Action.noConfusion hbegin⟩
    · exact ⟨ih (.inr hwaits), fun hnext => absurd hnext hother⟩

theorem contentsOf_eq_replicate {actions : List Action}
    (h : ∀ step ∈ trail opening reader actions, step.action = .next pass → step.reply = {}) :
    contentsOf pass (trail opening reader actions)
      = List.replicate (actions.count (.next pass)) .nothing := by
  rw [List.eq_replicate_iff]
  refine ⟨length_contentsOf opening reader pass actions, ?_⟩
  intro content hcontent
  obtain ⟨step, hstep, rfl⟩ := List.mem_map.1 hcontent
  obtain ⟨hmem, hnext⟩ := List.mem_filter.1 hstep
  rw [h step hmem (by simpa using hnext)]
  rfl

/-! ## A whole schedule -/

/-- An advance that hands out what its twin does is followed by what follows on the twin. -/
theorem contents_next {twin : Reader} {rest : List Action}
    (hcontent : (reader.act opening (.next pass)).2.content
      = (twin.act opening (.next 0)).2.content)
    (hlater : contentsOf pass (trail opening (reader.act opening (.next pass)).1 rest)
      = (List.range (openAdvances pass rest)).map
          (fun k => ((twin.act opening (.next 0)).1.nth opening 0 k).2.content)
        ++ List.replicate (closedAdvances pass rest) .nothing) :
    contentsOf pass (trail opening reader (.next pass :: rest))
      = (List.range (openAdvances pass (.next pass :: rest))).map
          (fun k => (twin.nth opening 0 k).2.content)
        ++ List.replicate (closedAdvances pass (.next pass :: rest)) .nothing := by
  have hopen : openAdvances pass (.next pass :: rest) = openAdvances pass rest + 1 := by
    simp [openAdvances]
  have hclosed : closedAdvances pass (.next pass :: rest) = closedAdvances pass rest := by
    simp [closedAdvances]
  rw [trail_cons, contentsOf_cons_next, hlater, hopen, hclosed, List.range_succ_eq_map,
    List.map_cons, List.map_map, List.cons_append, hcontent]
  rfl

/-- The contents of a pass that was advanced: those of a twin that is only advanced, until it is
    closed, and nothing behind that. -/
theorem contents_of_left {twin : Reader} {state : Pass} {actions : List Action}
    (hsteady : ∀ action ∈ actions, action.isSteady = true)
    (hstate : reader.passes[pass]? = some state) (htwin : twin.passes[0]? = some state)
    (hleft : state ≠ .waiting) (hsettings : twin.settings = reader.settings) :
    contentsOf pass (trail opening reader actions)
      = (List.range (openAdvances pass actions)).map (fun k => (twin.nth opening 0 k).2.content)
        ++ List.replicate (closedAdvances pass actions) .nothing := by
  induction actions generalizing reader twin state with
  | nil => rfl
  | cons action rest ih =>
    obtain ⟨hfirst, hrest⟩ := List.forall_mem_cons.1 hsteady
    have hkept := settings_act hfirst opening reader
    by_cases hnext : action = .next pass
    · subst hnext
      obtain ⟨next, hpass, htwinPass, hnextLeft, hcontent⟩ :=
        act_next_twin hstate htwin hsettings (fun h => absurd h hleft) opening
      exact contents_next hcontent (ih hrest hpass htwinPass hnextLeft (hsettings.trans hkept.symm))
    · have hcontents : contentsOf pass (trail opening reader (action :: rest))
          = contentsOf pass (trail opening (reader.act opening action).1 rest) := by
        rw [trail_cons, contentsOf_cons_of_ne hnext]
      have hafter := getElem?_act hstate opening action
      rw [if_neg hnext] at hafter
      by_cases hclose : action = .close pass
      · have hopen : openAdvances pass (action :: rest) = 0 := by simp [openAdvances, hclose]
        have hclosed : closedAdvances pass (action :: rest) = rest.count (.next pass) := by
          simp [closedAdvances, hclose]
        rw [if_pos hclose] at hafter
        rw [hcontents, hopen, hclosed,
          contentsOf_eq_replicate (reply_of_finished hafter opening rest)]
        rfl
      · have hopen : openAdvances pass (action :: rest) = openAdvances pass rest := by
          simp [openAdvances, hclose, hnext]
        have hclosed : closedAdvances pass (action :: rest) = closedAdvances pass rest := by
          simp [closedAdvances, hclose]
        rw [if_neg hclose] at hafter
        rw [hcontents, hopen, hclosed]
        exact ih hrest hafter htwin hleft (hsettings.trans hkept.symm)

/-- The contents of a pass from its first advance on: those of a pass alone over the trace file
    that is set then. -/
theorem contents_of_waiting {actions : List Action}
    (hsteady : ∀ action ∈ actions, action.isSteady = true)
    (hwaiting : reader.passes[pass]? = some .waiting) (opening : Opening) :
    contentsOf pass (trail opening reader (.next pass :: actions))
      = (List.range (openAdvances pass (.next pass :: actions))).map
          (contentAlone opening reader.settings reader.options.trace)
        ++ List.replicate (closedAdvances pass (.next pass :: actions)) .nothing := by
  have halone : (Reader.alone reader.settings reader.options.trace).passes[0]? = some .waiting :=
    rfl
  obtain ⟨next, hpass, htwinPass, hnextLeft, hcontent⟩ :=
    act_next_twin hwaiting halone rfl (fun _ => rfl) opening
  exact contents_next hcontent (contents_of_left hsteady hpass htwinPass hnextLeft rfl)

theorem settings_after (h : ∀ action ∈ done, action.isSteady = true) (opening : Opening)
    (reader : Reader) : (reader.after opening done).settings = reader.settings := by
  induction done generalizing reader with
  | nil => rfl
  | cons action rest ih =>
    obtain ⟨hfirst, hrest⟩ := List.forall_mem_cons.1 h
    rw [after_cons, ih hrest, settings_act hfirst]

/-- **Passes that overlap.** Let a reader be used in any way from its making on, but that marker
    and scale are kept. The first advance of a pass splits the schedule: before it the pass hands
    out nothing, from there on until it is closed what a pass run alone hands out over the trace
    file that was set last before that first advance, and behind its closing nothing. This holds of
    the program counters and ticks, of the faults, and of the end of the file. A pass that was
    closed, or that was advanced and did not hand out an event, hands out nothing any more. -/
theorem contents_of_overlapping {actions : List Action}
    (hsteady : ∀ action ∈ actions, action.isSteady = true) (opening : Opening)
    (options : RunOptions) (settings : Settings) :
    (∀ pass done rest, actions = done ++ .next pass :: rest → Waits done pass →
      contentsOf pass (trail opening (.new options settings) actions)
        = List.replicate (done.count (.next pass)) .nothing
          ++ (List.range (openAdvances pass (.next pass :: rest))).map
              (contentAlone opening settings (traceAfter options.trace done))
          ++ List.replicate (closedAdvances pass (.next pass :: rest)) .nothing)
    ∧ ∀ (pass : Nat) (before : List Step) (step : Step) (later : List Step),
        trail opening (.new options settings) actions = before ++ step :: later →
        pass < (before.map (·.action)).count .begin →
        (step.action = .close pass ∨ step.action = .next pass ∧ step.reply.events = []) →
        ∀ next ∈ later, next.action = .next pass → next.reply = {} := by
  constructor
  · rintro pass done rest rfl hwaits
    rw [List.forall_mem_append, List.forall_mem_cons] at hsteady
    obtain ⟨hdone, -, hrest⟩ := hsteady
    have hwaiting := getElem?_of_current_waiting
      ((current_after_eq_waiting_iff opening options settings done pass).2 hwaits)
    have hbefore := contentsOf_eq_replicate (reply_of_waits opening options settings (.inr hwaits))
    have hfrom := contents_of_waiting hrest hwaiting opening
    rw [settings_after hdone, trace_after] at hfrom
    rw [trail_append, contentsOf_append, hbefore, hfrom, List.append_assoc]
    rfl
  · intro pass before step later hsplit hbegun hquiet
    obtain ⟨hreader, hreply, hlater⟩ := eq_of_trail hsplit
    have hpasses : pass < step.reader.passes.length := by
      rw [hreader, length_passes_after]
      exact hbegun
    rw [hreply] at hquiet
    have hfinished := finished_of_quiet (List.getElem?_eq_getElem hpasses) hquiet
    rw [hlater]
    exact reply_of_finished hfinished opening _

/-- A trace with two events, and one with an event and a program counter that cannot be read. -/
def twoTraces : Opening := fun path =>
  if path = "u" then
    .ok ("3:system.cpu:7\n4:system.cpu:x\n".toList.map fun c => c.toNat.toUInt8)
  else twoEvents path

/-- A pass over each of two traces, advanced in turn; the first one is closed before its end. -/
def crossing : List Action :=
  [.begin, .begin, .next 0, .setTrace (some "u"), .next 1, .next 0, .next 1, .setTrace none,
    .close 0, .next 1, .next 0]

theorem contents_of_overlapping_crossing :
    (∀ action ∈ crossing, action.isSteady = true)
      ∧ contentsOf 0 (trail twoTraces (.new { trace := some "t" } {}) crossing)
        = [contentAlone twoTraces {} (some "t") 0, contentAlone twoTraces {} (some "t") 1,
          .nothing]
      ∧ contentsOf 1 (trail twoTraces (.new { trace := some "t" } {}) crossing)
        = [contentAlone twoTraces {} (some "u") 0, contentAlone twoTraces {} (some "u") 1,
          contentAlone twoTraces {} (some "u") 2]
      ∧ (contentsOf 1 (trail twoTraces (.new { trace := some "t" } {}) crossing)).map (·.events)
        = [[(7, 0)], [], []] := by
  have hsteady : ∀ action ∈ crossing, action.isSteady = true := by decide
  obtain ⟨hcontents, -⟩ := contents_of_overlapping hsteady twoTraces { trace := some "t" } {}
  have hfirst := hcontents 0 (crossing.take 2) (crossing.drop 3) rfl (by decide +kernel)
  have hsecond := hcontents 1 (crossing.take 4) (crossing.drop 5) rfl (by decide +kernel)
  exact ⟨hsteady, hfirst, hsecond, by decide +kernel⟩

end CoreTiming.Trace
