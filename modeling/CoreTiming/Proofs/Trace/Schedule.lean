import CoreTiming.Trace.Reader

/-!
# Schedules of a reader

A reader is used step by step: passes are begun, advanced and closed in any order, whole passes are
run at once, and options and settings change in between (`Action`). The trail of a schedule lists
its steps, each with the reader before it and with what it hands out.

Results:
* `numbered_act`: the law of the count. A step that starts a pass counts from zero and any other
  from the present count; the events that it hands out are numbered from there, and raise the count
  by their number;
* `hasLeft_act`, `finished_act`: a pass that was advanced never waits again, and a finished one
  stays finished;
* `index_eventsOf`: while no other pass starts or hands out events, the events of a pass are
  numbered on from the count.
-/

namespace CoreTiming.Trace

open CoreTiming

/-! ## Steps -/

/-- A step on a reader. -/
inductive Action where
  /-- Begins a pass. -/
  | begin
  /-- Advances the pass of a number. -/
  | next (pass : Nat)
  /-- Closes the pass of a number. -/
  | close (pass : Nat)
  /-- Runs a new pass to its end. -/
  | readAll
  /-- Sets the trace file. -/
  | setTrace (name : Option String)
  /-- Sets the time units of one tick. -/
  | setScale (scale : Int)
  /-- Sets the marker of the core. -/
  | setMarker (marker : String)
  deriving DecidableEq

/-- What a step hands out. -/
structure Reply where
  events : List Event := []
  records : List Log.Record := []
  fault : Option Fault := none
  deriving DecidableEq

/-- The fault of an outcome, if it is one. -/
def faultOf {α : Type} : Except Fault α → Option Fault
  | .error e => some e
  | .ok _ => none

/-- The event of an outcome, if there is one. -/
def eventsIn : Except Fault (Option Event) → List Event
  | .error _ => []
  | .ok event => event.toList

/-- What an advance hands out. -/
def Advance.reply (step : Advance) : Reply where
  events := eventsIn step.outcome
  records := step.records
  fault := faultOf step.outcome

/-- What a pass run to its end has handed out. -/
def Drained.reply (drained : Drained) : Reply where
  events := drained.events
  records := drained.records
  fault := faultOf drained.outcome

namespace Reader

/-- The pass of a number; under another number there is one that is finished. -/
def current (reader : Reader) (pass : Nat) : Pass := reader.passes[pass]?.getD .finished

/-- What the advance of the pass of a number brings. -/
def advanced (opening : Opening) (reader : Reader) (pass : Nat) : Advance :=
  advance opening reader.options reader.settings reader.count (reader.current pass)

/-- One step: the reader after it, and what it hands out. -/
def act (opening : Opening) (reader : Reader) : Action → Reader × Reply
  | .begin => (reader.begin.2, {})
  | .next pass =>
    let (after, records, outcome) := reader.next opening pass
    (after, { events := eventsIn outcome, records, fault := faultOf outcome })
  | .close pass => (reader.close pass, {})
  | .readAll =>
    let (after, drained) := reader.readAll opening
    (after, drained.reply)
  | .setTrace name => (reader.setTrace name, {})
  | .setScale scale => (reader.setScale scale, {})
  | .setMarker marker => (reader.setMarker marker, {})

/-- Whether a step starts a pass: a trace file is set, and a pass is advanced for the first time or
    a new one is run to its end. -/
def starts (reader : Reader) : Action → Bool
  | .next pass => decide (reader.current pass = .waiting) && (nonempty? reader.options.trace).isSome
  | .readAll => (nonempty? reader.options.trace).isSome
  | _ => false

end Reader

/-- A step of a schedule. -/
structure Step where
  reader : Reader
  action : Action
  reply : Reply

/-- The steps of a schedule. -/
def trail (opening : Opening) : Reader → List Action → List Step
  | _, [] => []
  | reader, action :: rest =>
    ⟨reader, action, (reader.act opening action).2⟩
      :: trail opening (reader.act opening action).1 rest

/-- The events of the pass of a number. -/
def eventsOf (pass : Nat) (steps : List Step) : List Event :=
  (steps.filter (·.action = .next pass)).flatMap (·.reply.events)

/-- Whether a step starts a pass or hands out events. -/
def Step.counts (step : Step) : Bool :=
  step.reader.starts step.action || !step.reply.events.isEmpty

variable {opening : Opening} {reader : Reader} {pass : Nat}

theorem act_next (opening : Opening) (reader : Reader) (pass : Nat) :
    reader.act opening (.next pass)
      = ({ reader with
            count := (reader.advanced opening pass).count
            passes := reader.passes.set pass (reader.advanced opening pass).pass },
          (reader.advanced opening pass).reply) := rfl

theorem trail_cons (opening : Opening) (reader : Reader) (action : Action) (rest : List Action) :
    trail opening reader (action :: rest)
      = ⟨reader, action, (reader.act opening action).2⟩
          :: trail opening (reader.act opening action).1 rest := rfl

theorem eventsOf_cons_next (reader : Reader) (pass : Nat) (reply : Reply) (steps : List Step) :
    eventsOf pass (⟨reader, .next pass, reply⟩ :: steps) = reply.events ++ eventsOf pass steps := by
  simp [eventsOf]

theorem eventsOf_cons_of_ne {action : Action} (h : action ≠ .next pass) (reader : Reader)
    (reply : Reply) (steps : List Step) :
    eventsOf pass (⟨reader, action, reply⟩ :: steps) = eventsOf pass steps := by
  simp [eventsOf, h]

theorem current_of_getElem? {state : Pass} (h : reader.passes[pass]? = some state) :
    reader.current pass = state := by
  rw [Reader.current, h, Option.getD_some]

theorem advanced_of_getElem? {state : Pass} (h : reader.passes[pass]? = some state)
    (opening : Opening) :
    reader.advanced opening pass
      = advance opening reader.options reader.settings reader.count state := by
  rw [Reader.advanced, current_of_getElem? h]

/-! ## The count -/

/-- Events are numbered from a base on, and the count goes up by their number. -/
structure Numbered (base : Nat) (events : List Event) (count : Nat) : Prop where
  index_eq : events.map (·.index) = List.range' base events.length
  count_eq : count = base + events.length

theorem numbered_nil (base : Nat) : Numbered base [] base := ⟨rfl, rfl⟩

theorem numbered_advanceReading (settings : Settings) (count : Nat) (path : String) (number : Nat)
    (rest : List (List Char)) :
    Numbered count (advanceReading settings count path number rest).reply.events
      (advanceReading settings count path number rest).count := by
  unfold advanceReading
  cases seek settings path number rest with
  | event pc tick number rest => exact ⟨rfl, rfl⟩
  | fault reason => exact numbered_nil count
  | exhausted => exact numbered_nil count

theorem numbered_drainLines (settings : Settings) (path : String) (count number : Nat)
    (rest : List (List Char)) :
    Numbered count (drainLines settings path count number rest).events
      (drainLines settings path count number rest).count := by
  fun_induction drainLines settings path count number rest with
  | case1 count number => exact numbered_nil count
  | case2 count number line rest e hread => exact numbered_nil count
  | case3 count number line rest hread ih => exact ih
  | case4 count number line rest pc tick hread later ih =>
    constructor
    · simp only [List.map_cons, List.length_cons, List.range'_succ, later, ih.index_eq]
    · simp only [later, ih.count_eq, List.length_cons]
      omega

/-- The law of the count. -/
theorem numbered_act (opening : Opening) (reader : Reader) (action : Action) :
    Numbered (if reader.starts action then 0 else reader.count)
      (reader.act opening action).2.events (reader.act opening action).1.count := by
  cases action with
  | next pass =>
    have hstarts : reader.starts (.next pass) = (decide (reader.current pass = .waiting)
        && (nonempty? reader.options.trace).isSome) := rfl
    rw [act_next, hstarts, Reader.advanced]
    cases reader.current pass with
    | waiting =>
      rw [advance, advanceWaiting]
      cases nonempty? reader.options.trace with
      | none => exact numbered_nil reader.count
      | some path =>
        simp only
        cases openLines opening path with
        | error e => exact numbered_nil 0
        | ok rest => exact numbered_advanceReading reader.settings 0 path 0 rest
    | reading path number rest =>
      exact numbered_advanceReading reader.settings reader.count path number rest
    | finished => exact numbered_nil reader.count
  | readAll =>
    have hstarts : reader.starts .readAll = (nonempty? reader.options.trace).isSome := rfl
    have hact : reader.act opening .readAll
        = ({ reader with
              count := (drain opening reader.options reader.settings reader.count).count },
            (drain opening reader.options reader.settings reader.count).reply) := rfl
    rw [hact, hstarts, drain]
    cases nonempty? reader.options.trace with
    | none => exact numbered_nil reader.count
    | some path =>
      simp only
      cases openLines opening path with
      | error e => exact numbered_nil 0
      | ok rest => exact numbered_drainLines reader.settings path 0 0 rest
  | begin => exact numbered_nil reader.count
  | close pass => exact numbered_nil reader.count
  | setTrace name => exact numbered_nil reader.count
  | setScale scale => exact numbered_nil reader.count
  | setMarker marker => exact numbered_nil reader.count

/-! ## The passes -/

theorem pass_advance_ne_waiting (opening : Opening) (options : RunOptions) (settings : Settings)
    (count : Nat) (state : Pass) :
    (advance opening options settings count state).pass ≠ .waiting := by
  have hreading : ∀ count path number rest,
      (advanceReading settings count path number rest).pass ≠ .waiting := by
    intro count path number rest
    unfold advanceReading
    cases seek settings path number rest <;> simp
  cases state with
  | waiting =>
    simp only [advance, advanceWaiting]
    split
    · simp
    · split
      · simp
      · exact hreading _ _ _ _
  | reading path number rest => exact hreading count path number rest
  | finished => simp

theorem getElem?_set_passes {state : Pass} (h : reader.passes[pass]? = some state) (other : Nat)
    (next : Pass) :
    (reader.passes.set other next)[pass]? = some (if other = pass then next else state) := by
  obtain ⟨hlt, -⟩ := List.getElem?_eq_some_iff.1 h
  by_cases hother : other = pass
  · rw [hother, List.getElem?_set_self hlt, if_pos rfl]
  · rw [List.getElem?_set_ne hother, h, if_neg hother]

/-- What a step leaves of a pass: the pass as it was, or advanced, or closed. -/
theorem getElem?_act {state : Pass} (h : reader.passes[pass]? = some state) (opening : Opening)
    (action : Action) :
    (reader.act opening action).1.passes[pass]?
      = some (if action = .next pass then (reader.advanced opening pass).pass
          else if action = .close pass then .finished else state) := by
  cases action with
  | begin =>
    obtain ⟨hlt, -⟩ := List.getElem?_eq_some_iff.1 h
    simp only [Reader.act, Reader.begin]
    rw [List.getElem?_append_left hlt, h]
    simp
  | next other =>
    rw [act_next, getElem?_set_passes h]
    by_cases hother : other = pass
    · subst hother
      simp
    · simp [hother]
  | close other => simp [Reader.act, Reader.close, getElem?_set_passes h]
  | readAll => simpa [Reader.act, Reader.readAll] using h
  | setTrace name => simpa [Reader.act, Reader.setTrace] using h
  | setScale scale => simpa [Reader.act, Reader.setScale] using h
  | setMarker marker => simpa [Reader.act, Reader.setMarker] using h

/-- Whether the pass of a number was advanced or closed. -/
def Reader.HasLeft (reader : Reader) (pass : Nat) : Prop :=
  ∃ state, reader.passes[pass]? = some state ∧ state ≠ .waiting

/-- A pass that was advanced or closed never waits again. -/
theorem hasLeft_act (h : reader.HasLeft pass) (opening : Opening) (action : Action) :
    (reader.act opening action).1.HasLeft pass := by
  obtain ⟨state, hstate, hleft⟩ := h
  refine ⟨_, getElem?_act hstate opening action, ?_⟩
  split
  · exact pass_advance_ne_waiting opening _ _ _ _
  · split
    · exact Pass.noConfusion
    · exact hleft

theorem finished_act (h : reader.passes[pass]? = some .finished) (opening : Opening)
    (action : Action) : (reader.act opening action).1.passes[pass]? = some .finished := by
  rw [getElem?_act h, advanced_of_getElem? h]
  simp

theorem act_next_finished (h : reader.passes[pass]? = some .finished) (opening : Opening) :
    reader.act opening (.next pass) = (reader, {}) := by
  have hset : reader.passes.set pass .finished = reader.passes := by
    obtain ⟨hlt, hget⟩ := List.getElem?_eq_some_iff.1 h
    rw [← hget, List.set_getElem_self]
  rw [act_next, advanced_of_getElem? h, advance_finished]
  simp only [hset]
  rfl

theorem eventsOf_of_finished (h : reader.passes[pass]? = some .finished) (opening : Opening)
    (actions : List Action) : eventsOf pass (trail opening reader actions) = [] := by
  induction actions generalizing reader with
  | nil => rfl
  | cons action rest ih =>
    have hrest := ih (finished_act h opening action)
    by_cases haction : action = .next pass
    · subst haction
      rw [trail_cons, eventsOf_cons_next, hrest, act_next_finished h]
      rfl
    · rw [trail_cons, eventsOf_cons_of_ne haction, hrest]

/-! ## Undisturbed passes -/

/-- While no other pass starts or hands out events, the events of a pass that was advanced are
    numbered on from the count. -/
theorem index_eventsOf {actions : List Action} (h : reader.HasLeft pass)
    (halone : ∀ step ∈ trail opening reader actions, step.action ≠ .next pass →
      step.counts = false) :
    (eventsOf pass (trail opening reader actions)).map (·.index)
      = List.range' reader.count (eventsOf pass (trail opening reader actions)).length := by
  induction actions generalizing reader with
  | nil => rfl
  | cons action rest ih =>
    have hnumbered := numbered_act opening reader action
    rw [trail_cons] at halone ⊢
    obtain ⟨hstep, hrest⟩ := List.forall_mem_cons.1 halone
    have hlater := ih (hasLeft_act h opening action) hrest
    by_cases haction : action = .next pass
    · subst haction
      -- the pass has started before, so its events are numbered from the count
      have hbase : reader.starts (.next pass) = false := by
        obtain ⟨state, hstate, hleft⟩ := h
        simp [Reader.starts, current_of_getElem? hstate, hleft]
      rw [hbase] at hnumbered
      obtain ⟨hindex, hcount⟩ := hnumbered
      rw [eventsOf_cons_next, List.map_append, hindex, hlater, hcount, List.length_append]
      exact List.range'_append_1
    · -- any other step leaves the count as it is
      have hquiet := hstep haction
      simp only [Step.counts, Bool.or_eq_false_iff, Bool.not_eq_false', List.isEmpty_iff] at hquiet
      obtain ⟨hbase, hevents⟩ := hquiet
      have hcount := hnumbered.count_eq
      rw [hbase, hevents] at hcount
      rw [eventsOf_cons_of_ne haction, hlater, hcount]
      rfl

end CoreTiming.Trace
