import Mathlib.Data.List.DropRight
import CoreTiming.Proofs.Trace.History
import CoreTiming.Proofs.Trace.Numbering

/-!
# The meaning of the count

The passes of a reader share one count. Seen from outside, a schedule is a row of moments: a pass
starts, or an event is handed out (`moments`). The count is the number of events since the last
start, whatever steps there were, and each event bears the count from just before it.

Results:
* `starts_iff`: a step starts a pass exactly when a trace file is set and the step advances a pass
  that waits, or runs a new one to its end;
* `indexed_append`: events that are numbered on from the count keep every index right;
* `count_eq_since`: the count and the indexes after any schedule, and what the steps that hand out
  no event do to the count.
-/

namespace CoreTiming.Trace

open CoreTiming

/-! ## Moments -/

/-- What matters to the count. -/
inductive Moment where
  /-- A pass starts. -/
  | start
  /-- An event is handed out. -/
  | event (event : Event)
  deriving DecidableEq

/-- Whether a moment hands out an event. -/
def Moment.isEvent : Moment → Bool
  | .start => false
  | .event _ => true

/-- Whether a step starts a pass, by the steps done before: with a trace file set, it is the first
    advance of a pass, or a whole pass. -/
def Starts (done : List Action) (step : Step) : Prop :=
  match step.action with
  | .next pass => Waits done pass ∧ nonempty? step.reader.options.trace ≠ none
  | .readAll => nonempty? step.reader.options.trace ≠ none
  | _ => False

instance (done : List Action) (step : Step) : Decidable (Starts done step) := by
  unfold Starts
  split <;> infer_instance

/-- The moments of a step, by the steps done before. -/
def momentsOf (done : List Action) (step : Step) : List Moment :=
  (if Starts done step then [.start] else []) ++ step.reply.events.map .event

/-- The moments of steps, by the steps done before. -/
def momentsFrom (done : List Action) : List Step → List Moment
  | [] => []
  | step :: rest => momentsOf done step ++ momentsFrom (done ++ [step.action]) rest

/-- The moments of a schedule. -/
def moments (steps : List Step) : List Moment := momentsFrom [] steps

/-- The number of events since the last start, or of all events where there was none. -/
def since (moments : List Moment) : Nat := (moments.rtakeWhile Moment.isEvent).length

/-- Each event bears the number of events since the last start before it. -/
def Indexed (moments : List Moment) : Prop :=
  ∀ before event later, moments = before ++ .event event :: later → event.index = since before

variable {opening : Opening} {done : List Action} {row : List Moment}

theorem momentsFrom_append (done : List Action) (steps later : List Step) :
    momentsFrom done (steps ++ later)
      = momentsFrom done steps ++ momentsFrom (done ++ steps.map (·.action)) later := by
  induction steps generalizing done with
  | nil => simp [momentsFrom]
  | cons step steps ih => simp [momentsFrom, ih]

theorem moments_concat (steps : List Step) (step : Step) :
    moments (steps ++ [step]) = moments steps ++ momentsOf (steps.map (·.action)) step := by
  simp [moments, momentsFrom_append, momentsFrom]

/-! ## Events since the last start -/

@[simp] theorem since_concat_start (row : List Moment) : since (row ++ [.start]) = 0 := by
  rw [since, List.rtakeWhile_concat_neg _ _ _ (by simp [Moment.isEvent])]
  rfl

@[simp] theorem since_concat_event (row : List Moment) (event : Event) :
    since (row ++ [.event event]) = since row + 1 := by
  rw [since, List.rtakeWhile_concat_pos _ _ _ rfl, List.length_append]
  rfl

theorem indexed_nil : Indexed [] := by
  intro before event later h
  simp at h

/-- One moment more keeps the indexes right, if it is a start or an event that bears the number
    of events since the last start. -/
theorem Indexed.concat (h : Indexed row) {moment : Moment}
    (hmoment : ∀ event, moment = .event event → event.index = since row) :
    Indexed (row ++ [moment]) := by
  intro before event later hsplit
  rcases concat_eq_append_cons hsplit with ⟨rfl, hlast, -⟩ | ⟨later, -, hrow⟩
  · exact hmoment event hlast
  · exact h before event later hrow

/-- Events that are numbered on from the count keep every index right. -/
theorem indexed_append {events : List Event} {count : Nat} (h : Indexed row)
    (hnumbered : Numbered (since row) events count) :
    Indexed (row ++ events.map .event) ∧ since (row ++ events.map .event) = count := by
  induction events generalizing row with
  | nil => simpa [hnumbered.count_eq] using h
  | cons event events ih =>
    obtain ⟨hindex, hcount⟩ := hnumbered
    rw [List.map_cons, List.length_cons, List.range'_succ] at hindex
    obtain ⟨hfirst, hrest⟩ := List.cons.inj hindex
    have hlater : Numbered (since (row ++ [.event event])) events count := by
      rw [since_concat_event]
      refine ⟨hrest, ?_⟩
      rw [hcount, List.length_cons]
      omega
    have hevent : Indexed (row ++ [.event event]) := h.concat (by
      rintro _ ⟨⟩
      exact hfirst)
    simpa using ih hevent hlater

/-! ## The count of a reader -/

section Reached

variable {options : RunOptions} {settings : Settings} {reader : Reader}

/-- A step starts a pass exactly when a trace file is set and the step advances a pass that waits,
    or runs a new one to its end. -/
theorem starts_iff (h : reader = (Reader.new options settings).after opening done) (action : Action)
    (reply : Reply) : Starts done ⟨reader, action, reply⟩ ↔ reader.starts action = true := by
  have hwaits := current_after_eq_waiting_iff opening options settings done
  rw [← h] at hwaits
  cases action with
  | next pass => simp [Starts, Reader.starts, hwaits, Option.isSome_iff_ne_none]
  | readAll => simp [Starts, Reader.starts, Option.isSome_iff_ne_none]
  | _ => simp [Starts, Reader.starts]

theorem numbered_step (h : reader = (Reader.new options settings).after opening done)
    (action : Action) :
    Numbered
      (if Starts done ⟨reader, action, (reader.act opening action).2⟩ then 0 else reader.count)
      (reader.act opening action).2.events (reader.act opening action).1.count := by
  simp only [starts_iff h]
  exact numbered_act opening reader action

/-- What a step leaves of the count, by the steps done before, where it fails or only begins or
    closes a pass. -/
structure Leaves (opening : Opening) (done : List Action) (step : Step) (count : Nat) : Prop where
  /-- Beginning a pass keeps the count. -/
  begin : step.action = .begin → count = step.reader.count
  /-- Closing a pass keeps it. -/
  close : ∀ pass, step.action = .close pass → count = step.reader.count
  /-- A first advance without a trace file keeps it. -/
  unset : ∀ pass, step.action = .next pass → Waits done pass →
    nonempty? step.reader.options.trace = none →
      step.reply.fault = some .noFile ∧ count = step.reader.count
  /-- A first advance whose trace file does not open sets it to zero. -/
  unopened : ∀ pass path reason, step.action = .next pass → Waits done pass →
    nonempty? step.reader.options.trace = some path → openLines opening path = .error reason →
      step.reply.fault = some (.unopened reason) ∧ count = 0
  /-- A fault, such as a malformed line or a scale of zero, adds nothing to the events in front of
      it, of which an advance has none. -/
  fault : ∀ fault, step.reply.fault = some fault →
    count = (if Starts done step then 0 else step.reader.count) + step.reply.events.length
      ∧ ∀ pass, step.action = .next pass → step.reply.events = []

theorem events_act_next_of_fault {pass : Nat} {fault : Fault}
    (h : (reader.act opening (.next pass)).2.fault = some fault) :
    (reader.act opening (.next pass)).2.events = [] := by
  rw [act_next] at h ⊢
  simp only [Advance.reply] at h ⊢
  cases houtcome : (reader.advanced opening pass).outcome with
  | error e => rfl
  | ok event => simp [houtcome, faultOf] at h

theorem leaves_act (h : reader = (Reader.new options settings).after opening done)
    (action : Action) :
    Leaves opening done ⟨reader, action, (reader.act opening action).2⟩
      (reader.act opening action).1.count := by
  have hwaiting : ∀ pass, Waits done pass → reader.current pass = .waiting := fun pass => by
    rw [h, current_after_eq_waiting_iff]
    exact id
  constructor
  case begin => rintro ⟨⟩; rfl
  case close => rintro pass ⟨⟩; rfl
  case unset =>
    rintro pass ⟨⟩ hwaits hunset
    have hadvanced : reader.advanced opening pass
        = { pass := .finished, count := reader.count, outcome := .error .noFile } := by
      rw [Reader.advanced, hwaiting pass hwaits, advance, advanceWaiting, hunset]
    rw [act_next, hadvanced]
    exact ⟨rfl, rfl⟩
  case unopened =>
    rintro pass path reason ⟨⟩ hwaits hset hopen
    have hadvanced : reader.advanced opening pass
        = { pass := .finished, count := 0, outcome := .error (.unopened reason) } := by
      rw [Reader.advanced, hwaiting pass hwaits, advance, advanceWaiting, hset]
      simp only [hopen]
    rw [act_next, hadvanced]
    exact ⟨rfl, rfl⟩
  case fault =>
    intro fault hfault
    refine ⟨(numbered_step h action).count_eq, ?_⟩
    rintro pass ⟨⟩
    exact events_act_next_of_fault hfault

theorem indexed_momentsOf (h : reader = (Reader.new options settings).after opening done)
    (hindexed : Indexed row) (hcount : reader.count = since row) (action : Action) :
    Indexed (row ++ momentsOf done ⟨reader, action, (reader.act opening action).2⟩)
      ∧ since (row ++ momentsOf done ⟨reader, action, (reader.act opening action).2⟩)
        = (reader.act opening action).1.count := by
  have hnumbered := numbered_step h action
  rw [momentsOf]
  by_cases hstarts : Starts done ⟨reader, action, (reader.act opening action).2⟩
  · rw [if_pos hstarts] at hnumbered ⊢
    rw [← since_concat_start row] at hnumbered
    rw [← List.append_assoc]
    exact indexed_append (hindexed.concat (by rintro event ⟨⟩)) hnumbered
  · rw [if_neg hstarts] at hnumbered ⊢
    rw [hcount] at hnumbered
    exact indexed_append hindexed hnumbered

end Reached

/-- After any schedule every index is right, and the count is the number of events since the last
    start. -/
theorem indexed_moments (opening : Opening) (options : RunOptions) (settings : Settings)
    (actions : List Action) :
    Indexed (moments (trail opening (.new options settings) actions))
      ∧ since (moments (trail opening (.new options settings) actions))
        = ((Reader.new options settings).after opening actions).count := by
  induction actions using List.reverseRecOn with
  | nil => exact ⟨indexed_nil, rfl⟩
  | append_singleton done action ih =>
    rw [trail_append, trail_cons, trail_nil, moments_concat, map_action_trail, after_concat]
    exact indexed_momentsOf rfl ih.1 ih.2.symm action

/-- **The meaning of the count.** Let a reader be used in any way from its making on. Its count is
    the number of events that all its passes have handed out since the last start of a pass, or
    since the making where no pass has started. Each event bears the number of such events just
    before it. A step that begins or closes a pass keeps the count, and so does a first advance
    without a trace file; a first advance whose trace file does not open sets it to zero, and no
    fault of a line changes it. -/
theorem count_eq_since (opening : Opening) (options : RunOptions) (settings : Settings)
    (actions : List Action) :
    let steps := trail opening (.new options settings) actions
    ((Reader.new options settings).after opening actions).count = since (moments steps)
      ∧ (∀ before event later, moments steps = before ++ .event event :: later →
          event.index = since before)
      ∧ ∀ before step later, steps = before ++ step :: later →
          Leaves opening (before.map (·.action)) step
            (step.reader.act opening step.action).1.count := by
  intro steps
  obtain ⟨hindexed, hsince⟩ := indexed_moments opening options settings actions
  refine ⟨hsince.symm, hindexed, ?_⟩
  intro before step later hsplit
  obtain ⟨hreader, hreply, -⟩ := eq_of_trail hsplit
  have hleaves := leaves_act hreader step.action
  rw [← hreply] at hleaves
  exact hleaves

/-- Passes that start one after the other: two over the same file, one over a file that is missing,
    and one without a file. -/
def restarts : List Action :=
  [.begin, .begin, .next 0, .next 1, .next 0, .setTrace (some "u"), .begin, .next 2, .next 1,
    .setTrace none, .begin, .next 3]

theorem count_eq_since_restarted :
    moments (trail twoEvents (.new { trace := some "t" } {}) restarts)
        = [.start, .event ⟨1, 0, 0⟩, .start, .event ⟨1, 0, 0⟩, .event ⟨2, 0, 1⟩, .start,
          .event ⟨2, 0, 0⟩]
      ∧ ((Reader.new { trace := some "t" } {}).after twoEvents restarts).count = 1
      ∧ ((Reader.new { trace := some "t" } {}).after twoEvents (restarts.take 8)).count = 0 := by
  obtain ⟨hcount, -, hleaves⟩ := count_eq_since twoEvents { trace := some "t" } {} restarts
  have hmoments : moments (trail twoEvents (.new { trace := some "t" } {}) restarts)
      = [.start, .event ⟨1, 0, 0⟩, .start, .event ⟨1, 0, 0⟩, .event ⟨2, 0, 1⟩, .start,
        .event ⟨2, 0, 0⟩] := by decide +kernel
  rw [hmoments] at hcount
  -- the eighth step is the first advance of the pass whose file is missing
  have hsplit := trail_append twoEvents (.new { trace := some "t" } {}) (restarts.take 7)
    (restarts.drop 7)
  have hunopened := (hleaves _ _ _ hsplit).unopened 2 "u" (.missing "u") rfl
    (by rw [map_action_trail]; decide +kernel) (by decide +kernel) rfl
  exact ⟨hmoments, hcount, hunopened.2⟩

end CoreTiming.Trace
