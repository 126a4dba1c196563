import CoreTiming.Proofs.Trace.Schedule
import CoreTiming.Trace.Directory

/-!
# The numbers of events

Every event bears a number. The count that it comes from belongs to the reader and not to the pass,
so it says how many events the pass itself has handed out only as long as no other pass interferes.

Results:
* `index_of_undisturbed`: from the start of a pass on, as long as no other pass starts or hands out
  events, its events are numbered from zero;
* `index_of_overlapping`: two passes that overlap do not both number their events from zero.
-/

namespace CoreTiming.Trace

open CoreTiming

variable {opening : Opening} {reader : Reader} {pass : Nat}

/-- **Numbers from zero.** Let a pass be advanced for the first time. Whatever steps follow, as long
    as none of them starts another pass or hands out events of another pass, the events of the pass
    are numbered 0, 1, 2 and so on: each bears the number of events of the pass before it. -/
theorem index_of_undisturbed {actions : List Action}
    (hwaiting : reader.passes[pass]? = some .waiting)
    (halone : ∀ step ∈ trail opening reader (.next pass :: actions), step.action ≠ .next pass →
      step.counts = false) :
    (eventsOf pass (trail opening reader (.next pass :: actions))).map (·.index)
      = List.range (eventsOf pass (trail opening reader (.next pass :: actions))).length := by
  have hnumbered := numbered_act opening reader (.next pass)
  have hpass := getElem?_act hwaiting opening (.next pass)
  rw [if_pos rfl, advanced_of_getElem? hwaiting] at hpass
  have hleft : (reader.act opening (.next pass)).1.HasLeft pass :=
    ⟨_, hpass, pass_advance_ne_waiting _ _ _ _ _⟩
  rw [trail_cons] at halone ⊢
  have hlater := index_eventsOf hleft (List.forall_mem_cons.1 halone).2
  rw [eventsOf_cons_next, List.map_append, hlater, List.length_append, List.range_eq_range']
  cases hname : nonempty? reader.options.trace with
  | some path =>
    -- the start sets the count to zero, and the later events are numbered on from there
    have hstarts : reader.starts (.next pass) = true := by
      simp [Reader.starts, current_of_getElem? hwaiting, hname]
    rw [hstarts, if_pos rfl] at hnumbered
    rw [hnumbered.index_eq, hnumbered.count_eq]
    exact List.range'_append_1
  | none =>
    -- without a trace file the pass is finished before its first event
    have hadvance : reader.advanced opening pass
        = { pass := .finished, count := reader.count, outcome := .error .noFile } := by
      rw [advanced_of_getElem? hwaiting, advance, advanceWaiting, hname]
    have hfinished : (reader.act opening (.next pass)).1.passes[pass]? = some .finished := by
      rw [getElem?_act hwaiting, if_pos rfl, hadvance]
    have hreply : (reader.act opening (.next pass)).2.events = [] := by
      rw [act_next, hadvance]
      rfl
    rw [eventsOf_of_finished hfinished, hreply]
    rfl

/-! ## A trace with two events -/

/-- A directory with a trace of two events. -/
def twoEvents : Opening :=
  openFile [("t", "1:system.cpu:1\n2:system.cpu:2\n".toList.map fun c => c.toNat.toUInt8)]

/-- A reader of that trace. -/
def twoEventsReader : Reader := { options := { trace := some "t" } }

/-- A second pass, begun while the first one is at its end. -/
def secondPass : Reader := { twoEventsReader with count := 2, passes := [.finished, .waiting] }

/-- Steps that do not interfere with the second pass. -/
def calmSteps : List Action :=
  [.next 0, .begin, .setTrace none, .next 2, .next 1, .close 2, .next 1, .next 1]

theorem index_of_undisturbed_second :
    secondPass.passes[1]? = some .waiting
      ∧ (∀ step ∈ trail twoEvents secondPass (.next 1 :: calmSteps), step.action ≠ .next 1 →
          step.counts = false)
      ∧ (eventsOf 1 (trail twoEvents secondPass (.next 1 :: calmSteps))).map (·.index)
          = [0, 1] := by
  have hwaiting : secondPass.passes[1]? = some .waiting := rfl
  have halone : ∀ step ∈ trail twoEvents secondPass (.next 1 :: calmSteps),
      step.action ≠ .next 1 → step.counts = false := by decide +kernel
  have hlength : (eventsOf 1 (trail twoEvents secondPass (.next 1 :: calmSteps))).length = 2 := by
    decide +kernel
  have hnumbers := index_of_undisturbed hwaiting halone
  rw [hlength] at hnumbers
  exact ⟨hwaiting, halone, hnumbers⟩

/-- Two passes that are advanced in turn. -/
def overlapping : List Action := [.begin, .begin, .next 0, .next 1, .next 0, .next 1]

/-- The second event of the second pass bears the number two. -/
theorem index_of_overlapping :
    (eventsOf 0 (trail twoEvents twoEventsReader overlapping)).map (·.index) = [0, 1]
      ∧ (eventsOf 1 (trail twoEvents twoEventsReader overlapping)).map (·.index) = [0, 2] := by
  decide +kernel

end CoreTiming.Trace
