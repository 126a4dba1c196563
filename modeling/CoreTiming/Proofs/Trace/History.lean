import Mathlib.Data.List.Induction
import CoreTiming.Proofs.Trace.Schedule

/-!
# Readers by their history

What a reader is in after some steps can be told from the steps themselves, without its state:
which of its passes still wait (`Waits`), and which trace file is set (`traceAfter`).

Results:
* `trail_append`: the steps of a schedule and those that follow on it;
* `current_after_eq_waiting_iff`: a pass waits exactly when it was begun, and neither advanced nor
  closed since;
* `trace_after`: the trace file that is set is the one that was set last.
-/

namespace CoreTiming.Trace

open CoreTiming

/-! ## Schedules end to end -/

/-- A list with one more entry, split at an entry: at the new one, or before it. -/
theorem concat_eq_append_cons {α : Type} {xs before later : List α} {x y : α}
    (h : xs ++ [x] = before ++ y :: later) :
    (xs = before ∧ x = y ∧ later = [])
      ∨ ∃ rest, later = rest ++ [x] ∧ xs = before ++ y :: rest := by
  rcases List.eq_nil_or_concat later with rfl | ⟨rest, last, rfl⟩
  · obtain ⟨hxs, hx⟩ := List.append_inj' h rfl
    exact .inl ⟨hxs, List.singleton_inj.1 hx, rfl⟩
  · rw [List.concat_eq_append, ← List.cons_append, ← List.append_assoc] at h
    obtain ⟨hxs, hx⟩ := List.append_inj' h rfl
    obtain rfl := List.singleton_inj.1 hx
    exact .inr ⟨rest, List.concat_eq_append, hxs⟩

/-- A reader without passes, as it is made. -/
def Reader.new (options : RunOptions) (settings : Settings) : Reader := { options, settings }

/-- The reader after some steps. -/
def Reader.after (opening : Opening) (reader : Reader) (actions : List Action) : Reader :=
  actions.foldl (fun reader action => (reader.act opening action).1) reader

variable {opening : Opening} {reader : Reader} {pass : Nat} {done : List Action} {action : Action}

@[simp] theorem after_nil (opening : Opening) (reader : Reader) :
    reader.after opening [] = reader := rfl

theorem after_cons (opening : Opening) (reader : Reader) (action : Action) (rest : List Action) :
    reader.after opening (action :: rest) = (reader.act opening action).1.after opening rest := rfl

theorem after_concat (opening : Opening) (reader : Reader) (done : List Action)
    (action : Action) :
    reader.after opening (done ++ [action])
      = ((reader.after opening done).act opening action).1 := by
  simp [Reader.after]

@[simp] theorem trail_nil (opening : Opening) (reader : Reader) :
    trail opening reader [] = [] := rfl

theorem trail_append (opening : Opening) (reader : Reader) (done rest : List Action) :
    trail opening reader (done ++ rest)
      = trail opening reader done ++ trail opening (reader.after opening done) rest := by
  induction done generalizing reader with
  | nil => rfl
  | cons action done ih =>
    rw [List.cons_append, trail_cons, trail_cons, ih, after_cons]
    rfl

@[simp] theorem map_action_trail (opening : Opening) (reader : Reader) (actions : List Action) :
    (trail opening reader actions).map (·.action) = actions := by
  induction actions generalizing reader with
  | nil => rfl
  | cons action rest ih => rw [trail_cons, List.map_cons, ih]

/-- A step of a schedule starts from where the steps before it have led, and the later ones start
    from where it leads. -/
theorem eq_of_trail {actions : List Action} {before later : List Step} {step : Step}
    (h : trail opening reader actions = before ++ step :: later) :
    step.reader = reader.after opening (before.map (·.action))
      ∧ step.reply = (step.reader.act opening step.action).2
      ∧ later = trail opening (step.reader.act opening step.action).1 (later.map (·.action)) := by
  induction actions generalizing reader before with
  | nil => simp at h
  | cons action rest ih =>
    rw [trail_cons] at h
    cases before with
    | nil =>
      obtain ⟨rfl, rfl⟩ := List.cons.inj h
      exact ⟨rfl, rfl, by rw [map_action_trail]⟩
    | cons first before =>
      obtain ⟨hfirst, hrest⟩ := List.cons.inj h
      rw [← hfirst, List.map_cons, after_cons]
      exact ih hrest

/-! ## Passes that wait -/

/-- The pass of a number was begun, and neither advanced nor closed since. -/
def Waits (done : List Action) (pass : Nat) : Prop :=
  ∃ earlier later, done = earlier ++ .begin :: later ∧ earlier.count .begin = pass
    ∧ .next pass ∉ later ∧ .close pass ∉ later

theorem not_waits_nil (pass : Nat) : ¬ Waits [] pass := by
  rintro ⟨earlier, later, hsplit, -⟩
  simp at hsplit

/-- A pass waits after a step that begins it, and after any other step as before, unless the step
    advances or closes it. -/
theorem waits_concat : Waits (done ++ [action]) pass ↔
    (action = .begin ∧ done.count .begin = pass)
      ∨ (Waits done pass ∧ action ≠ .next pass ∧ action ≠ .close pass) := by
  constructor
  · rintro ⟨earlier, later, hsplit, hcount, hnext, hclose⟩
    rcases concat_eq_append_cons hsplit with ⟨rfl, hlast, -⟩ | ⟨later, rfl, rfl⟩
    · exact .inl ⟨hlast, hcount⟩
    · simp only [List.mem_append, List.mem_singleton, not_or] at hnext hclose
      exact .inr ⟨⟨earlier, later, rfl, hcount, hnext.1, hclose.1⟩, Ne.symm hnext.2,
        Ne.symm hclose.2⟩
  · rintro (⟨rfl, hcount⟩ | ⟨⟨earlier, later, rfl, hcount, hnext, hclose⟩, hother, hopen⟩)
    · exact ⟨done, [], rfl, hcount, by simp, by simp⟩
    · refine ⟨earlier, later ++ [action], by simp, hcount, ?_, ?_⟩
      · simpa [hnext] using Ne.symm hother
      · simpa [hclose] using Ne.symm hopen

theorem length_passes_act (opening : Opening) (reader : Reader) (action : Action) :
    (reader.act opening action).1.passes.length
      = reader.passes.length + [action].count .begin := by
  cases action <;>
    simp [Reader.act, Reader.begin, Reader.next, Reader.close, Reader.readAll, Reader.setTrace,
      Reader.setScale, Reader.setMarker]

theorem length_passes_after (opening : Opening) (options : RunOptions) (settings : Settings)
    (done : List Action) :
    ((Reader.new options settings).after opening done).passes.length = done.count .begin := by
  induction done using List.reverseRecOn with
  | nil => rfl
  | append_singleton done action ih =>
    rw [after_concat, length_passes_act, ih, List.count_append]

theorem getElem?_of_current_waiting (h : reader.current pass = .waiting) :
    reader.passes[pass]? = some .waiting := by
  unfold Reader.current at h
  cases hpass : reader.passes[pass]? with
  | none => simp [hpass] at h
  | some state => simpa [hpass] using h

theorem current_act (opening : Opening) (reader : Reader) (action : Action) :
    (reader.act opening action).1.current pass = .waiting ↔
      (action = .begin ∧ reader.passes.length = pass)
        ∨ (reader.current pass = .waiting ∧ action ≠ .next pass ∧ action ≠ .close pass) := by
  cases hpass : reader.passes[pass]? with
  | some state =>
    obtain ⟨hlt, -⟩ := List.getElem?_eq_some_iff.1 hpass
    rw [current_of_getElem? (getElem?_act hpass opening action), current_of_getElem? hpass]
    by_cases hnext : action = .next pass
    · simp [hnext, Reader.advanced, pass_advance_ne_waiting]
    · by_cases hclose : action = .close pass
      · simp [hclose]
      · simp [hnext, hclose, Nat.ne_of_gt hlt]
  | none =>
    have hle := List.getElem?_eq_none_iff.1 hpass
    have hcurrent : reader.current pass = .finished := by simp [Reader.current, hpass]
    by_cases hbegin : action = .begin
    · subst hbegin
      have hpasses : (reader.act opening .begin).1.passes = reader.passes ++ [.waiting] := rfl
      rw [Reader.current, hpasses, List.getElem?_append_right hle, hcurrent]
      rcases Nat.eq_or_lt_of_le hle with hlast | hbeyond
      · simp [hlast]
      · simp [Nat.ne_of_lt hbeyond, Nat.sub_ne_zero_of_lt hbeyond]
    · -- no pass is added, so there is still none of this number
      have hlength : (reader.act opening action).1.passes.length = reader.passes.length := by
        simp [length_passes_act, hbegin]
      have hnone : (reader.act opening action).1.passes[pass]? = none :=
        List.getElem?_eq_none (by omega)
      simp [Reader.current, hnone, hpass, hbegin]

/-- A pass waits exactly when it was begun, and neither advanced nor closed since. -/
theorem current_after_eq_waiting_iff (opening : Opening) (options : RunOptions)
    (settings : Settings) (done : List Action) (pass : Nat) :
    ((Reader.new options settings).after opening done).current pass = .waiting
      ↔ Waits done pass := by
  induction done using List.reverseRecOn with
  | nil => simpa [Reader.current, Reader.new] using not_waits_nil pass
  | append_singleton done action ih =>
    rw [after_concat, current_act, length_passes_after, ih, waits_concat]

instance (done : List Action) (pass : Nat) : Decidable (Waits done pass) :=
  decidable_of_iff _ (current_after_eq_waiting_iff (fun _ => .ok []) {} {} done pass)

/-! ## The trace file -/

/-- What a step sets the trace file to, if it does. -/
def Action.traceSet? : Action → Option (Option String)
  | .setTrace name => some name
  | _ => none

/-- The trace file that was set last, or else the initial one. -/
def traceAfter (initial : Option String) (done : List Action) : Option String :=
  (done.filterMap Action.traceSet?).getLast?.getD initial

theorem trace_act (opening : Opening) (reader : Reader) (action : Action) :
    (reader.act opening action).1.options.trace
      = action.traceSet?.getD reader.options.trace := by
  cases action <;> rfl

theorem trace_after (opening : Opening) (options : RunOptions) (settings : Settings)
    (done : List Action) :
    ((Reader.new options settings).after opening done).options.trace
      = traceAfter options.trace done := by
  induction done using List.reverseRecOn with
  | nil => rfl
  | append_singleton done action ih =>
    rw [after_concat, trace_act, ih, traceAfter, traceAfter, List.filterMap_append]
    cases hset : action.traceSet? <;> simp [hset]

end CoreTiming.Trace
