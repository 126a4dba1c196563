import CoreTiming.Alignment.Pass
import Mathlib.Data.List.Forall2

/-!
# Passes over programs treated alike

A pass sees an instruction only through the three questions that it asks of the rules. Two programs
with the same labels, whose instructions get the same answers one by one, each from its own rules,
cannot be told apart by any listing.

Results:
* `judge_congr`: the verdict on a line is the same;
* `step_congr`, `run_congr`: so is a step, and a run from the same state;
* `align_congr`: so is the whole pass, with its reports, its tally, its records and its fault.
-/

namespace CoreTiming

/-! ## Programs related instruction by instruction -/

/-- Two subroutines with one label, whose instructions are related one by one. -/
structure Subroutine.Related (R : Instruction → Instruction → Prop) (s t : Subroutine) : Prop where
  label_eq : s.label = t.label
  instructions : List.Forall₂ R s.instructions t.instructions

/-- Two programs whose subroutines are related one by one. -/
def Program.Related (R : Instruction → Instruction → Prop) (p q : Program) : Prop :=
  List.Forall₂ (Subroutine.Related R) p.subroutines q.subroutines

namespace Program

variable {R : Instruction → Instruction → Prop} {p q : Program}

theorem Related.mono {S : Instruction → Instruction → Prop} (h : p.Related R q)
    (hmono : ∀ i j, R i j → S i j) : p.Related S q :=
  List.Forall₂.imp (fun _ _ hst => ⟨hst.label_eq, hst.instructions.imp hmono⟩) h

theorem Related.find? (h : p.Related R q) (label : String) :
    Option.Rel (Subroutine.Related R) (p.find? label) (q.find? label) := by
  unfold Program.Related at h
  unfold Program.find?
  generalize p.subroutines = ss at h ⊢
  generalize q.subroutines = ts at h ⊢
  induction h with
  | nil => exact .none
  | @cons s t ss ts hst _ ih =>
    by_cases hlabel : s.label = label
    · have hother : t.label = label := hst.label_eq ▸ hlabel
      rw [List.find?_cons_of_pos (by simpa using hlabel),
        List.find?_cons_of_pos (by simpa using hother)]
      exact .some hst
    · have hother : t.label ≠ label := hst.label_eq ▸ hlabel
      rw [List.find?_cons_of_neg (by simpa using hlabel),
        List.find?_cons_of_neg (by simpa using hother)]
      exact ih

theorem Related.isSome_find? (h : p.Related R q) (label : String) :
    (p.find? label).isSome = (q.find? label).isSome := by
  have hfound := h.find? label
  generalize p.find? label = s at hfound ⊢
  generalize q.find? label = t at hfound ⊢
  cases hfound <;> rfl

theorem Related.instructionsOf (h : p.Related R q) (label : String) :
    List.Forall₂ R (p.instructionsOf label) (q.instructionsOf label) := by
  have hfound := h.find? label
  unfold Program.instructionsOf
  generalize p.find? label = s at hfound ⊢
  generalize q.find? label = t at hfound ⊢
  cases hfound with
  | none => exact .nil
  | some hst => exact hst.instructions

end Program

namespace Alignment

open CoreTiming.Listing

/-! ## One line -/

/-- Two instructions that get the same answers, the first from some rules and the second from
    others. -/
structure TreatedAlike (rules other : Rules) (i j : Instruction) : Prop where
  placeholder_eq : rules.isPlaceholder i = other.isPlaceholder j
  constant_eq : rules.isConstant i = other.isConstant j
  check_eq : rules.check? i = other.check? j

/-- Two outcomes that are the same fault, or related values. -/
inductive SameOutcome {α β : Type} (R : α → β → Prop) : Except Fault α → Except Fault β → Prop
  | error (e : Fault) : SameOutcome R (.error e) (.error e)
  | ok {a : α} {b : β} : R a b → SameOutcome R (.ok a) (.ok b)

variable {rules other : Rules} {is js : List Instruction} {p q : Program}

theorem upcoming_congr {R : Instruction → Instruction → Prop} (h : List.Forall₂ R is js)
    (index : Int) : SameOutcome (List.Forall₂ R) (upcoming is index) (upcoming js index) := by
  have hdrop : ∀ n, List.Forall₂ R (is.drop n) (js.drop n) := fun n => List.forall₂_drop n h
  unfold upcoming
  split
  · exact .ok (hdrop _)
  · rw [h.length_eq]
    cases Index.position js.length index with
    | error e => exact .error _
    | ok position => exact .ok (List.rel_append (hdrop position) h)

theorem passPlaceholders_congr (h : List.Forall₂ (TreatedAlike rules other) is js) :
    SameOutcome (fun found found' => found.1 = found'.1
        ∧ Option.Rel (TreatedAlike rules other) found.2 found'.2)
      (passPlaceholders rules is) (passPlaceholders other js) := by
  induction h with
  | nil => exact .ok ⟨rfl, .none⟩
  | @cons i j is js hij _ ih =>
    unfold passPlaceholders
    rw [hij.placeholder_eq]
    cases other.isPlaceholder j with
    | error e => exact .error _
    | ok passed =>
      cases passed with
      | false => exact .ok ⟨rfl, .some hij⟩
      | true =>
        simp only
        generalize passPlaceholders rules is = found at ih ⊢
        generalize passPlaceholders other js = found' at ih ⊢
        cases ih with
        | error e => exact .error e
        | ok hfound => exact .ok ⟨congrArg (· + 1) hfound.1, hfound.2⟩

theorem expected_congr (h : List.Forall₂ (TreatedAlike rules other) is js) (index : Int) :
    SameOutcome (fun found found' => found.1 = found'.1
        ∧ Option.Rel (TreatedAlike rules other) found.2 found'.2)
      (expected rules is index) (expected other js index) := by
  have hahead := upcoming_congr h index
  unfold expected
  generalize upcoming is index = ahead at hahead ⊢
  generalize upcoming js index = ahead' at hahead ⊢
  cases hahead with
  | error e => exact .error e
  | @ok ahead ahead' hahead =>
    have hpassed := passPlaceholders_congr hahead
    simp only [bind, Except.bind]
    generalize passPlaceholders rules ahead = found at hpassed ⊢
    generalize passPlaceholders other ahead' = found' at hpassed ⊢
    cases hpassed with
    | error e => exact .error e
    | ok hfound => exact .ok ⟨congrArg (fun n : Nat => index + n) hfound.1, hfound.2⟩

theorem judge_congr (h : List.Forall₂ (TreatedAlike rules other) is js) (index : Int)
    (mnemonic : String) : judge rules is index mnemonic = judge other js index mnemonic := by
  have hexpected := expected_congr h index
  unfold judge
  generalize expected rules is index = found at hexpected ⊢
  generalize expected other js index = found' at hexpected ⊢
  cases hexpected with
  | error e => rfl
  | @ok found found' hfound =>
    obtain ⟨n, i⟩ := found
    obtain ⟨m, j⟩ := found'
    obtain ⟨rfl, hij⟩ := hfound
    cases hij with
    | none => rfl
    | some hij => simp only [verdictFor, hij.constant_eq, hij.check_eq]

theorem stepWithin_congr (h : List.Forall₂ (TreatedAlike rules other) is js)
    (label owner : String) (index : Int) (address : Datum) (mnemonic : String) :
    stepWithin rules is label owner index address mnemonic
      = stepWithin other js label owner index address mnemonic := by
  simp only [stepWithin, judge_congr h]

/-! ## Steps and passes -/

theorem step_congr (h : p.Related (TreatedAlike rules other) q) (state : State) (line : Line) :
    step rules p state line = step other q state line := by
  cases line with
  | label address label =>
    have hknown := h.isSome_find? label
    cases state <;> simp only [step, hknown]
  | instruction address mnemonic =>
    cases state with
    | outside => rfl
    | within label owner index =>
      exact stepWithin_congr (h.instructionsOf owner) label owner index address mnemonic

theorem run_congr (h : p.Related (TreatedAlike rules other) q) (state : State)
    (lines : List Line) : run rules p state lines = run other q state lines := by
  induction lines generalizing state with
  | nil => rfl
  | cons line rest ih => simp only [run, step_congr h, ih]

/-- A pass cannot tell the programs apart. -/
theorem align_congr (h : p.Related (TreatedAlike rules other) q) (texts : List String) :
    align rules p texts = align other q texts := by
  simp only [align, alignLines, run_congr h]

end Alignment

end CoreTiming
