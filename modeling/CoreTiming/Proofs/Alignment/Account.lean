import CoreTiming.Proofs.Alignment.Sanity

/-!
# Every line is accounted for

A pass counts, reports and logs, each at its own place. The three views agree at every point of a
pass, also where a mismatch ends it.

`visits` lists the lines that a pass takes, each with the state it is taken in and with what it
leaves. A line that ends the pass without a mismatch is not taken: it leaves nothing. An instruction
line that is taken has one `Fate`, which depends on the state and on the instruction that is
expected there, and settles what the line leaves (`Visit.Falls`).

Results:
* `stepWithin_falls`: an instruction line that is taken in a subroutine has a fate;
* `Visit.Falls.fate_eq`: it has no other one;
* `account_run`: the tally, the reports and the records of a run are as many as its label lines and
  its lines of each fate ask for;
* `align_accounts`: the account of a pass at each of its points, and the record that completes it.
-/

namespace CoreTiming.Alignment

open CoreTiming CoreTiming.Listing

/-! ## Lines that are taken -/

/-- Whether a fault is a mismatch. -/
def Fault.isMismatch : Fault → Bool
  | .mismatch _ _ _ => true
  | _ => false

/-- A line that a pass takes: the state it is taken in, the line, and what it leaves. -/
structure Visit where
  state : State
  line : Line
  journal : Journal

/-- The lines that a run takes. -/
def visits (rules : Rules) (program : Program) : State → List Line → List Visit
  | _, [] => []
  | state, line :: rest =>
    match step rules program state line with
    | (journal, .ok next) => ⟨state, line, journal⟩ :: visits rules program next rest
    | (journal, .error e) => if e.isMismatch then [⟨state, line, journal⟩] else []

/-! ## Fates -/

/-- What becomes of an instruction line. -/
inductive Fate where
  /-- It stands outside of any subroutine. -/
  | ignored
  /-- It stands for an instruction. -/
  | reported
  /-- It is data between instructions. -/
  | skipped
  /-- It is padding behind all instructions. -/
  | padding
  /-- It is surplus behind all instructions. -/
  | warned
  deriving DecidableEq

section Expected

variable (rules : Rules) (instructions : List Instruction)

/-- Only placeholders stand from an index on. -/
def Spent (index : Nat) : Prop := ∀ p ∈ instructions.drop index, rules.isPlaceholder p = .ok true

/-- The first instruction from an index on that is no placeholder, with its own index. -/
structure Awaits (index j : Nat) (i : Instruction) : Prop where
  le : index ≤ j
  stands : instructions[j]? = some i
  shown : rules.isPlaceholder i = .ok false
  hidden : ∀ p ∈ (instructions.drop index).take (j - index), rules.isPlaceholder p = .ok true

end Expected

/-- A visit in the subroutine of a label, at an index. -/
structure Visit.Inside (program : Program) (visit : Visit) (label : String) (s : Subroutine)
    (index : Nat) : Prop where
  known : program.find? label = some s
  state_eq : visit.state = .within label label index

/-- An instruction line has a fate: the condition on the state and on the line, and what the line
    leaves. -/
inductive Visit.Falls (rules : Rules) (program : Program) (visit : Visit) : Fate → Prop
  | ignored (outside : visit.state = .outside) (left : visit.journal = {}) :
      Falls rules program visit .ignored
  | reported {label mnemonic : String} {address : Datum} {s : Subroutine} {index j : Nat}
      {i : Instruction} (inside : visit.Inside program label s index)
      (line : visit.line = .instruction address mnemonic)
      (awaited : Awaits rules s.instructions index j i)
      (fits : isDirective mnemonic = false ∨ rules.isConstant i = .ok true)
      (left : visit.journal
        = { reports := [.instruction label j address], tally := { instructions := 1 } }) :
      Falls rules program visit .reported
  | skipped {label mnemonic : String} {address : Datum} {s : Subroutine} {index j : Nat}
      {i : Instruction} {record : Log.Record} (inside : visit.Inside program label s index)
      (line : visit.line = .instruction address mnemonic)
      (awaited : Awaits rules s.instructions index j i) (directive : isDirective mnemonic = true)
      (plain : rules.isConstant i = .ok false) (level : record.level = .debug)
      (left : visit.journal = { records := [record] }) :
      Falls rules program visit .skipped
  | padding {label mnemonic : String} {address : Datum} {s : Subroutine} {index : Nat}
      (inside : visit.Inside program label s index)
      (line : visit.line = .instruction address mnemonic) (spent : Spent rules s.instructions index)
      (padding : isPadding mnemonic = true) (left : visit.journal = {}) :
      Falls rules program visit .padding
  | warned {label mnemonic : String} {address : Datum} {s : Subroutine} {index : Nat}
      {record : Log.Record} (inside : visit.Inside program label s index)
      (line : visit.line = .instruction address mnemonic) (spent : Spent rules s.instructions index)
      (surplus : isPadding mnemonic = false) (level : record.level = .warning)
      (left : visit.journal = { tally := { warnings := 1 }, records := [record] }) :
      Falls rules program visit .warned

/-- The fate of an instruction line, read off what it leaves. -/
def Visit.fate (visit : Visit) : Fate :=
  match visit.state, visit.journal.reports, visit.journal.records with
  | .outside, _, _ => .ignored
  | .within _ _ _, _ :: _, _ => .reported
  | .within _ _ _, [], [] => .padding
  | .within _ _ _, [], record :: _ => if record.level = .warning then .warned else .skipped

variable {rules : Rules} {program : Program}

/-- No instruction line has two fates. -/
theorem Visit.Falls.fate_eq {visit : Visit} {fate : Fate} (h : visit.Falls rules program fate) :
    visit.fate = fate := by
  cases h with
  | ignored outside => simp [Visit.fate, outside]
  | reported inside _ _ _ left => simp [Visit.fate, inside.state_eq, left]
  | skipped inside _ _ _ _ level left => simp [Visit.fate, inside.state_eq, left, level]
  | padding inside _ _ _ left => simp [Visit.fate, inside.state_eq, left]
  | warned inside _ _ _ level left => simp [Visit.fate, inside.state_eq, left, level]

/-! ## The expected instruction -/

section Expected

variable {instructions : List Instruction} {index : Nat}

theorem isPlaceholder_of_passPlaceholders {count : Nat} {found : Option Instruction}
    (h : passPlaceholders rules instructions = .ok (count, found)) :
    ∀ p ∈ instructions.take count, rules.isPlaceholder p = .ok true := by
  induction instructions generalizing count with
  | nil => simp
  | cons first rest ih =>
    unfold passPlaceholders at h
    split at h
    · cases h
    · cases h
      simp
    · rename_i hfirst
      cases hrest : passPlaceholders rules rest with
      | error e => simp [hrest, Except.map] at h
      | ok passed =>
        obtain ⟨rfl, rfl⟩ : passed.1 + 1 = count ∧ passed.2 = found := by
          simpa [hrest, Except.map] using h
        rw [List.take_succ_cons]
        exact List.forall_mem_cons.2 ⟨hfirst, ih hrest⟩

/-- From an index on either only placeholders are left, or an instruction is awaited. -/
theorem spent_or_awaits {next : Int} {found : Option Instruction}
    (h : expected rules instructions index = .ok (next, found)) :
    (found = none ∧ Spent rules instructions index)
      ∨ ∃ (j : Nat) (i : Instruction), next = j ∧ found = some i
          ∧ Awaits rules instructions index j i := by
  rw [expected_nonneg (by omega), Int.toNat_natCast] at h
  cases hpassed : passPlaceholders rules (instructions.drop index) with
  | error e => simp [hpassed, Except.map] at h
  | ok passed =>
    obtain ⟨rfl, rfl⟩ : (index : Int) + passed.1 = next ∧ passed.2 = found := by
      simpa [hpassed, Except.map] using h
    obtain ⟨hat, hle, hshown⟩ := passPlaceholders_eq_ok hpassed
    have hhidden := isPlaceholder_of_passPlaceholders hpassed
    cases hfound : passed.2 with
    | none =>
      rw [hfound, List.getElem?_eq_none_iff] at hat
      rw [List.take_of_length_le hat] at hhidden
      exact .inl ⟨rfl, hhidden⟩
    | some i =>
      rw [hfound, List.getElem?_drop] at hat
      refine .inr ⟨index + passed.1, i, by omega, rfl, by omega, hat, hshown i hfound, ?_⟩
      rwa [Nat.add_sub_cancel_left]

/-! ## Faults of a search -/

theorem isMismatch_of_passPlaceholders {e : Fault}
    (h : passPlaceholders rules instructions = .error e) : e.isMismatch = false := by
  induction instructions with
  | nil => cases h
  | cons first rest ih =>
    unfold passPlaceholders at h
    split at h
    · cases h
      rfl
    · cases h
    · cases hrest : passPlaceholders rules rest with
      | error e =>
        obtain rfl : e = _ := by simpa [hrest, Except.map] using h
        exact ih hrest
      | ok passed => simp [hrest, Except.map] at h

theorem isMismatch_of_judge {mnemonic : String} {e : Fault}
    (h : judge rules instructions index mnemonic = .error e) : e.isMismatch = false := by
  unfold judge at h
  split at h
  · rename_i hexpected
    cases h
    rw [expected_nonneg (by omega), Int.toNat_natCast] at hexpected
    cases hpassed : passPlaceholders rules (instructions.drop index) with
    | error e =>
      obtain rfl : e = _ := by simpa [hpassed, Except.map] using hexpected
      exact isMismatch_of_passPlaceholders hpassed
    | ok passed => simp [hpassed, Except.map] at hexpected
  · cases h
  · split at h
    · cases h
      rfl
    · cases h

end Expected

/-! ## One line -/

theorem verdictFor_cases {mnemonic : String} {i : Instruction} {verdict : Verdict}
    (h : verdictFor rules mnemonic i = .ok verdict) :
    (verdict = .skipped ∧ isDirective mnemonic = true ∧ rules.isConstant i = .ok false)
      ∨ ∃ check, verdict = .paired check
          ∧ (isDirective mnemonic = false ∨ rules.isConstant i = .ok true) := by
  unfold verdictFor at h
  cases hconstant : rules.isConstant i with
  | error e => simp [hconstant, bind, Except.bind] at h
  | ok constant =>
    cases hcheck : rules.check? i with
    | error e => simp [hconstant, hcheck, bind, Except.bind] at h
    | ok check =>
      have hverdict : verdict
          = if isDirective mnemonic && !constant then .skipped else .paired check := by
        simpa [hconstant, hcheck, bind, Except.bind, pure, Except.pure] using h.symm
      cases hdirective : isDirective mnemonic with
      | false => exact .inr ⟨check, by simpa [hdirective] using hverdict, .inl rfl⟩
      | true =>
        cases constant with
        | false => exact .inl ⟨by simpa [hdirective] using hverdict, rfl, rfl⟩
        | true => exact .inr ⟨check, by simpa [hdirective] using hverdict, .inr rfl⟩

theorem judge_cases {instructions : List Instruction} {index : Nat} {mnemonic : String}
    {next : Int} {verdict : Verdict}
    (h : judge rules instructions index mnemonic = .ok (next, verdict)) :
    (verdict = .surplus ∧ Spent rules instructions index)
      ∨ ∃ (j : Nat) (i : Instruction), next = j ∧ Awaits rules instructions index j i
          ∧ verdictFor rules mnemonic i = .ok verdict := by
  unfold judge at h
  split at h
  · cases h
  · rename_i hexpected
    cases h
    obtain ⟨-, hspent⟩ | ⟨_, _, -, hfound, -⟩ := spent_or_awaits hexpected
    · exact .inl ⟨rfl, hspent⟩
    · cases hfound
  · rename_i i hexpected
    obtain ⟨hnone, -⟩ | ⟨j, _, rfl, hfound, hawaits⟩ := spent_or_awaits hexpected
    · cases hnone
    · obtain rfl := Option.some.inj hfound
      split at h
      · cases h
      · rename_i hverdict
        cases h
        exact .inr ⟨j, i, rfl, hawaits, hverdict⟩

/-- How a line that is taken ends: the pass goes on, or the line is a mismatch. -/
inductive Taken (line : Line) : Except Fault State → Prop
  | ok (next : State) : Taken line (.ok next)
  | mismatch {address : Datum} {mnemonic : String} (is_line : line = .instruction address mnemonic)
      (source : String) : Taken line (.error (.mismatch address mnemonic source))

/-- An instruction line in a subroutine ends the pass and leaves nothing, or it is taken and has a
    fate. -/
theorem stepWithin_falls {label : String} {s : Subroutine} (known : program.find? label = some s)
    (rules : Rules) (index : Nat) (address : Datum) (mnemonic : String) :
    (∃ e, e.isMismatch = false
      ∧ stepWithin rules s.instructions label label index address mnemonic = (.empty, .error e))
    ∨ ∃ journal outcome fate,
        stepWithin rules s.instructions label label index address mnemonic = (journal, outcome)
        ∧ Taken (.instruction address mnemonic) outcome
        ∧ Visit.Falls rules program
            ⟨.within label label index, .instruction address mnemonic, journal⟩ fate := by
  have hinside : ∀ journal, Visit.Inside program
      ⟨.within label label index, .instruction address mnemonic, journal⟩ label s index :=
    fun _ => ⟨known, rfl⟩
  unfold stepWithin
  rcases hjudge : judge rules s.instructions index mnemonic with e | ⟨next, verdict⟩
  · exact .inl ⟨e, isMismatch_of_judge hjudge, rfl⟩
  · obtain ⟨rfl, hspent⟩ | ⟨j, i, rfl, hawaits, hverdict⟩ := judge_cases hjudge
    · cases hpadding : isPadding mnemonic with
      | true =>
        simp only [surplusJournal, hpadding, if_true]
        exact .inr ⟨_, _, _, rfl, .ok _, .padding (hinside _) rfl hspent hpadding rfl⟩
      | false =>
        simp only [surplusJournal, hpadding]
        exact .inr ⟨_, _, _, rfl, .ok _, .warned (hinside _) rfl hspent hpadding rfl rfl⟩
    · obtain ⟨rfl, hdirective, hplain⟩ | ⟨check, rfl, hfits⟩ := verdictFor_cases hverdict
      · exact .inr ⟨_, _, _, rfl, .ok _,
          .skipped (hinside _) rfl hawaits hdirective hplain rfl rfl⟩
      · refine .inr ⟨_, _, _, rfl, ?_, .reported (hinside _) rfl hawaits hfits rfl⟩
        split
        · exact .mismatch rfl _
        · exact .ok _

/-! ## What a line adds to the account -/

/-- Whether a report is that of a label. -/
def Report.isSymbol : Report → Bool
  | .symbol _ _ => true
  | .instruction _ _ _ => false

/-- Whether a report is that of an instruction. -/
def Report.isInstruction : Report → Bool
  | .symbol _ _ => false
  | .instruction _ _ _ => true

/-- Whether a line is a label line of a label that the program does not know. -/
def Visit.opensUnknown (program : Program) (visit : Visit) : Bool :=
  match visit.line with
  | .label _ label => (program.find? label).isNone
  | .instruction _ _ => false

/-- Three views of a journal that agree: its tally, its reports and its records, for a number of
    label lines, the number of those with unknown labels, and the fates of the other lines. -/
structure Journal.Agrees (labels unknown : Nat) (fates : List Fate) (journal : Journal) : Prop where
  symbols : journal.tally.symbols = labels
  symbol_reports : journal.reports.countP Report.isSymbol = labels
  instructions : journal.tally.instructions = fates.count .reported
  instruction_reports : journal.reports.countP Report.isInstruction = fates.count .reported
  warnings : journal.tally.warnings = fates.count .warned
  warning_records : journal.records.countP (·.level = .warning) = fates.count .warned
  debug_records : journal.records.countP (·.level = .debug) = fates.count .skipped + unknown
  info_records : journal.records.countP (·.level = .info) = 0

theorem Journal.Agrees.append {labels labels' unknown unknown' : Nat} {fates fates' : List Fate}
    {journal later : Journal} (h : journal.Agrees labels unknown fates)
    (hlater : later.Agrees labels' unknown' fates') :
    (journal ++ later).Agrees (labels + labels') (unknown + unknown') (fates ++ fates') := by
  obtain ⟨h₁, h₂, h₃, h₄, h₅, h₆, h₇, h₈⟩ := h
  obtain ⟨l₁, l₂, l₃, l₄, l₅, l₆, l₇, l₈⟩ := hlater
  constructor <;>
    simp only [Journal.reports_append, Journal.tally_append, Journal.records_append,
      Tally.add_def, List.countP_append, List.count_append] <;>
    omega

/-- A line that is taken adds to the account: a label line one label, and one record where the
    label is unknown; an instruction line its fate. -/
structure Visit.Settled (rules : Rules) (program : Program) (visit : Visit) : Prop where
  agrees : visit.journal.Agrees (if visit.line.isLabel then 1 else 0)
    (if visit.opensUnknown program then 1 else 0)
    (if visit.line.isLabel then [] else [visit.fate])
  falls : visit.line.isLabel = false → visit.Falls rules program visit.fate
  unknown : visit.opensUnknown program = true →
    ∃ record, visit.journal.records = [record] ∧ record.level = .debug

theorem Visit.Falls.agrees {visit : Visit} {fate : Fate} (h : visit.Falls rules program fate) :
    visit.journal.Agrees 0 0 [fate] := by
  cases h with
  | ignored _ left => rw [left]; constructor <;> rfl
  | reported _ _ _ _ left => rw [left]; constructor <;> rfl
  | skipped _ _ _ _ _ level left => rw [left]; constructor <;> simp [level]
  | padding _ _ _ _ left => rw [left]; constructor <;> rfl
  | warned _ _ _ _ level left => rw [left]; constructor <;> simp [level]

/-- In a state that a pass can be in a line ends the pass and leaves nothing, or it is taken and
    adds to the account. -/
theorem State.Reached.step_settled {state : State} (h : state.Reached program) (rules : Rules)
    (line : Line) :
    (∃ e, e.isMismatch = false ∧ Alignment.step rules program state line = (.empty, .error e))
    ∨ ∃ journal outcome, Alignment.step rules program state line = (journal, outcome)
        ∧ Taken line outcome ∧ Visit.Settled rules program ⟨state, line, journal⟩ := by
  cases line with
  | label address label =>
    cases known : program.find? label with
    | none =>
      refine .inr ⟨_, _, step_unknown known rules state address, .ok _, ?_⟩
      have hunknown : Visit.opensUnknown program
          ⟨state, .label address label, labelJournal label address false⟩ = true := by
        simp [Visit.opensUnknown, known]
      refine ⟨?_, nofun, fun _ => ⟨_, rfl, rfl⟩⟩
      rw [hunknown]
      constructor <;> rfl
    | some s =>
      refine .inr ⟨_, _, step_known known rules state address, .ok _, ?_⟩
      have hknown : Visit.opensUnknown program
          ⟨state, .label address label, labelJournal label address true⟩ = false := by
        simp [Visit.opensUnknown, known]
      refine ⟨?_, nofun, by simp [hknown]⟩
      rw [hknown]
      constructor <;> rfl
  | instruction address mnemonic =>
    have hsettled : ∀ {journal fate},
        Visit.Falls rules program ⟨state, .instruction address mnemonic, journal⟩ fate →
        Visit.Settled rules program ⟨state, .instruction address mnemonic, journal⟩ := by
      intro journal fate hfalls
      obtain rfl := hfalls.fate_eq
      exact ⟨hfalls.agrees, fun _ => hfalls, nofun⟩
    cases h with
    | outside =>
      exact .inr ⟨_, _, step_outside rules program address mnemonic, .ok _,
        hsettled (.ignored rfl rfl)⟩
    | @within label s index known inside =>
      rw [Alignment.step, Program.instructionsOf_of_find? known]
      obtain hfault | ⟨journal, outcome, fate, hstep, htaken, hfalls⟩ :=
        stepWithin_falls known rules index address mnemonic
      · exact .inl hfault
      · exact .inr ⟨journal, outcome, hstep, htaken, hsettled hfalls⟩

/-! ## Runs -/

/-- What a run leaves is what the lines leave that it takes, and each of these adds to the
    account. -/
theorem visits_run {state : State} (h : state.Reached program) (rules : Rules)
    (lines : List Line) :
    (run rules program state lines).1
        = Journal.join ((visits rules program state lines).map (·.journal))
      ∧ ∀ visit ∈ visits rules program state lines, visit.Settled rules program := by
  induction lines generalizing state with
  | nil => exact ⟨rfl, by simp [visits]⟩
  | cons line rest ih =>
    obtain ⟨e, he, hstep⟩ | ⟨journal, outcome, hstep, htaken, hsettled⟩ :=
      h.step_settled rules line
    · rw [run_cons_error hstep, visits, hstep]
      simp [he]
    · cases htaken with
      | ok next =>
        obtain ⟨hjoin, hrest⟩ := ih ((h.step rules line).2 next (by rw [hstep]))
        rw [run_cons_ok hstep, visits, hstep]
        exact ⟨by rw [hjoin]; rfl, List.forall_mem_cons.2 ⟨hsettled, hrest⟩⟩
      | mismatch is_line source =>
        rw [run_cons_error hstep, visits, hstep]
        simp [Fault.isMismatch, hsettled]

/-- A run that goes on to its end takes all lines, and one that ends with a mismatch takes the
    lines up to that one. -/
theorem map_line_visits {state : State} (h : state.Reached program) (rules : Rules)
    (lines : List Line) :
    (∀ last, (run rules program state lines).2 = .ok last →
        (visits rules program state lines).map (·.line) = lines)
      ∧ ∀ address mnemonic source,
        (run rules program state lines).2 = .error (.mismatch address mnemonic source) →
          ∃ before after, lines = before ++ .instruction address mnemonic :: after
            ∧ (visits rules program state lines).map (·.line)
                = before ++ [.instruction address mnemonic] := by
  induction lines generalizing state with
  | nil => exact ⟨fun _ _ => rfl, nofun⟩
  | cons line rest ih =>
    obtain ⟨e, he, hstep⟩ | ⟨journal, outcome, hstep, htaken, -⟩ := h.step_settled rules line
    · rw [run_cons_error hstep, visits, hstep]
      refine ⟨nofun, fun address mnemonic source hmismatch => ?_⟩
      cases hmismatch
      cases he
    · cases htaken with
      | ok next =>
        obtain ⟨hok, hmismatch⟩ := ih ((h.step rules line).2 next (by rw [hstep]))
        rw [run_cons_ok hstep, visits, hstep]
        refine ⟨fun last hlast => congrArg (line :: ·) (hok last hlast), ?_⟩
        intro address mnemonic source hfault
        obtain ⟨before, after, hrest, htaken⟩ := hmismatch address mnemonic source hfault
        exact ⟨line :: before, after, congrArg (line :: ·) hrest, congrArg (line :: ·) htaken⟩
      | mismatch is_line source =>
        rw [run_cons_error hstep, visits, hstep]
        refine ⟨nofun, fun _ _ _ hfault => ?_⟩
        cases hfault
        exact ⟨[], rest, by rw [is_line]; rfl, by simp [Fault.isMismatch, is_line]⟩

/-- Where opcodes can be looked up, nothing but a mismatch ends a run. -/
theorem isMismatch_of_run (h : program.IsHashable) {state : State} (hstate : state.Reached program)
    (rules : Rules) {lines : List Line} {e : Fault}
    (hrun : (run rules program state lines).2 = .error e) : e.isMismatch = true := by
  induction lines generalizing state with
  | nil => cases hrun
  | cons line rest ih =>
    obtain ⟨journal, next, -, ⟨-, hstep⟩ | ⟨address, mnemonic, pattern, -, -, hstep⟩⟩ :=
      step_unchecked h hstate rules line
    · rw [run_cons_ok hstep] at hrun
      exact ih ((hstate.step rules line).2 next (by rw [hstep])) hrun
    · rw [run_cons_error hstep] at hrun
      cases hrun
      rfl

/-- The fates of the instruction lines among those that are taken. -/
def fates (taken : List Visit) : List Fate :=
  (taken.filter fun visit => !visit.line.isLabel).map Visit.fate

theorem agrees_join {taken : List Visit} (h : ∀ visit ∈ taken, visit.Settled rules program) :
    (Journal.join (taken.map (·.journal))).Agrees (taken.countP (·.line.isLabel))
      (taken.countP (·.opensUnknown program)) (fates taken) := by
  induction taken with
  | nil => constructor <;> rfl
  | cons visit rest ih =>
    obtain ⟨hvisit, hrest⟩ := List.forall_mem_cons.1 h
    have happend := hvisit.agrees.append (ih hrest)
    have hfates : fates (visit :: rest)
        = (if visit.line.isLabel then [] else [visit.fate]) ++ fates rest := by
      cases hline : visit.line.isLabel <;> simp [fates, hline]
    rw [hfates, List.countP_cons, List.countP_cons, Nat.add_comm (rest.countP _),
      Nat.add_comm (rest.countP _)]
    exact happend

theorem length_fates (fates : List Fate) :
    fates.count .ignored + fates.count .reported + fates.count .skipped + fates.count .padding
      + fates.count .warned = fates.length := by
  induction fates with
  | nil => rfl
  | cons fate rest ih =>
    simp only [List.count_cons, List.length_cons, ← ih]
    cases fate <;> simp <;> omega

/-! ## The account of a pass -/

/-- The account of the lines that a pass has taken, and of what it has left so far. -/
structure Account (rules : Rules) (program : Program) (taken : List Visit) (journal : Journal) :
    Prop where
  left_eq : journal = Journal.join (taken.map (·.journal))
  symbols_reported : journal.tally.symbols = journal.reports.countP Report.isSymbol
  symbols_met : journal.tally.symbols = taken.countP (·.line.isLabel)
  instructions_reported : journal.tally.instructions = journal.reports.countP Report.isInstruction
  warnings_logged : journal.tally.warnings = journal.records.countP (·.level = .warning)
  /-- Every instruction line has exactly one fate. -/
  falls_iff : ∀ visit ∈ taken, visit.line.isLabel = false →
    ∀ fate, visit.Falls rules program fate ↔ fate = visit.fate
  /-- The lines of all fates are the instruction lines. -/
  sizes : (fates taken).count .ignored + (fates taken).count .reported
    + (fates taken).count .skipped + (fates taken).count .padding + (fates taken).count .warned
      = taken.countP fun visit => !visit.line.isLabel
  instructions_size : journal.tally.instructions = (fates taken).count .reported
  warnings_size : journal.tally.warnings = (fates taken).count .warned
  /-- A label line of an unknown label leaves one record. -/
  unknown : ∀ visit ∈ taken, ∀ address label, visit.line = .label address label →
    program.find? label = none → ∃ record, visit.journal.records = [record] ∧ record.level = .debug
  /-- Notes come from skipped data and from unknown labels, and from nowhere else. -/
  debug_size : journal.records.countP (·.level = .debug)
    = (fates taken).count .skipped + taken.countP (·.opensUnknown program)
  info_size : journal.records.countP (·.level = .info) = 0

theorem account_run (rules : Rules) (program : Program) (lines : List Line) :
    Account rules program (visits rules program .outside lines)
      (run rules program .outside lines).1 := by
  have hstart : State.Reached program .outside := .outside
  obtain ⟨hleft, hsettled⟩ := visits_run hstart rules lines
  have hagrees := agrees_join hsettled
  rw [← hleft] at hagrees
  constructor
  case left_eq => exact hleft
  case symbols_reported => rw [hagrees.symbols, hagrees.symbol_reports]
  case symbols_met => exact hagrees.symbols
  case instructions_reported => rw [hagrees.instructions, hagrees.instruction_reports]
  case warnings_logged => rw [hagrees.warnings, hagrees.warning_records]
  case falls_iff =>
    intro visit hvisit hline fate
    have hfalls := (hsettled visit hvisit).falls hline
    exact ⟨fun hother => hother.fate_eq.symm, fun hfate => hfate ▸ hfalls⟩
  case sizes => rw [length_fates, fates, List.length_map, List.countP_eq_length_filter]
  case instructions_size => exact hagrees.instructions
  case warnings_size => exact hagrees.warnings
  case unknown =>
    intro visit hvisit address label hline hunknown
    exact (hsettled visit hvisit).unknown (by simp [Visit.opensUnknown, hline, hunknown])
  case debug_size => exact hagrees.debug_records
  case info_size => exact hagrees.info_records

/-- **Every line is accounted for.** Take any point of a pass: the lines of the listing up to there.
    The pass has taken all of them, or those up to the mismatch that ended it; where opcodes can be
    looked up, nothing else ends it. Its tally, its reports and its records up to there agree with
    each other and with the lines taken (`Account`), each of which has exactly one fate. A pass that
    completes adds one record, which says the tally; one that does not adds nothing. -/
theorem align_accounts (rules : Rules) (program : Program) (texts : List String) :
    (∀ lines, lines <+: readAll texts →
      Account rules program (visits rules program .outside lines)
          (run rules program .outside lines).1
        ∧ (∃ later, (run rules program .outside (readAll texts)).1
            = (run rules program .outside lines).1 ++ later)
        ∧ (∀ last, (run rules program .outside lines).2 = .ok last →
            (visits rules program .outside lines).map (·.line) = lines)
        ∧ (∀ address mnemonic source,
            (run rules program .outside lines).2 = .error (.mismatch address mnemonic source) →
            ∃ before after, lines = before ++ .instruction address mnemonic :: after
              ∧ (visits rules program .outside lines).map (·.line)
                = before ++ [.instruction address mnemonic])
        ∧ (program.IsHashable → ∀ e, (run rules program .outside lines).2 = .error e →
            e.isMismatch = true))
      ∧ (∀ tally, (align rules program texts).2 = .ok tally →
          tally = (run rules program .outside (readAll texts)).1.tally
            ∧ (align rules program texts).1.records
              = (run rules program .outside (readAll texts)).1.records
                ++ [logged .info ("Aligned " ++ Numeral.decimal tally.instructions
                  ++ " instructions in " ++ Numeral.decimal tally.symbols ++ " symbols ("
                  ++ Numeral.decimal tally.warnings ++ " warnings)")])
      ∧ ∀ e, (align rules program texts).2 = .error e →
          align rules program texts
            = ((run rules program .outside (readAll texts)).1, .error e) := by
  refine ⟨fun lines hlines => ?_, ?_, ?_⟩
  · have hstart : State.Reached program .outside := .outside
    obtain ⟨hok, hmismatch⟩ := map_line_visits hstart rules lines
    refine ⟨account_run rules program lines, ?_, hok, hmismatch, fun h e hrun => ?_⟩
    · obtain ⟨more, hmore⟩ := hlines
      rw [← hmore, run_append]
      rcases run rules program .outside lines with ⟨journal, e | last⟩
      · exact ⟨.empty, (Journal.append_empty journal).symm⟩
      · exact ⟨_, rfl⟩
    · exact isMismatch_of_run h hstart rules hrun
  · intro tally htally
    rcases hrun : run rules program .outside (readAll texts) with ⟨journal, e | last⟩
    · rw [align_of_run_error hrun] at htally
      cases htally
    · rw [align_of_run_ok hrun] at htally ⊢
      cases htally
      exact ⟨rfl, rfl⟩
  · intro e he
    rcases hrun : run rules program .outside (readAll texts) with ⟨journal, fault | last⟩
    · rw [align_of_run_error hrun] at he ⊢
      cases he
      rfl
    · rw [align_of_run_ok hrun] at he
      cases he

/-- A subroutine of a placeholder and an instruction with a pattern. -/
def upperPair : Program := ⟨[⟨"f", [{ opcode := .int 8 }, { opcode := .text "LUI" }]⟩], by decide⟩

/-- A listing with skipped data, a paired line, a surplus line and an unknown label, which breaks
    off at a line that contradicts the pattern. -/
def brokenOff : List String :=
  ["00000010 <f>:", "10: .word", "10: lui", "14: ret", "00000018 <g>:", "00000020 <f>:", "20: li",
    "24: lui"]

theorem align_accounts_brokenOff :
    upperPair.IsHashable
      ∧ Account {} upperPair (visits {} upperPair .outside (readAll brokenOff))
          (run {} upperPair .outside (readAll brokenOff)).1
      ∧ (run {} upperPair .outside (readAll brokenOff)).1.tally = ⟨3, 2, 1⟩
      ∧ (∃ address mnemonic before after,
          readAll brokenOff = before ++ .instruction address mnemonic :: after
            ∧ (visits {} upperPair .outside (readAll brokenOff)).map (·.line)
              = before ++ [.instruction address mnemonic])
      ∧ fates (visits {} upperPair .outside (readAll brokenOff))
        = [.skipped, .reported, .warned, .reported] := by
  have h : upperPair.IsHashable := by decide
  obtain ⟨hparts, -, -⟩ := align_accounts {} upperPair brokenOff
  obtain ⟨haccount, -, -, hmismatch, hends⟩ := hparts _ (List.prefix_refl _)
  refine ⟨h, haccount, by decide +kernel, ?_, by decide +kernel⟩
  rcases hrun : (run {} upperPair .outside (readAll brokenOff)).2 with e | last
  · cases e with
    | mismatch address mnemonic source =>
      exact ⟨address, mnemonic, hmismatch address mnemonic source hrun⟩
    | _ => cases hends h _ hrun
  · have hnone : (run {} upperPair .outside (readAll brokenOff)).2.toOption = none := by
      decide +kernel
    rw [hrun] at hnone
    cases hnone

end CoreTiming.Alignment
