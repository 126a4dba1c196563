import Mathlib.Algebra.Ring.Int.Defs
import Mathlib.Data.List.Forall2
import CoreTiming.Pricing.Cost

/-!
# The price of a path

A path has a price when every instruction has one, and fails as its first offending instruction
does. Prices and offences are stated by what opcodes and callees name and what the two tables hold
(`Price`, `Offence`), and the look-ups compute them.

Results:
* `instructionCost_eq_ok_iff`, `instructionCost_eq_error_iff`: an instruction costs its price, and
  fails with its offence;
* `pathCost_append`: two paths one behind the other;
* `pathCost_exact`: prices and failures of paths, and what a failure is raised as.
-/

namespace CoreTiming

/-! ## Names -/

namespace Datum

/-- A datum names an opcode that it is, or whose tag it is. -/
inductive NamesOpcode (op : Opcode) : Datum → Prop
  | member : NamesOpcode op (.opcode op)
  | tag : NamesOpcode op (.text op.tag)

/-- A datum names a routine that it is, or whose symbol it is. -/
inductive NamesRoutine (routine : Routine) : Datum → Prop
  | member : NamesRoutine routine (.routine routine)
  | symbol : NamesRoutine routine (.text routine.name)

variable {datum : Datum}

theorem opcode?_eq_some_iff {op : Opcode} : datum.opcode? = some op ↔ datum.NamesOpcode op := by
  constructor
  · intro h
    cases datum with
    | opcode member => cases h; exact .member
    | text tag => obtain rfl := Opcode.tag_of_ofTag? h; exact .tag
    | _ => cases h
  · rintro (_ | _)
    · rfl
    · exact Opcode.ofTag?_tag op

theorem opcode?_eq_none_iff : datum.opcode? = none ↔ ∀ op, ¬ datum.NamesOpcode op := by
  simp [Option.eq_none_iff_forall_ne_some, opcode?_eq_some_iff]

theorem routine?_eq_some_iff {routine : Routine} :
    datum.routine? = some routine ↔ datum.NamesRoutine routine := by
  constructor
  · intro h
    cases datum with
    | routine member => cases h; exact .member
    | text symbol => obtain rfl := Routine.name_of_ofName? h; exact .symbol
    | _ => cases h
  · rintro (_ | _)
    · rfl
    · exact Routine.ofName?_name routine

theorem routine?_eq_none_iff : datum.routine? = none ↔ ∀ routine, ¬ datum.NamesRoutine routine := by
  simp [Option.eq_none_iff_forall_ne_some, routine?_eq_some_iff]

theorem NamesRoutine.unique {routine other : Routine} (h : datum.NamesRoutine routine)
    (hother : datum.NamesRoutine other) : routine = other :=
  Option.some.inj
    ((routine?_eq_some_iff.mpr h).symm.trans (routine?_eq_some_iff.mpr hother))

theorem NamesRoutine.isWritable {routine : Routine} (h : datum.NamesRoutine routine) :
    datum.isWritable = true := by
  cases h <;> rfl

end Datum

namespace Pricing

/-! ## Prices and offences -/

/-- What callees add to the price of a call: the entry of the first one where that names a routine,
    nothing where it names none or there is none. -/
inductive Surcharge (costs : RoutineCosts) : List Datum → Int → Prop
  | uncalled : Surcharge costs [] 0
  | plain {callee : Datum} {later : List Datum} :
      (∀ routine, ¬ callee.NamesRoutine routine) → Surcharge costs (callee :: later) 0
  | library {callee : Datum} {later : List Datum} {routine : Routine} {cost : Int} :
      callee.NamesRoutine routine → costs.get? routine = some cost →
        Surcharge costs (callee :: later) cost

/-- The price of an instruction: the entry of its opcode with the surcharge of its callees. -/
inductive Price (costs : RoutineCosts) (instruction : Instruction) : Int → Prop
  | mk {op : Opcode} {own surcharge : Int} :
      instruction.opcode.NamesOpcode op → (op, own) ∈ opcodeCosts →
        Surcharge costs instruction.calleeList surcharge →
          Price costs instruction (own + surcharge)

/-- What is wrong with an instruction: its opcode where that is unknown, and otherwise its first
    callee where that names a routine without an entry. -/
inductive Offence (costs : RoutineCosts) (instruction : Instruction) : Failure → Prop
  | opcode :
      (∀ op, ¬ instruction.opcode.NamesOpcode op) →
        Offence costs instruction (.unknownOpcode instruction.opcode)
  | callee {op : Opcode} {callee : Datum} {later : List Datum} {routine : Routine} :
      instruction.opcode.NamesOpcode op → instruction.calleeList = callee :: later →
        callee.NamesRoutine routine → costs.get? routine = none →
          Offence costs instruction (.unknownLibraryFunction callee)

/-- An instruction can be priced: its opcode is known, and its first callee names no routine, or
    one with an entry. -/
structure Priceable (costs : RoutineCosts) (instruction : Instruction) : Prop where
  opcode : ∃ op, instruction.opcode.NamesOpcode op
  callee : ∀ callee later, instruction.calleeList = callee :: later →
    ∀ routine, callee.NamesRoutine routine → ∃ cost, costs.get? routine = some cost

variable {costs : RoutineCosts} {instruction : Instruction} {path : List Instruction}

theorem mem_opcodeCosts_iff {op : Opcode} {cost : Int} :
    (op, cost) ∈ opcodeCosts ↔ cost = cycles op := by
  refine ⟨fun h => ?_, fun h => h ▸ mem_opcodeCosts op⟩
  have hentries : ∀ entry ∈ opcodeCosts, entry.2 = cycles entry.1 := by decide +kernel
  exact hentries _ h

theorem cycleCost_eq_ok_iff {cost : Int} :
    cycleCost instruction = .ok cost
      ↔ ∃ op, instruction.opcode.NamesOpcode op ∧ (op, cost) ∈ opcodeCosts := by
  simp only [cycleCost, opcodeCost, mem_opcodeCosts_iff, ← Datum.opcode?_eq_some_iff]
  cases instruction.opcode.opcode? <;> simp [eq_comm]

theorem cycleCost_eq_error_iff {e : Failure} :
    cycleCost instruction = .error e
      ↔ (∀ op, ¬ instruction.opcode.NamesOpcode op) ∧ e = .unknownOpcode instruction.opcode := by
  simp only [cycleCost, opcodeCost, ← Datum.opcode?_eq_none_iff]
  cases instruction.opcode.opcode? <;> simp [eq_comm]

theorem calleeCost_of_calleeList {callee : Datum} {later : List Datum}
    (h : instruction.calleeList = callee :: later) :
    calleeCost costs instruction =
      match callee.routine? with
      | none => .ok 0
      | some routine =>
        match costs.get? routine with
        | some cost => .ok cost
        | none => .error (.unknownLibraryFunction callee) := by
  rw [calleeCost, libraryCallee?, h, List.head?_cons]
  cases hroutine : callee.routine? with
  | none => simp [Option.filter, isLibraryFunction, hroutine]
  | some routine =>
    cases hcost : costs.get? routine <;>
      simp [Option.filter, isLibraryFunction, routineCost, hroutine, hcost]

theorem calleeCost_eq_ok_iff {cost : Int} :
    calleeCost costs instruction = .ok cost ↔ Surcharge costs instruction.calleeList cost := by
  cases hcallees : instruction.calleeList with
  | nil =>
    have hfree : calleeCost costs instruction = .ok 0 := by
      rw [calleeCost, libraryCallee?, hcallees]
      rfl
    rw [hfree]
    constructor
    · rintro ⟨⟩; exact .uncalled
    · rintro ⟨⟩; rfl
  | cons callee later =>
    rw [calleeCost_of_calleeList hcallees]
    constructor
    · intro h
      split at h
      next hroutine => cases h; exact .plain (Datum.routine?_eq_none_iff.mp hroutine)
      next routine hroutine =>
        split at h
        next hcost => cases h; exact .library (Datum.routine?_eq_some_iff.mp hroutine) hcost
        next => cases h
    · rintro (_ | hplain | ⟨hname, hcost⟩)
      · rw [Datum.routine?_eq_none_iff.mpr hplain]
      · simp only [Datum.routine?_eq_some_iff.mpr hname, hcost]

theorem calleeCost_eq_error_iff {e : Failure} :
    calleeCost costs instruction = .error e
      ↔ ∃ callee later routine, instruction.calleeList = callee :: later
        ∧ callee.NamesRoutine routine ∧ costs.get? routine = none
        ∧ e = .unknownLibraryFunction callee := by
  constructor
  · intro h
    cases hcallees : instruction.calleeList with
    | nil =>
      rw [calleeCost, libraryCallee?, hcallees] at h
      cases h
    | cons callee later =>
      rw [calleeCost_of_calleeList hcallees] at h
      split at h
      next => cases h
      next routine hroutine =>
        split at h
        next => cases h
        next hcost =>
          cases h
          exact ⟨callee, later, routine, rfl, Datum.routine?_eq_some_iff.mp hroutine, hcost, rfl⟩
  · rintro ⟨callee, later, routine, hcallees, hname, hcost, rfl⟩
    rw [calleeCost_of_calleeList hcallees]
    simp only [Datum.routine?_eq_some_iff.mpr hname, hcost]

/-- The opcode of an instruction is priced before its callee. -/
theorem instructionCost_eq (costs : RoutineCosts) (instruction : Instruction) :
    instructionCost costs instruction =
      match cycleCost instruction, calleeCost costs instruction with
      | .ok own, .ok surcharge => .ok (own + surcharge)
      | .error e, _ => .error e
      | .ok _, .error e => .error e := by
  rw [instructionCost]
  cases cycleCost instruction <;> cases calleeCost costs instruction <;> rfl

theorem instructionCost_eq_ok_iff {cost : Int} :
    instructionCost costs instruction = .ok cost ↔ Price costs instruction cost := by
  rw [instructionCost_eq]
  constructor
  · intro h
    split at h
    next own surcharge hown hcallee =>
      cases h
      obtain ⟨op, hname, hentry⟩ := cycleCost_eq_ok_iff.mp hown
      exact .mk hname hentry (calleeCost_eq_ok_iff.mp hcallee)
    next => cases h
    next => cases h
  · rintro ⟨hname, hentry, hsurcharge⟩
    rw [cycleCost_eq_ok_iff.mpr ⟨_, hname, hentry⟩, calleeCost_eq_ok_iff.mpr hsurcharge]

theorem instructionCost_eq_error_iff {e : Failure} :
    instructionCost costs instruction = .error e ↔ Offence costs instruction e := by
  rw [instructionCost_eq]
  constructor
  · intro h
    split at h
    next => cases h
    next unknown hown =>
      cases h
      obtain ⟨hunknown, rfl⟩ := cycleCost_eq_error_iff.mp hown
      exact .opcode hunknown
    next own unpriced hown hcallee =>
      cases h
      obtain ⟨op, hname, -⟩ := cycleCost_eq_ok_iff.mp hown
      obtain ⟨callee, later, routine, hcallees, hroutine, hcost, rfl⟩ :=
        calleeCost_eq_error_iff.mp hcallee
      exact .callee hname hcallees hroutine hcost
  · rintro (hunknown | ⟨hname, hcallees, hroutine, hcost⟩)
    · rw [cycleCost_eq_error_iff.mpr ⟨hunknown, rfl⟩]
    · rw [cycleCost_eq_ok_iff.mpr ⟨_, hname, mem_opcodeCosts _⟩,
        calleeCost_eq_error_iff.mpr ⟨_, _, _, hcallees, hroutine, hcost, rfl⟩]

theorem Priceable.not_offence (h : Priceable costs instruction) (e : Failure) :
    ¬ Offence costs instruction e := by
  rintro (hunknown | ⟨-, hcallees, hroutine, hcost⟩)
  · obtain ⟨op, hname⟩ := h.opcode
    exact hunknown op hname
  · obtain ⟨cost, hentry⟩ := h.callee _ _ hcallees _ hroutine
    rw [hcost] at hentry
    cases hentry

theorem exists_instructionCost_eq_ok_iff :
    (∃ cost, instructionCost costs instruction = .ok cost) ↔ Priceable costs instruction := by
  constructor
  · rintro ⟨cost, h⟩
    obtain ⟨hname, -, hsurcharge⟩ := instructionCost_eq_ok_iff.mp h
    refine ⟨⟨_, hname⟩, ?_⟩
    intro callee later hcallees routine hroutine
    rw [hcallees] at hsurcharge
    cases hsurcharge with
    | plain hplain => exact absurd hroutine (hplain routine)
    | library hother hcost =>
      obtain rfl := hroutine.unique hother
      exact ⟨_, hcost⟩
  · intro h
    cases hcost : instructionCost costs instruction with
    | ok cost => exact ⟨cost, rfl⟩
    | error e => exact absurd (instructionCost_eq_error_iff.mp hcost) (h.not_offence e)

/-! ## Paths -/

/-- A path costs the sum of the prices of its instructions. -/
theorem pathCost_eq_ok_iff {total : Int} :
    pathCost costs path = .ok total
      ↔ ∃ prices, List.Forall₂ (Price costs) path prices ∧ total = prices.sum := by
  induction path generalizing total with
  | nil => simp [eq_comm]
  | cons instruction rest ih =>
    cases hfirst : instructionCost costs instruction with
    | error e =>
      have hunpriced : ∀ price, ¬ Price costs instruction price := fun price hprice => by
        rw [instructionCost_eq_ok_iff.mpr hprice] at hfirst
        cases hfirst
      simp [pathCost_cons_error hfirst, List.forall₂_cons_left_iff, hunpriced]
    | ok first =>
      rw [pathCost_cons_ok hfirst]
      constructor
      · intro h
        cases hrest : pathCost costs rest with
        | error e => rw [hrest] at h; cases h
        | ok others =>
          rw [hrest] at h
          cases h
          obtain ⟨prices, hprices, rfl⟩ := ih.mp hrest
          exact ⟨first :: prices, .cons (instructionCost_eq_ok_iff.mp hfirst) hprices,
            List.sum_cons.symm⟩
      · rintro ⟨prices, hprices, rfl⟩
        cases hprices with
        | cons hprice hlater =>
          rw [← instructionCost_eq_ok_iff, hfirst] at hprice
          cases hprice
          rw [ih.mpr ⟨_, hlater, rfl⟩, List.sum_cons]
          rfl

theorem exists_pathCost_eq_ok_iff :
    (∃ total, pathCost costs path = .ok total)
      ↔ ∀ instruction ∈ path, Priceable costs instruction := by
  induction path with
  | nil => simp
  | cons instruction rest ih =>
    rw [List.forall_mem_cons, ← ih, ← exists_instructionCost_eq_ok_iff]
    cases hfirst : instructionCost costs instruction with
    | error e => simp [pathCost_cons_error hfirst]
    | ok first =>
      rw [pathCost_cons_ok hfirst]
      cases pathCost costs rest <;> simp [Except.map]

/-- The cost of two paths one behind the other: the sum where both have one, and otherwise the
    failure of the first if it fails, or else of the second. -/
theorem pathCost_append (costs : RoutineCosts) (path more : List Instruction) :
    pathCost costs (path ++ more) =
      match pathCost costs path, pathCost costs more with
      | .ok a, .ok b => .ok (a + b)
      | .error e, _ => .error e
      | .ok _, .error e => .error e := by
  induction path with
  | nil => cases h : pathCost costs more <;> simp [h]
  | cons instruction rest ih =>
    rw [List.cons_append]
    cases hfirst : instructionCost costs instruction with
    | error e => rw [pathCost_cons_error hfirst, pathCost_cons_error hfirst]
    | ok first =>
      rw [pathCost_cons_ok hfirst, pathCost_cons_ok hfirst, ih]
      cases pathCost costs rest <;> cases pathCost costs more <;>
        simp [Except.map, Int.add_assoc]

/-- Behind instructions that can be priced, an offence is the failure of the path, whatever
    follows. -/
theorem pathCost_eq_error_of_offence {before : List Instruction} {offender : Instruction}
    {e : Failure} (hbefore : ∀ earlier ∈ before, Priceable costs earlier)
    (hoffence : Offence costs offender e) (after : List Instruction) :
    pathCost costs (before ++ offender :: after) = .error e := by
  obtain ⟨total, htotal⟩ := exists_pathCost_eq_ok_iff.mpr hbefore
  rw [pathCost_append, htotal, pathCost_cons_error (instructionCost_eq_error_iff.mpr hoffence)]

/-- A path fails with the offence of its first instruction that cannot be priced. -/
theorem pathCost_eq_error_iff {e : Failure} :
    pathCost costs path = .error e
      ↔ ∃ before offender after, path = before ++ offender :: after
        ∧ (∀ earlier ∈ before, Priceable costs earlier) ∧ Offence costs offender e := by
  constructor
  · intro h
    induction path with
    | nil => cases h
    | cons instruction rest ih =>
      cases hfirst : instructionCost costs instruction with
      | error offence =>
        rw [pathCost_cons_error hfirst] at h
        cases h
        exact ⟨[], instruction, rest, rfl, nofun, instructionCost_eq_error_iff.mp hfirst⟩
      | ok first =>
        have hrest : pathCost costs rest = .error e := by
          rw [pathCost_cons_ok hfirst] at h
          cases hlater : pathCost costs rest with
          | ok others => rw [hlater] at h; cases h
          | error later => rw [hlater] at h; cases h; rfl
        obtain ⟨before, offender, after, rfl, hbefore, hoffence⟩ := ih hrest
        have hpriceable := exists_instructionCost_eq_ok_iff.mp ⟨first, hfirst⟩
        exact ⟨instruction :: before, offender, after, rfl,
          List.forall_mem_cons.mpr ⟨hpriceable, hbefore⟩, hoffence⟩
  · rintro ⟨before, offender, after, rfl, hbefore, hoffence⟩
    exact pathCost_eq_error_of_offence hbefore hoffence after

/-! ## What is raised -/

/-- What a failure is raised as: the cause of its diagnostic, or the refusal to show the datum at
    fault. -/
def Failure.raised (e : Failure) : Except Unshowable Diagnostic.Cause :=
  e.diagnostic.map (·.cause)

theorem raised_unknownOpcode (opcode : Datum) :
    (Failure.unknownOpcode opcode).raised
      = if opcode.isWritable then .ok (.unknownOpcode opcode) else .error .tooManyDigits := by
  rw [Failure.raised, Failure.diagnostic, Diagnostic.ofUnknownOpcode, Datum.shown]
  split <;> rfl

theorem raised_unknownLibraryFunction {callee : Datum} (h : callee.isWritable = true) :
    (Failure.unknownLibraryFunction callee).raised = .ok (.unknownLibraryFunction callee) := by
  rw [Failure.raised, Failure.diagnostic, Diagnostic.ofUnknownLibraryFunction,
    Datum.shown_of_isWritable h]
  rfl

/-- **The price of a path, exactly.** Under any cost table a path has a cost exactly when every
    instruction has a known opcode and a first callee, if any, that names no routine or one with
    an entry. The cost is then the sum of the prices. Otherwise the path fails with the offence of
    its first offending instruction, and what follows that one has no influence; so do two paths
    one behind the other add up, or fail as the first that fails. A failure is raised as the
    diagnostic that carries the callee, or the opcode where it is within the limit of decimals,
    and the refusal to write that opcode otherwise. -/
theorem pathCost_exact (costs : RoutineCosts) (path : List Instruction) :
    ((∃ total, pathCost costs path = .ok total)
        ↔ ∀ instruction ∈ path, Priceable costs instruction)
      ∧ (∀ total, pathCost costs path = .ok total
        ↔ ∃ prices, List.Forall₂ (Price costs) path prices ∧ total = prices.sum)
      ∧ (∀ e, pathCost costs path = .error e
        ↔ ∃ before offender after, path = before ++ offender :: after
          ∧ (∀ earlier ∈ before, Priceable costs earlier) ∧ Offence costs offender e)
      ∧ (∀ before offender after e, path = before ++ offender :: after →
        (∀ earlier ∈ before, Priceable costs earlier) → Offence costs offender e →
          ∀ others, pathCost costs (before ++ offender :: others) = .error e)
      ∧ (∀ more, pathCost costs (path ++ more) =
        match pathCost costs path, pathCost costs more with
        | .ok a, .ok b => .ok (a + b)
        | .error e, _ => .error e
        | .ok _, .error e => .error e)
      ∧ (∀ opcode, pathCost costs path = .error (.unknownOpcode opcode) →
        (Failure.unknownOpcode opcode).raised
          = if opcode.isWritable then .ok (.unknownOpcode opcode) else .error .tooManyDigits)
      ∧ ∀ callee, pathCost costs path = .error (.unknownLibraryFunction callee) →
        (Failure.unknownLibraryFunction callee).raised = .ok (.unknownLibraryFunction callee) := by
  refine ⟨exists_pathCost_eq_ok_iff, fun total => pathCost_eq_ok_iff,
    fun e => pathCost_eq_error_iff, ?_, pathCost_append costs path,
    fun opcode _ => raised_unknownOpcode opcode, ?_⟩
  · intro before offender after e _ hbefore hoffence
    exact pathCost_eq_error_of_offence hbefore hoffence
  · intro callee hfails
    obtain ⟨before, offender, after, -, -, hoffence⟩ := pathCost_eq_error_iff.mp hfails
    cases hoffence with
    | callee _ _ hroutine _ => exact raised_unknownLibraryFunction hroutine.isWritable

/-- A table with one entry. -/
def multiplyOnly : RoutineCosts := ⟨[(.multiply, 34)]⟩

/-- A plain instruction, a call of a priced routine with an unpriced one behind it, and a call of a
    function. -/
def calls : List Instruction :=
  [{ opcode := .text "ADDI" },
    { opcode := .opcode .pseudoCall, callees := some [.text "__mulsi3", .routine .memset] },
    { opcode := .text "PseudoCALL", callees := some [.text "helper", .text "memset"] }]

/-- A call of an unpriced routine. -/
def unpricedCall : Instruction := { opcode := .text "PseudoCALL", callees := some [.text "memset"] }

theorem pathCost_exact_partial :
    pathCost multiplyOnly calls = .ok (1 + (5 + 34) + 5)
      ∧ (∀ others, pathCost multiplyOnly (calls ++ unpricedCall :: others)
        = .error (.unknownLibraryFunction (.text "memset")))
      ∧ ∀ others, pathCost multiplyOnly (calls ++ { unpricedCall with opcode := .int 8 } :: others)
        = .error (.unknownOpcode (.int 8)) := by
  obtain ⟨hpriceable, hcost, -⟩ := pathCost_exact multiplyOnly calls
  have haddi : (Datum.text "ADDI").NamesOpcode .addi := .tag
  have hcall : (Datum.text "PseudoCALL").NamesOpcode .pseudoCall := .tag
  have hmultiply : (Datum.text "__mulsi3").NamesRoutine .multiply := .symbol
  have hmemset : (Datum.text "memset").NamesRoutine .memset := .symbol
  have hplain : ∀ routine, ¬ (Datum.text "helper").NamesRoutine routine :=
    Datum.routine?_eq_none_iff.mp (by decide)
  have htotal : pathCost multiplyOnly calls = .ok (1 + (5 + 34) + 5) := by
    refine (hcost _).mpr ⟨[1 + 0, 5 + 34, 5 + 0], .cons ?_ (.cons ?_ (.cons ?_ .nil)), by decide⟩
    · exact .mk haddi (by decide) .uncalled
    · exact .mk .member (by decide) (.library hmultiply (by decide))
    · exact .mk hcall (by decide) (.plain hplain)
  have hcalls := hpriceable.mp ⟨_, htotal⟩
  refine ⟨htotal, ?_, ?_⟩
  · obtain ⟨-, -, -, hlater, -⟩ := pathCost_exact multiplyOnly (calls ++ [unpricedCall])
    exact hlater calls unpricedCall [] _ rfl hcalls (.callee hcall rfl hmemset (by decide))
  · obtain ⟨-, -, -, hlater, -⟩ :=
      pathCost_exact multiplyOnly (calls ++ [{ unpricedCall with opcode := .int 8 }])
    exact hlater calls { unpricedCall with opcode := .int 8 } [] _ rfl hcalls (.opcode nofun)

/-- An opcode of one digit more than the limit of decimals is not carried by a diagnostic. -/
theorem pathCost_beyond_limit :
    pathCost routineCosts [{ opcode := .int (10 ^ 4300) }]
        = .error (.unknownOpcode (.int (10 ^ 4300)))
      ∧ (Failure.unknownOpcode (.int (10 ^ 4300))).raised = .error .tooManyDigits := by
  refine ⟨rfl, ?_⟩
  rw [raised_unknownOpcode, if_neg]
  decide +kernel

end Pricing

end CoreTiming
