import CoreTiming.Proofs.Alignment.Congruence
import CoreTiming.Proofs.Pricing.Path

/-!
# Members and texts in a program

An opcode of a program may be given by its tag, and a callee that is a library routine by its
symbol. The two ways are interchangeable at each instruction on its own (`Instruction.Alike`):
alignment looks instructions up by the tag, pricing resolves both to the member, and writing
addresses back looks at neither.

Results:
* `Alike.treatedAlike`: any rules treat alike instructions alike;
* `apply_alike`: an address book is written back into alike programs in the same way;
* `pathCost_alike`: alike paths have the same price, or fail with an exception of the same kind;
* `alike_indistinguishable`: all of it, for alike programs.
-/

namespace CoreTiming

/-! ## Alike data -/

namespace Datum

/-- Two data that are the same, or that name one opcode. -/
def OpcodeAlike (a b : Datum) : Prop := a = b ∨ ∃ op, a.NamesOpcode op ∧ b.NamesOpcode op

/-- Two data that are the same, or that name one library routine. -/
def CalleeAlike (a b : Datum) : Prop :=
  a = b ∨ ∃ routine, a.NamesRoutine routine ∧ b.NamesRoutine routine

variable {a b : Datum}

theorem NamesOpcode.key_eq {op : Opcode} (h : a.NamesOpcode op) : a.key = .text op.tag := by
  cases h <;> rfl

theorem OpcodeAlike.key_eq (h : a.OpcodeAlike b) : a.key = b.key := by
  rcases h with rfl | ⟨op, ha, hb⟩
  · rfl
  · rw [ha.key_eq, hb.key_eq]

/-- Two data that name an opcode each name the same one, and otherwise they are the same. -/
theorem OpcodeAlike.cases (h : a.OpcodeAlike b) :
    (∃ op, a.opcode? = some op ∧ b.opcode? = some op) ∨ a = b := by
  rcases h with rfl | ⟨op, ha, hb⟩
  · exact .inr rfl
  · exact .inl ⟨op, opcode?_eq_some_iff.mpr ha, opcode?_eq_some_iff.mpr hb⟩

theorem CalleeAlike.routine?_eq (h : a.CalleeAlike b) : a.routine? = b.routine? := by
  rcases h with rfl | ⟨routine, ha, hb⟩
  · rfl
  · rw [routine?_eq_some_iff.mpr ha, routine?_eq_some_iff.mpr hb]

end Datum

/-! ## Alike programs -/

/-- Two instructions with one address, whose opcodes and callees are alike. -/
structure Instruction.Alike (i j : Instruction) : Prop where
  opcode : i.opcode.OpcodeAlike j.opcode
  callees : Option.Rel (List.Forall₂ Datum.CalleeAlike) i.callees j.callees
  address_eq : i.address = j.address

/-- Two programs of alike instructions. -/
def Program.Alike (p q : Program) : Prop := p.Related Instruction.Alike q

variable {i j : Instruction} {p q : Program}

theorem Instruction.Alike.treatedAlike (h : i.Alike j) (rules : Alignment.Rules) :
    Alignment.TreatedAlike rules rules i j where
  placeholder_eq := by rw [Alignment.Rules.isPlaceholder, Alignment.Rules.isPlaceholder,
    h.opcode.key_eq]
  constant_eq := by rw [Alignment.Rules.isConstant, Alignment.Rules.isConstant, h.opcode.key_eq]
  check_eq := by rw [Alignment.Rules.check?, Alignment.Rules.check?, h.opcode.key_eq]

theorem Instruction.Alike.calleeList (h : i.Alike j) :
    List.Forall₂ Datum.CalleeAlike i.calleeList j.calleeList := by
  have hcallees := h.callees
  unfold Instruction.calleeList
  generalize i.callees = is at hcallees ⊢
  generalize j.callees = js at hcallees ⊢
  cases hcallees with
  | none => exact .nil
  | some hcallees => exact hcallees

/-! ## Writing addresses back -/

theorem Program.Alike.addresses_eq (h : p.Alike q) : p.addresses = q.addresses := by
  have hinstructions : ∀ {is js : List Instruction}, List.Forall₂ Instruction.Alike is js →
      is.map (·.address) = js.map (·.address) := by
    intro is js hall
    induction hall with
    | nil => rfl
    | cons hij _ ih => rw [List.map_cons, List.map_cons, hij.address_eq, ih]
  unfold Program.Alike Program.Related at h
  unfold Program.addresses
  generalize p.subroutines = ss at h ⊢
  generalize q.subroutines = ts at h ⊢
  induction h with
  | nil => rfl
  | cons hst _ ih =>
    rw [List.map_cons, List.map_cons, hst.label_eq, hinstructions hst.instructions, ih]

theorem AddressBook.place_alike (h : p.Alike q) (label : String) (index : Int) :
    place p label index = place q label index := by
  have hfound := Program.Related.find? h label
  unfold place
  generalize p.find? label = s at hfound ⊢
  generalize q.find? label = t at hfound ⊢
  cases hfound with
  | none => rfl
  | some hst => simp only [hst.instructions.length_eq]

theorem Program.Alike.setAddress (h : p.Alike q) (label : String) (position : Nat)
    (address : Datum) :
    (p.setAddress label position address).Alike (q.setAddress label position address) := by
  have hmodify : ∀ {is js : List Instruction}, List.Forall₂ Instruction.Alike is js →
      ∀ position, List.Forall₂ Instruction.Alike
        (is.modify position fun i => { i with address })
        (js.modify position fun i => { i with address }) := by
    intro is js hall
    induction hall with
    | nil =>
      intro position
      simp
    | cons hij hrest ih =>
      intro position
      cases position with
      | zero => exact .cons ⟨hij.opcode, hij.callees, rfl⟩ hrest
      | succ position => exact .cons hij (ih position)
  unfold Program.Alike Program.Related at h
  unfold Program.Alike Program.Related Program.setAddress Program.update
  simp only
  generalize p.subroutines = ss at h ⊢
  generalize q.subroutines = ts at h ⊢
  induction h with
  | nil => exact .nil
  | @cons s t ss ts hst _ ih =>
    refine .cons ⟨?_, ?_⟩ ih
    · rw [label_updateSubroutine, label_updateSubroutine, hst.label_eq]
    · unfold updateSubroutine
      rw [hst.label_eq]
      split
      · exact hmodify hst.instructions position
      · exact hst.instructions

/-- What writing back does to alike programs: the notes and the count or the fault are the same, and
    the programs stay alike. -/
structure AddressBook.WriteBack.Alike (a b : WriteBack) : Prop where
  program : a.program.Alike b.program
  records_eq : a.records = b.records
  written_eq : a.written = b.written

theorem AddressBook.applyEntries_alike (h : p.Alike q)
    (entries : List ((String × Int) × Datum)) :
    (applyEntries entries p).Alike (applyEntries entries q) := by
  induction entries generalizing p q with
  | nil => exact ⟨h, rfl, rfl⟩
  | cons entry rest ih =>
    obtain ⟨⟨label, index⟩, address⟩ := entry
    unfold applyEntries
    rw [place_alike h]
    cases place q label index with
    | inside position =>
      obtain ⟨hprogram, hrecords, hwritten⟩ := ih (h.setAddress label position address)
      exact ⟨hprogram, hrecords, by simp only [hwritten]⟩
    | nowhere =>
      obtain ⟨hprogram, hrecords, hwritten⟩ := ih h
      exact ⟨hprogram, by simp only [hrecords], hwritten⟩
    | beforeStart e => exact ⟨h, rfl, rfl⟩

theorem AddressBook.apply_alike (h : p.Alike q) (book : AddressBook) :
    (book.apply p).Alike (book.apply q) :=
  applyEntries_alike h book.addresses.entries

/-! ## Prices -/

namespace Pricing

/-- The kind of what a failure is raised as: that of a diagnostic, or the refusal to show the datum
    at fault. -/
def Failure.kind (e : Failure) : Except Unshowable Diagnostic.Kind := e.raised.map (·.kind)

/-- An outcome with the failure reduced to the kind of what it is raised as. -/
def outcome (cost : Except Failure Int) : Except (Except Unshowable Diagnostic.Kind) Int :=
  cost.mapError Failure.kind

variable {costs : RoutineCosts}

theorem cycleCost_alike (h : i.Alike j) : outcome (cycleCost i) = outcome (cycleCost j) := by
  rcases h.opcode.cases with ⟨op, hi, hj⟩ | hsame
  · rw [cycleCost, cycleCost, opcodeCost, opcodeCost, hi, hj]
  · rw [cycleCost, cycleCost, hsame]

theorem calleeCost_alike (h : i.Alike j) :
    outcome (calleeCost costs i) = outcome (calleeCost costs j) := by
  have hcallees := h.calleeList
  cases hi : i.calleeList with
  | nil =>
    rw [hi, List.forall₂_nil_left_iff] at hcallees
    rw [calleeCost, calleeCost, libraryCallee?, libraryCallee?, hi, hcallees]
  | cons callee later =>
    rw [hi, List.forall₂_cons_left_iff] at hcallees
    obtain ⟨callee', later', hcallee, -, hj⟩ := hcallees
    rw [calleeCost_of_calleeList hi, calleeCost_of_calleeList hj, hcallee.routine?_eq]
    cases hroutine : callee'.routine? with
    | none => rfl
    | some routine =>
      cases hcost : costs.get? routine with
      | some cost => simp only [hcost]
      | none =>
        -- both callees name the routine, so both can be shown
        have hwritable := (Datum.routine?_eq_some_iff.mp hroutine).isWritable
        have hwritable' :=
          (Datum.routine?_eq_some_iff.mp (hcallee.routine?_eq.trans hroutine)).isWritable
        simp only [hcost, outcome, Except.mapError, Failure.kind,
          raised_unknownLibraryFunction hwritable, raised_unknownLibraryFunction hwritable']
        rfl

theorem outcome_instructionCost (costs : RoutineCosts) (i : Instruction) :
    outcome (instructionCost costs i)
      = match outcome (cycleCost i), outcome (calleeCost costs i) with
        | .ok own, .ok surcharge => .ok (own + surcharge)
        | .error kind, _ => .error kind
        | .ok _, .error kind => .error kind := by
  rw [instructionCost_eq]
  cases cycleCost i <;> cases calleeCost costs i <;> rfl

theorem outcome_pathCost_cons (costs : RoutineCosts) (i : Instruction) (rest : List Instruction) :
    outcome (pathCost costs (i :: rest))
      = match outcome (instructionCost costs i) with
        | .ok first => (outcome (pathCost costs rest)).map (first + ·)
        | .error kind => .error kind := by
  cases hfirst : instructionCost costs i with
  | error e => rw [pathCost_cons_error hfirst]; rfl
  | ok first =>
    rw [pathCost_cons_ok hfirst]
    cases pathCost costs rest <;> rfl

/-- Alike paths have the same price, or fail with an exception of the same kind. -/
theorem pathCost_alike {path other : List Instruction}
    (h : List.Forall₂ Instruction.Alike path other) :
    outcome (pathCost costs path) = outcome (pathCost costs other) := by
  induction h with
  | nil => rfl
  | cons hij _ ih =>
    rw [outcome_pathCost_cons, outcome_pathCost_cons, outcome_instructionCost,
      outcome_instructionCost, cycleCost_alike hij, calleeCost_alike hij, ih]

end Pricing

/-! ## The whole -/

/-- **Members and texts are interchangeable.** Let two programs differ only in which opcodes are
    given by their tags and which library routines by their symbols. Under any rules and for any
    listing, a pass over the one is a pass over the other, in its reports, its tally, its records
    and its fault. Any address book is written back into both with the same notes, and to the same
    count or fault, and leaves the same addresses behind. Under any cost table, paths that differ
    in this way have the same price, or fail with an exception of the same kind. -/
theorem alike_indistinguishable {p q : Program} (h : p.Alike q) :
    (∀ rules texts, Alignment.align rules p texts = Alignment.align rules q texts)
      ∧ (∀ book : AddressBook, (book.apply p).written = (book.apply q).written
          ∧ (book.apply p).records = (book.apply q).records
          ∧ (book.apply p).program.addresses = (book.apply q).program.addresses
          ∧ (book.apply p).program.Alike (book.apply q).program)
      ∧ ∀ costs path other, List.Forall₂ Instruction.Alike path other →
          Pricing.outcome (Pricing.pathCost costs path)
            = Pricing.outcome (Pricing.pathCost costs other) := by
  refine ⟨fun rules texts => ?_, fun book => ?_, fun costs path other hpath => ?_⟩
  · exact Alignment.align_congr (h.mono fun i j hij => hij.treatedAlike rules) texts
  · obtain ⟨hprogram, hrecords, hwritten⟩ := AddressBook.apply_alike h book
    exact ⟨hwritten, hrecords, hprogram.addresses_eq, hprogram⟩
  · exact Pricing.pathCost_alike hpath

/-- A program with two opcodes and a callee given as members, and one opcode given by its tag. -/
def memberProgram : Program :=
  ⟨[⟨"main", [{ opcode := .opcode .pseudoCall, callees := some [.routine .multiply] },
    { opcode := .text "ADDI" }, { opcode := .opcode .lui }]⟩], by decide⟩

/-- The same program with the texts for the members and the member for the tag. -/
def textProgram : Program :=
  ⟨[⟨"main", [{ opcode := .text "PseudoCALL", callees := some [.text "__mulsi3"] },
    { opcode := .opcode .addi }, { opcode := .text "LUI" }]⟩], by decide⟩

/-- A listing that shows another instruction in place of the third one. -/
def callListing : List String := ["00000010 <main>:", "10: call", "14: addi", "18: ret"]

theorem alike_indistinguishable_mixed :
    memberProgram.Alike textProgram
      ∧ (Alignment.align {} memberProgram callListing).2
          = .error (.mismatch (.int 0x18) "ret" "lui")
      ∧ (Alignment.align {} textProgram callListing).2
          = .error (.mismatch (.int 0x18) "ret" "lui")
      ∧ Pricing.outcome
          (Pricing.pathCost Pricing.routineCosts (memberProgram.instructionsOf "main"))
          = .ok ((5 + 34) + 1 + 1)
      ∧ Pricing.outcome (Pricing.pathCost Pricing.routineCosts (textProgram.instructionsOf "main"))
          = .ok ((5 + 34) + 1 + 1) := by
  have hcall : Datum.OpcodeAlike (.opcode .pseudoCall) (.text "PseudoCALL") :=
    .inr ⟨.pseudoCall, .member, .tag⟩
  have hmultiply : Datum.CalleeAlike (.routine .multiply) (.text "__mulsi3") :=
    .inr ⟨.multiply, .member, .symbol⟩
  have haddi : Datum.OpcodeAlike (.text "ADDI") (.opcode .addi) := .inr ⟨.addi, .tag, .member⟩
  have hlui : Datum.OpcodeAlike (.opcode .lui) (.text "LUI") := .inr ⟨.lui, .member, .tag⟩
  have hpath : List.Forall₂ Instruction.Alike (memberProgram.instructionsOf "main")
      (textProgram.instructionsOf "main") :=
    .cons ⟨hcall, .some (.cons hmultiply .nil), rfl⟩
      (.cons ⟨haddi, .some .nil, rfl⟩ (.cons ⟨hlui, .some .nil, rfl⟩ .nil))
  have h : memberProgram.Alike textProgram := .cons ⟨rfl, hpath⟩ .nil
  have hpass : (Alignment.align {} memberProgram callListing).2
      = .error (.mismatch (.int 0x18) "ret" "lui") := by decide +kernel
  have hcost : Pricing.outcome
      (Pricing.pathCost Pricing.routineCosts (memberProgram.instructionsOf "main"))
        = .ok ((5 + 34) + 1 + 1) := rfl
  obtain ⟨halign, -, hprice⟩ := alike_indistinguishable h
  refine ⟨h, hpass, ?_, hcost, ?_⟩
  · rw [← halign]
    exact hpass
  · rw [← hprice _ _ _ hpath]
    exact hcost

end CoreTiming
