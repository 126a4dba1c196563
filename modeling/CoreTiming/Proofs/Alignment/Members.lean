import CoreTiming.Proofs.Alignment.Congruence

/-!
# Members in the tables of rules

An instruction is looked up by the tag of its opcode, and the tables of the rules are taken as they
are given. So an opcode that stands in a table as a member, and not by its tag, is never found, not
even by an instruction that has the same member for its opcode.

Results:
* `listed_retag`, `get?_retag`: for a look-up, giving members for some tags is the same as striking
  those tags out;
* `align_retag`: so it is for every pass, and a pass over a program that has none of these opcodes
  does not notice it;
* `align_retag_placeholder`: another pass does, and takes the wrong instruction.
-/

namespace CoreTiming

namespace Datum

/-- The chosen opcode whose tag a datum is. -/
def chosenOpcode? (chosen : Opcode → Bool) : Datum → Option Opcode
  | text tag => (Opcode.ofTag? tag).filter chosen
  | _ => none

/-- A datum, with the member given for the tag of a chosen opcode. -/
def retag (chosen : Opcode → Bool) (datum : Datum) : Datum :=
  (datum.chosenOpcode? chosen).elim datum opcode

variable {chosen : Opcode → Bool} {datum : Datum}

theorem eq_text_of_chosenOpcode? {op : Opcode} (h : datum.chosenOpcode? chosen = some op) :
    datum = text op.tag ∧ chosen op = true := by
  cases datum with
  | text tag =>
    obtain ⟨hop, hchosen⟩ := Option.filter_eq_some_iff.1 h
    exact ⟨by rw [Opcode.tag_of_ofTag? hop], hchosen⟩
  | _ => cases h

theorem agrees_opcode_key (op : Opcode) (datum : Datum) : (opcode op).agrees datum.key = false := by
  cases datum <;> rfl

theorem agrees_text_of_ne {value : String} (h : datum ≠ text value) :
    (text value).agrees datum = false := by
  cases datum with
  | text other =>
    have hne : value ≠ other := fun hsame => h (by rw [hsame])
    simpa [agrees, agreesFlat] using hne
  | _ => rfl

end Datum

namespace Alignment

/-- The opcodes that are given as members in each table. -/
structure Retagging where
  placeholders : Opcode → Bool := fun _ => false
  constants : Opcode → Bool := fun _ => false
  checks : Opcode → Bool := fun _ => false

/-- Whether an opcode is given as a member in some table. -/
def Retagging.touches (choice : Retagging) (op : Opcode) : Bool :=
  choice.placeholders op || choice.constants op || choice.checks op

namespace Rules

/-- A pattern under its opcode, with the member given for the tag of a chosen one. -/
def retagCheck (chosen : Opcode → Bool) (check : Datum × Pattern) : Datum × Pattern :=
  (check.1.retag chosen, check.2)

/-- The rules with the members given for the tags of the chosen opcodes. -/
def retag (rules : Rules) (choice : Retagging) : Rules where
  placeholders := rules.placeholders.map (·.retag choice.placeholders)
  constants := rules.constants.map (·.retag choice.constants)
  checks := ⟨rules.checks.entries.map (retagCheck choice.checks)⟩

/-- The rules with the tags of the chosen opcodes struck out. -/
def strike (rules : Rules) (choice : Retagging) : Rules where
  placeholders := rules.placeholders.filter (·.chosenOpcode? choice.placeholders |>.isNone)
  constants := rules.constants.filter (·.chosenOpcode? choice.constants |>.isNone)
  checks := ⟨rules.checks.entries.filter (·.1.chosenOpcode? choice.checks |>.isNone)⟩

/-! ## Looking up -/

variable {chosen : Opcode → Bool}

/-- An entry is found by a key exactly when it agrees and was not made a member. -/
theorem agrees_retag (entry datum : Datum) :
    (entry.retag chosen).agrees datum.key
      = ((entry.chosenOpcode? chosen).isNone && entry.agrees datum.key) := by
  rw [Datum.retag]
  cases entry.chosenOpcode? chosen with
  | none => rfl
  | some op => exact Datum.agrees_opcode_key op datum

theorem listed_retag (table : List Datum) (datum : Datum) :
    listed (table.map (·.retag chosen)) datum.key
      = listed (table.filter (·.chosenOpcode? chosen |>.isNone)) datum.key := by
  unfold listed
  rw [List.any_map, List.any_filter]
  congr 1
  funext entry
  exact agrees_retag entry datum

theorem get?_retag (checks : List (Datum × Pattern)) (datum : Datum) :
    OrderedMap.get? ⟨checks.map (retagCheck chosen)⟩ datum.key
      = OrderedMap.get? ⟨checks.filter (·.1.chosenOpcode? chosen |>.isNone)⟩ datum.key := by
  unfold OrderedMap.get?
  have hfound : (fun check : Datum × Pattern => check.1 == datum.key) ∘ retagCheck chosen
      = fun check => decide ((check.1.chosenOpcode? chosen).isNone = true
          ∧ (check.1 == datum.key) = true) := by
    funext check
    rw [Bool.decide_and, Bool.decide_eq_true, Bool.decide_eq_true]
    exact agrees_retag check.1 datum
  rw [List.find?_map, List.find?_filter, Option.map_map, hfound]
  rfl

/-- Striking tags out is not noticed by the key of another opcode. -/
theorem agrees_strike {datum : Datum} (h : ∀ op, chosen op = true → datum.key ≠ .text op.tag)
    (entry : Datum) :
    ((entry.chosenOpcode? chosen).isNone && entry.agrees datum.key) = entry.agrees datum.key := by
  cases hop : entry.chosenOpcode? chosen with
  | none => rfl
  | some op =>
    obtain ⟨rfl, hchosen⟩ := Datum.eq_text_of_chosenOpcode? hop
    exact (Datum.agrees_text_of_ne (h op hchosen)).symm

theorem listed_strike {datum : Datum} (h : ∀ op, chosen op = true → datum.key ≠ .text op.tag)
    (table : List Datum) :
    listed (table.filter (·.chosenOpcode? chosen |>.isNone)) datum.key
      = listed table datum.key := by
  unfold listed
  rw [List.any_filter]
  congr 1
  funext entry
  exact agrees_strike h entry

theorem get?_strike {datum : Datum} (h : ∀ op, chosen op = true → datum.key ≠ .text op.tag)
    (checks : List (Datum × Pattern)) :
    OrderedMap.get? ⟨checks.filter (·.1.chosenOpcode? chosen |>.isNone)⟩ datum.key
      = OrderedMap.get? ⟨checks⟩ datum.key := by
  unfold OrderedMap.get?
  rw [List.find?_filter]
  congr 2
  funext check
  rw [Bool.decide_and, Bool.decide_eq_true, Bool.decide_eq_true]
  exact agrees_strike h check.1

/-! ## Passes -/

variable (rules : Rules) (choice : Retagging) (i : Instruction)

theorem map_asKey_key {β : Type} {f g : Datum → β} {datum : Datum}
    (h : f datum.key = g datum.key) : datum.key.asKey.map f = datum.key.asKey.map g := by
  unfold Datum.asKey
  split
  · simp only [Except.map, h]
  · rfl

theorem treatedAlike_retag : TreatedAlike (rules.retag choice) (rules.strike choice) i i where
  placeholder_eq := map_asKey_key (listed_retag rules.placeholders i.opcode)
  constant_eq := map_asKey_key (listed_retag rules.constants i.opcode)
  check_eq := map_asKey_key (get?_retag rules.checks.entries i.opcode)

variable {i}

theorem treatedAlike_strike
    (h : ∀ op, choice.touches op = true → i.opcode.key ≠ .text op.tag) :
    TreatedAlike (rules.strike choice) rules i i where
  placeholder_eq := map_asKey_key
    (listed_strike (fun op hop => h op (by simp [Retagging.touches, hop])) rules.placeholders)
  constant_eq := map_asKey_key
    (listed_strike (fun op hop => h op (by simp [Retagging.touches, hop])) rules.constants)
  check_eq := map_asKey_key
    (get?_strike (fun op hop => h op (by simp [Retagging.touches, hop])) rules.checks.entries)

end Rules

theorem related_self {R : Instruction → Instruction → Prop} {program : Program}
    (h : ∀ s ∈ program.subroutines, ∀ i ∈ s.instructions, R i i) : program.Related R program :=
  List.forall₂_same.2 fun s hs => ⟨rfl, List.forall₂_same.2 (h s hs)⟩

/-- **Members in tables are not found.** Give, in any of the tables of any rules, the members for
    the tags of any opcodes. Every pass under these rules is the pass under the rules in which those
    tags are struck out instead. It is the pass under the rules as they were where no instruction of
    the program has one of those opcodes. -/
theorem align_retag (rules : Rules) (choice : Retagging) (program : Program)
    (texts : List String) :
    align (rules.retag choice) program texts = align (rules.strike choice) program texts
      ∧ ((∀ s ∈ program.subroutines, ∀ i ∈ s.instructions, ∀ op, choice.touches op = true →
            i.opcode.key ≠ .text op.tag) →
          align (rules.retag choice) program texts = align rules program texts) := by
  have hretag : align (rules.retag choice) program texts
      = align (rules.strike choice) program texts :=
    align_congr (related_self fun _ _ i _ => rules.treatedAlike_retag choice i) texts
  refine ⟨hretag, fun hother => ?_⟩
  rw [hretag]
  exact align_congr (related_self fun s hs i hi =>
    rules.treatedAlike_strike choice (hother s hs i hi)) texts

/-- Rules by which a listing never shows the instruction that does nothing. -/
def unshownRules : Rules := { placeholders := [.text "IMPLICIT_DEF", .text "NOP"] }

/-- The same rules are wanted, with the member in the table. -/
def memberChoice : Retagging := { placeholders := fun op => op = .nop }

/-- A listing of one instruction. -/
def loneListing : List String := ["00000010 <f>:", "10: addi"]

/-- A program without the instruction that does nothing. -/
def loneProgram : Program :=
  ⟨[⟨"f", [{ opcode := .text "IMPLICIT_DEF" }, { opcode := .opcode .addi }]⟩], by decide⟩

theorem align_retag_unnoticed :
    (∀ s ∈ loneProgram.subroutines, ∀ i ∈ s.instructions, ∀ op, memberChoice.touches op = true →
        i.opcode.key ≠ .text op.tag)
      ∧ (align (unshownRules.retag memberChoice) loneProgram loneListing).1.reports
          = [.symbol "f" (.int 0x10), .instruction "f" 1 (.int 0x10)] := by
  have hother : ∀ s ∈ loneProgram.subroutines, ∀ i ∈ s.instructions, ∀ op,
      memberChoice.touches op = true → i.opcode.key ≠ .text op.tag := by
    intro s hs i hi op hop
    obtain rfl : op = .nop := by simpa [Retagging.touches, memberChoice] using hop
    revert s i
    decide
  obtain ⟨-, hsame⟩ := align_retag unshownRules memberChoice loneProgram loneListing
  rw [hsame hother]
  exact ⟨hother, by decide +kernel⟩

/-- A program with that instruction. -/
def idleProgram : Program :=
  ⟨[⟨"f", [{ opcode := .opcode .nop }, { opcode := .opcode .addi }]⟩], by decide⟩

/-- By its tag the instruction is passed over, and the line stands for the one behind it. Given as
    the member that the program itself has, it is not, and the line stands for the wrong one. -/
theorem align_retag_placeholder :
    (unshownRules.retag memberChoice).placeholders = [.text "IMPLICIT_DEF", .opcode .nop]
      ∧ (align unshownRules idleProgram loneListing).1.reports
          = [.symbol "f" (.int 0x10), .instruction "f" 1 (.int 0x10)]
      ∧ (align (unshownRules.retag memberChoice) idleProgram loneListing).1.reports
          = [.symbol "f" (.int 0x10), .instruction "f" 0 (.int 0x10)] := by
  decide +kernel

end Alignment

end CoreTiming
