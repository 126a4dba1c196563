import CoreTiming.Proofs.Alignment.Run
import CoreTiming.Proofs.Program.Effect

/-!
# Recovering the addresses of a program

What an alignment reports can be written back into the program that it was made with. The
reported indexes are those of instructions that exist and are no placeholders, whatever the listing
and the rules are and also when the pass ends early (`names_of_mem_reports`), so writing back
reaches exactly the instructions that were reported (`apply_align`).
-/

namespace CoreTiming.Alignment

open CoreTiming CoreTiming.Listing

variable {rules : Rules} {program : Program}

theorem names_of_mem_reports {texts : List String} {report : Report}
    (h : report ∈ (align rules program texts).1.reports) : report.Names rules program := by
  rw [reports_align] at h
  exact (State.Reached.outside.run rules (readAll texts)).1 report h

/-- A reported key names an instruction that is no placeholder. -/
theorem exists_of_mem_reportedKeys {texts : List String} {key : String × Int}
    (h : key ∈ reportedKeys (align rules program texts).1.reports) :
    ∃ (s : Subroutine) (j : Nat) (i : Instruction), program.find? key.1 = some s ∧ key.2 = j
      ∧ s.instructions[j]? = some i ∧ rules.isPlaceholder i = .ok false := by
  obtain ⟨label, index⟩ := key
  obtain ⟨address, hreport⟩ := mem_reportedKeys.1 h
  cases names_of_mem_reports hreport with
  | @instruction label s j i known stands shown => exact ⟨s, j, i, known, rfl, stands, shown⟩

theorem isNamed_reportedKeys (rules : Rules) (program : Program) (texts : List String) :
    ∀ key ∈ reportedKeys (align rules program texts).1.reports, program.IsNamed key := by
  intro key hkey
  obtain ⟨s, j, i, known, hj, stands, -⟩ := exists_of_mem_reportedKeys hkey
  exact ⟨s, j, known, hj, (List.getElem?_eq_some_iff.1 stands).1⟩

/-- No address is reported for an instruction unless it is known to be no placeholder. -/
theorem lastReported_eq_none {texts : List String} {s : Subroutine} (hs : s ∈ program.subroutines)
    {i : Instruction} {j : Nat} (stands : s.instructions[j]? = some i)
    (hidden : rules.isPlaceholder i ≠ .ok false) :
    lastReported (align rules program texts).1.reports (s.label, (j : Int)) = none := by
  rw [lastReported_eq_none_iff]
  intro hreported
  obtain ⟨t, k, i', known, hk, stands', shown⟩ := exists_of_mem_reportedKeys hreported
  obtain rfl : s = t := Option.some.inj ((Program.find?_label hs).symm.trans known)
  obtain rfl : j = k := Int.ofNat_inj.1 hk
  obtain rfl : i = i' := Option.some.inj (stands.symm.trans stands')
  exact hidden shown

/-- **Alignment and write-back agree on indexes.** Let a book take in the reports of any pass,
    completed or not. Its keys name instructions of the program that are no placeholders. Writing
    it back completes, notes nothing, counts the distinct keys that were reported, and gives every
    instruction the address of the last report for its key; an instruction without a report, like
    every placeholder, keeps its address, and nothing else changes. -/
theorem apply_align (rules : Rules) (program : Program) (texts : List String) :
    (∀ key ∈ (AddressBook.empty.recordAll (align rules program texts).1.reports).addresses.keys,
        ∃ (s : Subroutine) (j : Nat) (i : Instruction), program.find? key.1 = some s ∧ key.2 = j
          ∧ s.instructions[j]? = some i ∧ rules.isPlaceholder i = .ok false)
    ∧ ((AddressBook.empty.recordAll (align rules program texts).1.reports).apply program).written
        = .ok (reportedKeys (align rules program texts).1.reports).dedup.length
    ∧ ((AddressBook.empty.recordAll (align rules program texts).1.reports).apply program).records
        = []
    ∧ ((AddressBook.empty.recordAll
          (align rules program texts).1.reports).apply program).program.subroutines
        = program.subroutines.map
            (Subroutine.readdress (lastReported (align rules program texts).1.reports))
    ∧ ∀ s ∈ program.subroutines, ∀ (j : Nat) (i : Instruction), s.instructions[j]? = some i →
        rules.isPlaceholder i ≠ .ok false →
        lastReported (align rules program texts).1.reports (s.label, j) = none := by
  obtain ⟨hwritten, hrecords, hsubroutines⟩ :=
    AddressBook.apply_of_named (isNamed_reportedKeys rules program texts)
  refine ⟨fun key hkey => ?_, hwritten, hrecords, hsubroutines, ?_⟩
  · exact exists_of_mem_reportedKeys (AddressBook.mem_keys_recordAll.1 hkey)
  · intro s hs j i stands hidden
    exact lastReported_eq_none hs stands hidden

end CoreTiming.Alignment
