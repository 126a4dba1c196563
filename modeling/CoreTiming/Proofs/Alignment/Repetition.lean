import CoreTiming.Proofs.Alignment.Account
import CoreTiming.Proofs.Alignment.Congruence
import CoreTiming.Proofs.Alignment.Recovery
import CoreTiming.Proofs.Program.Effect

/-!
# Alignment repeated

A pass reads opcodes, labels and lengths; what it reports goes into a book, and writing the book
back stores addresses. No part reads what another one writes, and overwriting keeps the last values
at the first positions, so doing all of it again changes nothing.

Results:
* `align_apply`: a pass over a program with other addresses is the same pass;
* `recordAll_recordAll`: a book that took in some reports last is not changed by taking them in
  again;
* `isBad_of_mem_entries`: no key of a book that took in a pass is bad, if the earlier reports have
  indexes from the start;
* `align_again`: a second pass, with or without a write-back before it, and a second write-back.
-/

namespace CoreTiming.Alignment

open CoreTiming CoreTiming.Listing

variable {rules : Rules} {program : Program}

/-! ## The second pass -/

theorem related_overwrite (program : Program) (entries : List AddressBook.KeyedAddress) :
    program.Related (fun i j => i.opcode = j.opcode) (program.overwrite entries) := by
  unfold Program.Related Program.overwrite
  rw [List.forall₂_map_right_iff, List.forall₂_same]
  refine fun s _ => ⟨rfl, List.forall₂_iff_get.2 ⟨?_, fun k hk hk' => ?_⟩⟩
  · simp [Subroutine.overwrite, Subroutine.readdress]
  · simp only [Subroutine.overwrite, Subroutine.readdress, List.get_eq_getElem,
      List.getElem_mapIdx]
    split <;> rfl

/-- A pass over a program with other addresses is the same pass. -/
theorem align_apply (rules : Rules) (program : Program) (texts : List String)
    (book : AddressBook) :
    align rules (book.apply program).program texts = align rules program texts := by
  have hrelated : program.Related (TreatedAlike rules rules) (book.apply program).program := by
    rw [AddressBook.apply, AddressBook.applyEntries_eq_effect]
    refine (related_overwrite program _).mono fun i j hopcode => ⟨?_, ?_, ?_⟩
    · rw [Rules.isPlaceholder, Rules.isPlaceholder, hopcode]
    · rw [Rules.isConstant, Rules.isConstant, hopcode]
    · rw [Rules.check?, Rules.check?, hopcode]
  exact (align_congr hrelated texts).symm

theorem align_completes_or_mismatch (h : program.IsHashable) (rules : Rules)
    (texts : List String) :
    (∃ tally, (align rules program texts).2 = .ok tally)
      ∨ ∃ address mnemonic pattern,
          (align rules program texts).2 = .error (.mismatch address mnemonic pattern) := by
  rcases hrun : run rules program .outside (readAll texts) with ⟨journal, e | last⟩
  · have hmismatch : e.isMismatch = true :=
      isMismatch_of_run h .outside rules (by rw [hrun])
    rw [align_of_run_error hrun]
    cases e with
    | mismatch address mnemonic pattern => exact .inr ⟨address, mnemonic, pattern, rfl⟩
    | _ => cases hmismatch
  · rw [align_of_run_ok hrun]
    exact .inl ⟨_, rfl⟩

end CoreTiming.Alignment

namespace CoreTiming.AddressBook

open CoreTiming.Alignment

/-! ## The book -/

/-- A book that took in some reports last is not changed by taking them in again. -/
theorem recordAll_recordAll (prior reports : List Report) :
    ((empty.recordAll prior).recordAll reports).recordAll reports
      = (empty.recordAll prior).recordAll reports := by
  rw [← recordAll_append empty, ← recordAll_append empty, recordAll_eq_ofList, recordAll_eq_ofList]
  simp only [List.filterMap_append, OrderedMap.ofList_append_self]

theorem mem_of_mem_entries {reports : List Report} {entry : KeyedAddress}
    (h : entry ∈ (empty.recordAll reports).addresses.entries) :
    .instruction entry.1.1 entry.1.2 entry.2 ∈ reports := by
  apply mem_of_lastReported
  rw [← get?_recordAll]
  exact OrderedMap.get?_of_mem (nodup_keys_recordAll reports) h

/-! ## The write-back -/

theorem isBad_of_nonneg {key : String × Int} (h : 0 ≤ key.2) (program : Program) :
    program.isBad key = false := by
  unfold Program.isBad
  cases program.lengthOf? key.1 with
  | none => rfl
  | some length =>
    simp only [Option.any_some, decide_eq_false_iff_not]
    omega

end CoreTiming.AddressBook

namespace CoreTiming.Alignment

theorem isBad_of_mem_entries {prior : List Report}
    (hprior : ∀ label index address, .instruction label index address ∈ prior → 0 ≤ index)
    (rules : Rules) (program : Program) (texts : List String)
    {entry : AddressBook.KeyedAddress}
    (h : entry ∈ ((AddressBook.empty.recordAll prior).recordAll
      (align rules program texts).1.reports).addresses.entries) :
    program.isBad entry.1 = false := by
  rw [← AddressBook.recordAll_append] at h
  rcases List.mem_append.1 (AddressBook.mem_of_mem_entries h) with hearlier | hpass
  · exact AddressBook.isBad_of_nonneg (hprior _ _ _ hearlier) program
  · have hreported : entry.1 ∈ reportedKeys (align rules program texts).1.reports :=
      mem_reportedKeys.2 ⟨entry.2, hpass⟩
    have hlive := AddressBook.isLive_of_isNamed
      (isNamed_reportedKeys rules program texts _ hreported)
    exact (Program.kind_of_isLive hlive).2

/-- **Alignment repeated is alignment made once.** Let a book with any earlier reports take in those
    of a pass, and write it back. Taking the reports in again changes neither map of the book. A
    second pass is the first one, also over the program written back, and where opcodes can be
    looked up it completes or ends with a mismatch. Writing the book back once more leaves the same
    addresses and comes to the same count. It comes to the number of live keys, if the earlier
    indexes count from the start; otherwise it may come to the same bad key instead. -/
theorem align_again (rules : Rules) (program : Program) (texts : List String)
    (prior : List Report) :
    let pass := align rules program texts
    let book := (AddressBook.empty.recordAll prior).recordAll pass.1.reports
    let written := book.apply program
    book.recordAll pass.1.reports = book
      ∧ (program.IsHashable → (∃ tally, pass.2 = .ok tally)
          ∨ ∃ address mnemonic pattern, pass.2 = .error (.mismatch address mnemonic pattern))
      ∧ (∀ between : AddressBook,
          align rules (between.apply program).program texts = pass)
      ∧ book.apply written.program = written
      ∧ (book.recordAll (align rules written.program texts).1.reports).apply written.program
          = written
      ∧ ((∀ label index address, .instruction label index address ∈ prior → 0 ≤ index) →
          written.written
            = .ok (book.addresses.entries.countP fun entry => program.isLive entry.1)) := by
  intro pass book written
  have hbook : book.recordAll pass.1.reports = book := AddressBook.recordAll_recordAll prior _
  have hwritten : book.apply written.program = written := AddressBook.apply_apply book program
  refine ⟨hbook, fun h => align_completes_or_mismatch h rules texts,
    fun between => align_apply rules program texts between, hwritten, ?_, fun hprior => ?_⟩
  · rw [align_apply, hbook, hwritten]
  · have hnone : ∀ entry ∈ book.addresses.entries, program.isBad entry.1 = false :=
      fun entry hentry => isBad_of_mem_entries hprior rules program texts hentry
    have heffect := Program.effect_of_not_bad hnone
    rw [← AddressBook.applyEntries_eq_effect] at heffect
    exact congrArg AddressBook.WriteBack.written heffect

/-- Reports of both instructions of `upperPair`, and one of an unknown label whose address cannot be
    shown. -/
def earlierReports : List Report :=
  [.instruction "f" 1 (.int 9), .instruction "g" 7 .null, .instruction "f" 0 (.int 5)]

/-- A listing whose last line contradicts the pattern. -/
def brokenListing : List String := ["00000010 <f>:", "10: lui", "00000020 <f>:", "20: li"]

theorem align_again_broken :
    upperPair.IsHashable
      ∧ (∃ address mnemonic source,
          (align {} upperPair brokenListing).2 = .error (.mismatch address mnemonic source))
      ∧ (((AddressBook.empty.recordAll earlierReports).recordAll
            (align {} upperPair brokenListing).1.reports).apply upperPair).written = .ok 2
      ∧ (((AddressBook.empty.recordAll earlierReports).recordAll
            (align {} upperPair brokenListing).1.reports).apply upperPair).program.addresses
          = [("f", [.int 5, .int 0x20])] := by
  have h : upperPair.IsHashable := by decide
  have hprior : ∀ label index address,
      .instruction label index address ∈ earlierReports → 0 ≤ index := by
    simp [earlierReports]
    omega
  obtain ⟨-, hends, -, -, -, hcount⟩ := align_again {} upperPair brokenListing earlierReports
  have hfails : ¬ ∃ tally, (align {} upperPair brokenListing).2 = .ok tally := by
    have hnone : (align {} upperPair brokenListing).2.toOption = none := by decide +kernel
    rintro ⟨tally, htally⟩
    rw [htally] at hnone
    cases hnone
  exact ⟨h, (hends h).resolve_left hfails, (hcount hprior).trans (by decide +kernel),
    by decide +kernel⟩

end CoreTiming.Alignment
