import CoreTiming.Alignment.Journal
import CoreTiming.Proofs.OrderedMap

/-!
# Books of reports, and programs with other addresses

What an address book holds after some reports, and what it is to give the instructions of a program
the addresses that are found under their keys.

Results:
* `recordAll_eq_ofList`: a book of reports holds two maps, each filled from the reports of its kind;
* `keys_recordAll`: its keys are those that were reported, in the order of their first reports;
* `get?_recordAll`, `get?_symbols_recordAll`: under each key and each label stands the address of
  its last report;
* `readdress_updateSubroutine`: storing one address and then others is storing all of them.
-/

namespace CoreTiming

/-! ## What an address book holds -/

namespace Alignment

/-- The key of a reported instruction. -/
def Report.key? : Report → Option (String × Int)
  | .symbol _ _ => none
  | .instruction label index _ => some (label, index)

/-- The entry that a report makes for an instruction. -/
def Report.entry? : Report → Option ((String × Int) × Datum)
  | .symbol _ _ => none
  | .instruction label index address => some ((label, index), address)

/-- The entry that a report makes for a label. -/
def Report.symbolEntry? : Report → Option (String × Datum)
  | .symbol label address => some (label, address)
  | .instruction _ _ _ => none

/-- The address that a report gives to a key. -/
def Report.addressFor? (key : String × Int) : Report → Option Datum
  | .symbol _ _ => none
  | .instruction label index address => if (label, index) = key then some address else none

/-- The address that a report gives to a label. -/
def Report.symbolFor? (label : String) : Report → Option Datum
  | .symbol other address => if other = label then some address else none
  | .instruction _ _ _ => none

/-- The keys of the reported instructions, one for each report. -/
def reportedKeys (reports : List Report) : List (String × Int) := reports.filterMap Report.key?

/-- The address that was reported last for a key. -/
def lastReported (reports : List Report) (key : String × Int) : Option Datum :=
  (reports.filterMap (Report.addressFor? key)).getLast?

theorem reportedKeys_concat (reports : List Report) (report : Report) :
    reportedKeys (reports ++ [report]) = reportedKeys reports ++ report.key?.toList := by
  cases report <;> simp [reportedKeys, Report.key?]

theorem mem_reportedKeys {reports : List Report} {key : String × Int} :
    key ∈ reportedKeys reports ↔ ∃ address, .instruction key.1 key.2 address ∈ reports := by
  unfold reportedKeys
  rw [List.mem_filterMap]
  constructor
  · rintro ⟨report, hreport, hkey⟩
    cases report with
    | symbol label address => cases hkey
    | instruction label index address =>
      cases hkey
      exact ⟨address, hreport⟩
  · rintro ⟨address, hreport⟩
    exact ⟨_, hreport, rfl⟩

end Alignment

namespace AddressBook

open CoreTiming.Alignment

theorem recordAll_concat (book : AddressBook) (reports : List Report) (report : Report) :
    book.recordAll (reports ++ [report]) = (book.recordAll reports).record report := by
  rw [recordAll_append]
  rfl

/-- A book of reports holds two maps, each filled from the reports of its kind. -/
theorem recordAll_eq_ofList (reports : List Report) :
    empty.recordAll reports
      = ⟨.ofList (reports.filterMap Report.symbolEntry?),
          .ofList (reports.filterMap Report.entry?)⟩ := by
  induction reports using List.reverseRecOn with
  | nil => rfl
  | append_singleton reports report ih =>
    rw [recordAll_concat, ih, List.filterMap_append, List.filterMap_append]
    cases report <;>
      simp [record, addSymbol, addAddress, List.filterMap_cons, Report.entry?,
        Report.symbolEntry?, OrderedMap.ofList_concat]

/-- The keys stand in the order of their first reports. -/
theorem keys_recordAll (reports : List Report) :
    (empty.recordAll reports).addresses.keys = (reportedKeys reports).eraseDups := by
  have hkeys : (reports.filterMap Report.entry?).map (·.1) = reportedKeys reports := by
    rw [List.map_filterMap, reportedKeys]
    congr 1
    funext report
    cases report <;> rfl
  rw [recordAll_eq_ofList, OrderedMap.keys_ofList, hkeys]

theorem nodup_keys_recordAll (reports : List Report) :
    (empty.recordAll reports).addresses.keys.Nodup := by
  rw [recordAll_eq_ofList]
  exact OrderedMap.nodup_keys_ofList _

theorem mem_keys_recordAll {reports : List Report} {key : String × Int} :
    key ∈ (empty.recordAll reports).addresses.keys ↔ key ∈ reportedKeys reports := by
  rw [keys_recordAll, List.mem_eraseDups]

/-- Under each key stands the address of its last report. -/
theorem get?_recordAll (reports : List Report) (key : String × Int) :
    (empty.recordAll reports).addresses.get? key = lastReported reports key := by
  rw [recordAll_eq_ofList, OrderedMap.get?_ofList, List.filter_filterMap, List.map_filterMap,
    lastReported]
  congr 2
  funext report
  cases report with
  | symbol label address => rfl
  | instruction label index address =>
    by_cases h : (label, index) = key <;> simp [Report.entry?, Report.addressFor?, h]

theorem get?_symbols_recordAll (reports : List Report) (label : String) :
    (empty.recordAll reports).symbols.get? label
      = (reports.filterMap (Report.symbolFor? label)).getLast? := by
  rw [recordAll_eq_ofList, OrderedMap.get?_ofList, List.filter_filterMap, List.map_filterMap]
  congr 2
  funext report
  cases report with
  | symbol other address =>
    by_cases h : other = label <;> simp [Report.symbolEntry?, Report.symbolFor?, h]
  | instruction other index address => rfl

theorem length_entries_recordAll (reports : List Report) :
    (empty.recordAll reports).addresses.entries.length = (reportedKeys reports).dedup.length := by
  have hperm : ((empty.recordAll reports).addresses.keys).Perm (reportedKeys reports).dedup :=
    (List.perm_ext_iff_of_nodup (nodup_keys_recordAll reports) (List.nodup_dedup _)).2
      fun key => by rw [mem_keys_recordAll, List.mem_dedup]
  rw [← hperm.length_eq, OrderedMap.keys, List.length_map]

end AddressBook

namespace Alignment

theorem lastReported_eq_none_iff {reports : List Report} {key : String × Int} :
    lastReported reports key = none ↔ key ∉ reportedKeys reports := by
  rw [← AddressBook.get?_recordAll, OrderedMap.get?_eq_none_iff, AddressBook.mem_keys_recordAll]

theorem mem_of_lastReported {reports : List Report} {key : String × Int} {address : Datum}
    (h : lastReported reports key = some address) :
    .instruction key.1 key.2 address ∈ reports := by
  obtain ⟨report, hreport, hfor⟩ := List.mem_filterMap.1 (List.mem_of_getLast? h)
  cases report with
  | symbol other found => cases hfor
  | instruction label index found =>
    obtain ⟨rfl, rfl⟩ : (label, index) = key ∧ found = address := by
      simpa [Report.addressFor?] using hfor
    exact hreport

/-- Where no key is reported twice, every report is the last one for its key. -/
theorem lastReported_of_mem {reports : List Report} (hnodup : (reportedKeys reports).Nodup)
    {label : String} {index : Int} {address : Datum}
    (h : .instruction label index address ∈ reports) :
    lastReported reports (label, index) = some address := by
  induction reports using List.reverseRecOn with
  | nil => cases h
  | append_singleton reports report ih =>
    rw [reportedKeys_concat, List.nodup_append] at hnodup
    obtain ⟨hfront, -, hapart⟩ := hnodup
    rw [lastReported, List.filterMap_append]
    rcases List.mem_append.1 h with h | h
    · have hreported : (label, index) ∈ reportedKeys reports := mem_reportedKeys.2 ⟨address, h⟩
      have hother : report.addressFor? (label, index) = none := by
        cases report with
        | symbol other address => rfl
        | instruction other index' address =>
          refine if_neg fun hkey => ?_
          exact hapart _ hreported (other, index') (by simp [Report.key?]) hkey.symm
      rw [List.filterMap_cons_none hother, List.filterMap_nil, List.append_nil]
      exact ih hfront h
    · rw [← List.mem_singleton.1 h]
      simp [Report.addressFor?]

end Alignment

/-! ## Writing entries back -/

/-- A subroutine whose instructions get the addresses found under their keys. -/
def Subroutine.readdress (found? : String × Int → Option Datum) (s : Subroutine) : Subroutine :=
  { s with
    instructions := s.instructions.mapIdx fun j i =>
      match found? (s.label, j) with
      | some address => { i with address }
      | none => i }

namespace Program

/-- A key names an instruction of the program, by its index from the start. -/
def IsNamed (program : Program) (key : String × Int) : Prop :=
  ∃ (s : Subroutine) (j : Nat), program.find? key.1 = some s ∧ key.2 = j
    ∧ j < s.instructions.length

variable {program : Program} {label : String}

theorem find?_update (program : Program) (label : String)
    (change : List Instruction → List Instruction) (other : String) :
    (program.update label change).find? other
      = (program.find? other).map (updateSubroutine label change) := by
  simp only [find?, update, List.find?_map, Function.comp_def, label_updateSubroutine]

theorem length_updateSubroutine_modify (label : String) (position : Nat)
    (change : Instruction → Instruction) (s : Subroutine) :
    (updateSubroutine label (·.modify position change) s).instructions.length
      = s.instructions.length := by
  unfold updateSubroutine
  split <;> simp

end Program

theorem Subroutine.readdress_none (s : Subroutine) : s.readdress (fun _ => none) = s := by
  have same : s.instructions.mapIdx (fun _ i => i) = s.instructions := by
    apply List.ext_getElem?
    simp
  simp only [readdress, same]

/-- Only the positions of a subroutine are looked up. -/
theorem Subroutine.readdress_congr {found? other? : String × Int → Option Datum} {s : Subroutine}
    (h : ∀ j < s.instructions.length, found? (s.label, (j : Int)) = other? (s.label, (j : Int))) :
    s.readdress found? = s.readdress other? := by
  have same : ∀ k : Nat,
      (s.readdress found?).instructions[k]? = (s.readdress other?).instructions[k]? := by
    intro k
    simp only [readdress, List.getElem?_mapIdx]
    cases hk : s.instructions[k]? with
    | none => rfl
    | some i => rw [h k (List.getElem?_eq_some_iff.1 hk).1]
  exact congrArg (Subroutine.mk s.label) (List.ext_getElem? same)

/-- Storing the address under one key and then those found under any keys is storing all, what is
    found coming last. -/
theorem Subroutine.readdress_updateSubroutine (label : String) (position : Nat) (address : Datum)
    (found? : String × Int → Option Datum) (s : Subroutine) :
    (Program.updateSubroutine label (·.modify position fun i => { i with address }) s).readdress
        found?
      = s.readdress fun key =>
          (found? key).or (if (label, (position : Int)) = key then some address else none) := by
  unfold Program.updateSubroutine
  by_cases hlabel : s.label = label
  · subst hlabel
    rw [if_pos (by simp)]
    simp only [readdress, Subroutine.mk.injEq, true_and]
    apply List.ext_getElem?
    intro k
    rw [List.getElem?_mapIdx, List.getElem?_mapIdx, List.getElem?_modify]
    by_cases hk : position = k
    · subst hk
      cases found? (s.label, (position : Int)) <;> simp [Function.comp_def]
    · have hk' : ¬((position : Int) = k) := by omega
      simp [hk, hk']
  · rw [if_neg (by simpa using hlabel)]
    have hne : ∀ k : Int, ¬((label, (position : Int)) = (s.label, k)) := by
      intro k hkey
      exact hlabel (congrArg Prod.fst hkey).symm
    simp only [readdress, hne, if_false, Option.or_none]

end CoreTiming
