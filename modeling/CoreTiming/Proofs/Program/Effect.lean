import CoreTiming.Proofs.Program.WriteBack

/-!
# The effect of writing back

What writing an address book back does, whatever indexes and addresses it holds. A key is live,
dropped or bad by the length of its subroutine alone. Several live keys may lead to one instruction,
one counting from the start and one from the end, and then the last of them in the order of the book
wins. The writing ends at the first bad key, and nothing else ends it.

Results:
* `place_of_isLive`, `place_of_isDropped`, `place_of_isBad`: where the keys lead;
* `overwrite_setAddress`: storing the address of a live key and then those of later entries is
  storing all of them;
* `applyEntries_eq_effect`: writing back is storing the entries before the first bad key;
* `apply_apply`: writing back once more changes nothing;
* `apply_of_named`: if every key names an instruction by its index from the start, then writing back
  notes nothing, counts the keys, and gives each instruction the address that was reported last for
  its key;
* `apply_exact`: the effect of any history of reports.
-/

namespace CoreTiming

open CoreTiming.Alignment

/-! ## What keys lead to -/

namespace Program

/-- The number of instructions under a label, if it has a subroutine. -/
def lengthOf? (program : Program) (label : String) : Option Nat :=
  (program.find? label).map (·.instructions.length)

/-- Whether a key leads to an instruction, counted from the start or from the end. -/
def isLive (program : Program) (key : String × Int) : Bool :=
  (program.lengthOf? key.1).any fun length : Nat => -length ≤ key.2 ∧ key.2 < length

/-- Whether a key has no subroutine, or leads past its end. -/
def isDropped (program : Program) (key : String × Int) : Bool :=
  (program.lengthOf? key.1).all fun length : Nat => length ≤ key.2

/-- Whether a key leads back past the start of its subroutine. -/
def isBad (program : Program) (key : String × Int) : Bool :=
  (program.lengthOf? key.1).any fun length : Nat => key.2 < -length

variable {program : Program} {label : String} {index : Int}

/-- A key is live, dropped or bad, and only one of these. -/
theorem kind_cases (program : Program) (key : String × Int) :
    (program.isLive key = true ∧ program.isDropped key = false ∧ program.isBad key = false)
      ∨ (program.isLive key = false ∧ program.isDropped key = true ∧ program.isBad key = false)
      ∨ (program.isLive key = false ∧ program.isDropped key = false
          ∧ program.isBad key = true) := by
  unfold isLive isDropped isBad
  cases program.lengthOf? key.1 with
  | none => exact .inr (.inl ⟨rfl, rfl, rfl⟩)
  | some length =>
    simp only [Option.any_some, Option.all_some, decide_eq_true_eq, decide_eq_false_iff_not]
    omega

theorem kind_of_isLive {key : String × Int} (h : program.isLive key = true) :
    program.isDropped key = false ∧ program.isBad key = false := by
  rcases program.kind_cases key with ⟨-, hother⟩ | ⟨hlive, -⟩ | ⟨hlive, -⟩
  · exact hother
  · exact absurd (h.symm.trans hlive) (by decide)
  · exact absurd (h.symm.trans hlive) (by decide)

end Program

namespace AddressBook

variable {program : Program} {label : String} {index : Int}

theorem place_eq (program : Program) (label : String) (index : Int) :
    place program label index
      = ((program.lengthOf? label).map (placeIn · index)).getD .nowhere := by
  unfold place Program.lengthOf?
  cases program.find? label <;> rfl

/-- A live key leads to its index, or to that far before the end. -/
theorem place_of_isLive (h : program.isLive (label, index) = true) :
    ∃ length position : Nat, program.lengthOf? label = some length ∧ position < length
      ∧ (index = position ∨ index = position - length)
      ∧ place program label index = .inside position := by
  obtain ⟨length, hlength, hlive⟩ := (Option.any_eq_true _ _).1 h
  simp only [decide_eq_true_eq] at hlive
  have hplace : place program label index = placeIn length index := by
    rw [place_eq, hlength]
    rfl
  rcases Int.lt_or_le index 0 with hback | hfront
  · obtain ⟨n, rfl⟩ : ∃ n : Nat, index = -n := ⟨index.natAbs, by omega⟩
    refine ⟨length, length - n, hlength, by omega, .inr (by omega), ?_⟩
    rw [hplace, placeIn, if_neg (by omega), Index.position_neg (by omega) (by omega)]
  · obtain ⟨n, rfl⟩ : ∃ n : Nat, index = n := ⟨index.toNat, by omega⟩
    refine ⟨length, n, hlength, by omega, .inl rfl, ?_⟩
    rw [hplace, placeIn, if_neg (by omega), Index.position_ofNat (by omega)]

theorem place_of_isDropped (h : program.isDropped (label, index) = true) :
    place program label index = .nowhere := by
  unfold Program.isDropped at h
  rw [place_eq]
  cases hlength : program.lengthOf? label with
  | none => rfl
  | some length =>
    simp only [hlength, Option.all_some, decide_eq_true_eq] at h
    exact if_pos h

theorem place_of_isBad (h : program.isBad (label, index) = true) :
    place program label index = .beforeStart ⟨index⟩ := by
  obtain ⟨length, hlength, hbad⟩ := (Option.any_eq_true _ _).1 h
  simp only [decide_eq_true_eq] at hbad
  have hposition : Index.position length index = .error ⟨index⟩ := by
    rw [Index.position, if_neg (by omega), if_neg (by omega)]
  rw [place_eq, hlength, Option.map_some, Option.getD_some, placeIn, if_neg (by omega), hposition]

end AddressBook

/-! ## What is stored -/

namespace AddressBook

/-- The address of an instruction, under a label and an index. -/
abbrev KeyedAddress := (String × Int) × Datum

/-- Whether an entry leads to the instruction at a position of the subroutine with a label and a
    length. -/
def leadsTo (label : String) (length : Nat) (position : Int) (entry : KeyedAddress) : Bool :=
  entry.1 = (label, position) ∨ entry.1 = (label, position - length)

/-- The address in the last of the entries that lead to an instruction. -/
def lastAt? (entries : List KeyedAddress) (label : String) (length : Nat) (position : Int) :
    Option Datum :=
  ((entries.filter (leadsTo label length position)).map (·.2)).getLast?

theorem lastAt?_cons (entry : KeyedAddress) (rest : List KeyedAddress) (label : String)
    (length : Nat) (position : Int) :
    lastAt? (entry :: rest) label length position
      = (lastAt? rest label length position).or
          (if leadsTo label length position entry then some entry.2 else none) := by
  unfold lastAt?
  by_cases h : leadsTo label length position entry
  · rw [List.filter_cons_of_pos h, if_pos h, List.map_cons, List.getLast?_cons]
    cases ((rest.filter (leadsTo label length position)).map (·.2)).getLast? <;> rfl
  · rw [List.filter_cons_of_neg h, if_neg h, Option.or_none]

end AddressBook

open AddressBook (KeyedAddress lastAt? lastAt?_cons leadsTo)

/-- A subroutine whose instructions get the addresses of the last entries that lead to them. -/
def Subroutine.overwrite (entries : List KeyedAddress) (s : Subroutine) : Subroutine :=
  s.readdress fun key => lastAt? entries key.1 s.instructions.length key.2

namespace Program

/-- A program whose instructions get the addresses of the last entries that lead to them. -/
def overwrite (program : Program) (entries : List KeyedAddress) : Program :=
  ⟨program.subroutines.map (Subroutine.overwrite entries), by
    rw [List.map_map]
    exact program.nodup_labels⟩

theorem eq_of_subroutines {p q : Program} (h : p.subroutines = q.subroutines) : p = q := by
  cases p
  cases q
  cases h
  rfl

variable {program : Program} {label : String} {index : Int} {address : Datum}

@[simp] theorem overwrite_nil (program : Program) : program.overwrite [] = program := by
  apply eq_of_subroutines
  have same : program.subroutines.map (Subroutine.overwrite []) = program.subroutines.map id :=
    List.map_congr_left fun s _ => Subroutine.readdress_none s
  exact same.trans (List.map_id _)

theorem lengthOf?_label {s : Subroutine} (h : s ∈ program.subroutines) :
    program.lengthOf? s.label = some s.instructions.length := by
  rw [lengthOf?, find?_label h, Option.map_some]

theorem leadsTo_eq_false {s : Subroutine} (hs : s ∈ program.subroutines) {entry : KeyedAddress}
    (h : program.isLive entry.1 = false) {j : Nat} (hj : j < s.instructions.length) :
    leadsTo s.label s.instructions.length j entry = false := by
  obtain ⟨⟨label, index⟩, address⟩ := entry
  by_contra hleads
  have hlength := lengthOf?_label hs
  simp only [leadsTo, Bool.not_eq_false, decide_eq_true_eq, Prod.mk.injEq] at hleads
  obtain rfl : label = s.label := by
    rcases hleads with ⟨hlabel, -⟩ | ⟨hlabel, -⟩ <;> exact hlabel
  simp only [isLive, hlength, Option.any_some, decide_eq_false_iff_not] at h
  rcases hleads with ⟨-, hindex⟩ | ⟨-, hindex⟩ <;> omega

theorem overwrite_cons_of_not_live {entry : KeyedAddress} (h : program.isLive entry.1 = false)
    (rest : List KeyedAddress) : program.overwrite (entry :: rest) = program.overwrite rest := by
  apply eq_of_subroutines
  refine List.map_congr_left fun s hs => Subroutine.readdress_congr fun j hj => ?_
  rw [lastAt?_cons, leadsTo_eq_false hs h hj]
  simp

/-- Storing the address of a live key and then those of later entries is storing all of them. -/
theorem overwrite_setAddress {length position : Nat}
    (hlength : program.lengthOf? label = some length) (hposition : position < length)
    (hindex : index = position ∨ index = position - length) (rest : List KeyedAddress) :
    (program.setAddress label position address).overwrite rest
      = program.overwrite (((label, index), address) :: rest) := by
  apply eq_of_subroutines
  simp only [overwrite, setAddress, update, List.map_map]
  refine List.map_congr_left fun s hs => ?_
  rw [Function.comp_apply, Subroutine.overwrite, length_updateSubroutine_modify,
    Subroutine.readdress_updateSubroutine]
  refine Subroutine.readdress_congr fun j hj => ?_
  rw [lastAt?_cons]
  congr 2
  -- in its own subroutine the key leads to the position that its address is stored at
  by_cases hlabel : label = s.label
  · subst hlabel
    have hsame : length = s.instructions.length :=
      Option.some.inj (hlength.symm.trans (lengthOf?_label hs))
    subst hsame
    simp only [leadsTo, Prod.mk.injEq, true_and, decide_eq_true_eq, eq_iff_iff]
    omega
  · simp [leadsTo, hlabel]

theorem lengthOf?_setAddress (program : Program) (label : String) (position : Nat)
    (address : Datum) :
    (program.setAddress label position address).lengthOf? = program.lengthOf? := by
  funext other
  rw [lengthOf?, lengthOf?, setAddress, find?_update, Option.map_map]
  congr 1
  funext s
  exact length_updateSubroutine_modify label position _ s

theorem lengthOf?_overwrite (program : Program) (entries : List KeyedAddress) :
    (program.overwrite entries).lengthOf? = program.lengthOf? := by
  funext label
  simp only [lengthOf?, find?, overwrite, List.find?_map, Option.map_map]
  congr 1
  funext s
  simp [Subroutine.overwrite, Subroutine.readdress]

/-- The last addresses are the same when they are stored once more. -/
theorem overwrite_overwrite (program : Program) (entries : List KeyedAddress) :
    (program.overwrite entries).overwrite entries = program.overwrite entries := by
  apply eq_of_subroutines
  simp only [overwrite, List.map_map]
  refine List.map_congr_left fun s _ => ?_
  rw [Function.comp_apply, Subroutine.overwrite, Subroutine.overwrite]
  simp only [Subroutine.readdress, List.length_mapIdx, Subroutine.mk.injEq, true_and]
  apply List.ext_getElem?
  intro k
  simp only [List.getElem?_mapIdx]
  cases s.instructions[k]? with
  | none => rfl
  | some i => cases lastAt? entries s.label s.instructions.length k <;> rfl

theorem kind_congr {p q : Program} (h : p.lengthOf? = q.lengthOf?) :
    p.isLive = q.isLive ∧ p.isDropped = q.isDropped ∧ p.isBad = q.isBad := by
  refine ⟨?_, ?_, ?_⟩ <;> funext key
  · rw [isLive, isLive, h]
  · rw [isDropped, isDropped, h]
  · rw [isBad, isBad, h]

end Program

/-! ## The writing as a whole -/

namespace Program

/-- The note on an entry whose key is dropped. -/
def note? (program : Program) (entry : KeyedAddress) : Option Log.Record :=
  if program.isDropped entry.1 then
    some (AddressBook.droppedRecord entry.1.1 entry.1.2 entry.2)
  else none

/-- The entries before the first bad key. -/
def passed (program : Program) (entries : List KeyedAddress) : List KeyedAddress :=
  entries.takeWhile fun entry => !program.isBad entry.1

/-- What writing entries back comes to. -/
def effect (program : Program) (entries : List KeyedAddress) : AddressBook.WriteBack where
  program := program.overwrite (program.passed entries)
  records := (program.passed entries).filterMap program.note?
  written :=
    match entries.find? fun entry => program.isBad entry.1 with
    | some bad => .error ⟨bad.1.2⟩
    | none => .ok (entries.countP fun entry => program.isLive entry.1)

variable {program : Program}

theorem note?_of_isLive {entry : KeyedAddress} (h : program.isLive entry.1 = true) :
    program.note? entry = none := by
  rw [note?, (kind_of_isLive h).1]
  rfl

/-- A program with the same lengths passes over the same entries, with the same notes. -/
theorem effect_of_lengthOf? {p q : Program} (h : q.lengthOf? = p.lengthOf?)
    (entries : List KeyedAddress) :
    q.effect entries
      = { p.effect entries with program := q.overwrite (p.passed entries) } := by
  obtain ⟨hlive, hdropped, hbad⟩ := kind_congr h
  have hnote : q.note? = p.note? := by
    funext entry
    rw [note?, note?, hdropped]
  simp only [effect, passed, hbad, hnote, hlive]

theorem passed_cons {entry : KeyedAddress} (h : program.isBad entry.1 = false)
    (rest : List KeyedAddress) : program.passed (entry :: rest) = entry :: program.passed rest := by
  simp [passed, h]

theorem passed_append {before : List KeyedAddress}
    (h : ∀ entry ∈ before, program.isBad entry.1 = false) (rest : List KeyedAddress) :
    program.passed (before ++ rest) = before ++ program.passed rest := by
  rw [passed, List.takeWhile_append_of_pos (by simpa using h), passed]

theorem effect_of_not_bad {entries : List KeyedAddress}
    (h : ∀ entry ∈ entries, program.isBad entry.1 = false) :
    program.effect entries
      = ⟨program.overwrite entries, entries.filterMap program.note?,
          .ok (entries.countP fun entry => program.isLive entry.1)⟩ := by
  have hpassed : program.passed entries = entries := by
    simpa [passed] using passed_append h []
  have hnone : entries.find? (fun entry => program.isBad entry.1) = none := by
    simpa using h
  rw [effect, hpassed, hnone]

theorem effect_of_bad {before : List KeyedAddress} {entry : KeyedAddress}
    (h : ∀ earlier ∈ before, program.isBad earlier.1 = false)
    (hbad : program.isBad entry.1 = true) (after : List KeyedAddress) :
    program.effect (before ++ entry :: after)
      = ⟨program.overwrite before, before.filterMap program.note?, .error ⟨entry.1.2⟩⟩ := by
  have hpassed : program.passed (before ++ entry :: after) = before := by
    rw [passed_append h, passed, List.takeWhile_cons_of_neg (by simp [hbad]), List.append_nil]
  have hnone : before.find? (fun entry => program.isBad entry.1) = none := by
    simpa using h
  have hfirst : (before ++ entry :: after).find? (fun entry => program.isBad entry.1)
      = some entry := by
    rw [List.find?_append, hnone, Option.none_or, List.find?_cons, hbad]
  rw [effect, hpassed, hfirst]

/-- An entry whose key is not bad is stored before the others, is noted if its key is dropped, and
    counts if it is live. -/
theorem effect_cons {entry : KeyedAddress} (h : program.isBad entry.1 = false)
    (rest : List KeyedAddress) :
    program.effect (entry :: rest)
      = { program := program.overwrite (entry :: program.passed rest)
          records := (program.note? entry).toList ++ (program.effect rest).records
          written := (program.effect rest).written.map
            (· + if program.isLive entry.1 then 1 else 0) } := by
  have hrecords : (entry :: program.passed rest).filterMap program.note?
      = (program.note? entry).toList ++ (program.passed rest).filterMap program.note? := by
    cases hnote : program.note? entry <;> simp [hnote]
  simp only [effect, passed_cons h, hrecords, List.find?_cons, h, List.countP_cons]
  cases rest.find? fun entry => program.isBad entry.1 <;> rfl

end Program

namespace AddressBook

/-- Writing back is storing the entries before the first bad key. -/
theorem applyEntries_eq_effect (entries : List KeyedAddress) (program : Program) :
    applyEntries entries program = program.effect entries := by
  induction entries generalizing program with
  | nil => simp [applyEntries, Program.effect, Program.passed]
  | cons entry rest ih =>
    obtain ⟨⟨label, index⟩, address⟩ := entry
    rcases program.kind_cases (label, index) with
      ⟨hlive, -, hbad⟩ | ⟨hlive, hdropped, hbad⟩ | ⟨-, -, hbad⟩
    · obtain ⟨length, position, hlength, hposition, hindex, hplace⟩ := place_of_isLive hlive
      have hnext := Program.effect_of_lengthOf?
        (Program.lengthOf?_setAddress program label position address) rest
      rw [applyEntries, hplace, Program.effect_cons hbad, Program.note?_of_isLive hlive, hlive]
      simp only [ih, hnext, Program.overwrite_setAddress hlength hposition hindex]
      rfl
    · have hnote : program.note? ((label, index), address)
          = some (droppedRecord label index address) := if_pos hdropped
      have hcount :
          (program.effect rest).written.map (· + 0) = (program.effect rest).written := by
        cases (program.effect rest).written <;> rfl
      rw [applyEntries, place_of_isDropped hdropped, Program.effect_cons hbad,
        Program.overwrite_cons_of_not_live hlive, hnote, hlive]
      simp only [ih, Bool.false_eq_true, if_false, hcount]
      rfl
    · have hfirst := @Program.effect_of_bad program [] ((label, index), address)
        (List.forall_mem_nil _) hbad rest
      rw [Program.overwrite_nil] at hfirst
      rw [applyEntries, place_of_isBad hbad]
      exact hfirst.symm

/-- Writing back once more changes nothing. -/
theorem apply_apply (book : AddressBook) (program : Program) :
    book.apply (book.apply program).program = book.apply program := by
  have hlength : (program.effect book.addresses.entries).program.lengthOf? = program.lengthOf? :=
    Program.lengthOf?_overwrite program _
  have hprogram : (program.effect book.addresses.entries).program.overwrite
      (program.passed book.addresses.entries) = (program.effect book.addresses.entries).program :=
    Program.overwrite_overwrite program _
  simp only [apply, applyEntries_eq_effect]
  rw [Program.effect_of_lengthOf? hlength, hprogram]

/-! ## Keys that name instructions -/

section Named

variable {program : Program} {key : String × Int}

theorem isLive_of_isNamed (h : program.IsNamed key) : program.isLive key = true := by
  obtain ⟨s, j, known, hj, hlt⟩ := h
  have hlength : program.lengthOf? key.1 = some s.instructions.length := by
    rw [Program.lengthOf?, known, Option.map_some]
  simp only [Program.isLive, hlength, Option.any_some, decide_eq_true_eq]
  omega

/-- Where no index counts from the end, the last entry that leads to an instruction is the one
    under its key. -/
theorem lastAt?_of_nonneg {map : OrderedMap (String × Int) Datum} (hnodup : map.keys.Nodup)
    (hnonneg : ∀ entry ∈ map.entries, 0 ≤ entry.1.2) {length position : Nat}
    (h : position < length) (label : String) :
    lastAt? map.entries label length position = map.get? (label, (position : Int)) := by
  have hfilter : map.entries.filter (leadsTo label length position)
      = map.entries.filter (·.1 == (label, (position : Int))) := by
    refine List.filter_congr fun entry hentry => ?_
    have hfront : entry.1 ≠ (label, (position : Int) - length) := by
      intro hkey
      have hback : entry.1.2 = (position : Int) - length := congrArg Prod.snd hkey
      have hindex : 0 ≤ entry.1.2 := hnonneg entry hentry
      omega
    rw [Bool.eq_iff_iff]
    simp [leadsTo, hfront]
  rw [lastAt?, hfilter, OrderedMap.filter_entries hnodup]
  cases map.get? (label, (position : Int)) <;> rfl

/-- Writing back a book of reports whose keys name instructions. -/
theorem apply_of_named {reports : List Report}
    (hnamed : ∀ key ∈ reportedKeys reports, program.IsNamed key) :
    ((empty.recordAll reports).apply program).written
        = .ok (reportedKeys reports).dedup.length
      ∧ ((empty.recordAll reports).apply program).records = []
      ∧ ((empty.recordAll reports).apply program).program.subroutines
          = program.subroutines.map (Subroutine.readdress (lastReported reports)) := by
  have hentries : ∀ entry ∈ (empty.recordAll reports).addresses.entries,
      program.IsNamed entry.1 := fun entry hentry =>
    hnamed entry.1 (mem_keys_recordAll.1 (List.mem_map_of_mem hentry))
  have hlive : ∀ entry ∈ (empty.recordAll reports).addresses.entries,
      program.isLive entry.1 = true := fun entry hentry => isLive_of_isNamed (hentries entry hentry)
  have hnonneg : ∀ entry ∈ (empty.recordAll reports).addresses.entries, 0 ≤ entry.1.2 := by
    intro entry hentry
    obtain ⟨s, j, -, hj, -⟩ := hentries entry hentry
    omega
  rw [apply, applyEntries_eq_effect, Program.effect_of_not_bad fun entry hentry =>
    (Program.kind_of_isLive (hlive entry hentry)).2]
  refine ⟨?_, ?_, List.map_congr_left fun s _ => Subroutine.readdress_congr fun j hj => ?_⟩
  · rw [List.countP_eq_length.2 hlive, length_entries_recordAll]
  · exact List.filterMap_eq_nil_iff.2 fun entry hentry =>
      Program.note?_of_isLive (hlive entry hentry)
  · rw [lastAt?_of_nonneg (nodup_keys_recordAll reports) hnonneg hj, get?_recordAll]

end Named

/-! ## Histories of reports -/

/-- **The effect of writing back is exact.** Take any history of reports and any program. The book
    holds the reported keys in the order of their first reports, each with the address of its last
    report, and each key is live, dropped or bad.

    If no key is bad, the live keys are counted, each instruction gets the address of the last of
    the live keys that lead to it, from the start or from the end, all other addresses stay, and
    each dropped key is noted. Otherwise the first bad key is out of range: the entries before it
    are stored, and none of the later ones. -/
theorem apply_exact (reports : List Report) (program : Program) :
    let book := empty.recordAll reports
    let entries := book.addresses.entries
    entries.map (·.1) = (reportedKeys reports).eraseDups
      ∧ (∀ entry ∈ entries, lastReported reports entry.1 = some entry.2)
      ∧ (∀ key,
          (program.isLive key = true ∧ program.isDropped key = false ∧ program.isBad key = false)
            ∨ (program.isLive key = false ∧ program.isDropped key = true
                ∧ program.isBad key = false)
            ∨ (program.isLive key = false ∧ program.isDropped key = false
                ∧ program.isBad key = true))
      ∧ ((∀ entry ∈ entries, program.isBad entry.1 = false) →
          book.apply program
            = { program := program.overwrite entries
                records := entries.filterMap program.note?
                written := .ok (entries.countP fun entry => program.isLive entry.1) })
      ∧ ∀ before entry after, entries = before ++ entry :: after →
          (∀ earlier ∈ before, program.isBad earlier.1 = false) →
          program.isBad entry.1 = true →
          book.apply program
            = { program := program.overwrite before
                records := before.filterMap program.note?
                written := .error ⟨entry.1.2⟩ } := by
  refine ⟨keys_recordAll reports, fun entry hentry => ?_, program.kind_cases, fun hnone => ?_,
    fun before entry after hentries hbefore hbad => ?_⟩
  · rw [← get?_recordAll]
    exact OrderedMap.get?_of_mem (nodup_keys_recordAll reports) hentry
  · rw [apply, applyEntries_eq_effect, Program.effect_of_not_bad hnone]
  · rw [apply, applyEntries_eq_effect, hentries, Program.effect_of_bad hbefore hbad]

/-- A subroutine of two instructions. -/
def twoBlanks : Program := ⟨[⟨"f", [{ opcode := .null }, { opcode := .null }]⟩], by decide⟩

/-- Two keys of its first instruction, one from the start and one from the end, and between them two
    dropped keys that cannot be shown, by their address and by their index. -/
def crossedReports : List Report :=
  [.instruction "f" 0 (.int 1), .instruction "g" 0 .null,
    .instruction "f" (Nat.pow 10 4300) (.int 5), .instruction "f" (-2) (.int 2),
    .instruction "f" 0 (.int 3)]

/-- These keys with a bad one in front of the last. -/
def brokenReports : List Report :=
  crossedReports.take 3 ++ .instruction "f" (-3) (.int 4) :: crossedReports.drop 3

theorem apply_exact_crossed :
    ((empty.recordAll crossedReports).apply twoBlanks).written = .ok 2
      ∧ ((empty.recordAll crossedReports).apply twoBlanks).program.addresses
        = [("f", [.int 2, .null])]
      ∧ ((empty.recordAll brokenReports).apply twoBlanks).written = .error ⟨-3⟩
      ∧ ((empty.recordAll brokenReports).apply twoBlanks).program.addresses
        = [("f", [.int 3, .null])] := by
  obtain ⟨-, -, -, hwhole, -⟩ := apply_exact crossedReports twoBlanks
  obtain ⟨-, -, -, -, hpart⟩ := apply_exact brokenReports twoBlanks
  have hwhole := hwhole (by decide +kernel)
  have hpart := hpart ((empty.recordAll brokenReports).addresses.entries.take 3)
    (("f", -3), .int 4) [(("f", -2), .int 2)] (by decide +kernel) (by decide +kernel)
    (by decide +kernel)
  rw [hwhole, hpart]
  decide +kernel

end AddressBook

end CoreTiming
