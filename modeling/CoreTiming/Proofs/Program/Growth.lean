import Mathlib.Data.List.Induction
import Mathlib.Data.List.Nodup
import CoreTiming.Program.Basic

/-!
# Programs grow at their end

A program is asked and extended one operation at a time (`act`). The specification is a map under
labels that is only ever appended to (`Grows`): an operation leaves what is stored as it is, or puts
one subroutine with a new label behind it.

Results:
* `grows_act`: every operation on a program is one on such a map;
* `subroutines_after`: after any operations the first subroutine offered under each label is stored,
  in the order of the offers;
* `prefix_after`, `act_byLabel_after`: what is stored stays stored in its place, and is what a
  look-up gives from then on;
* `program_grows`: all of it together, from any list of subroutines with distinct labels.
-/

namespace CoreTiming.Program

/-! ## Specification -/

/-- What can be done with a program, one step at a time. -/
inductive Operation where
  | add (s : Subroutine)
  /-- Looks a label up. Where it is missing, an empty subroutine may be created. -/
  | byLabel (label : String) (create : Bool)
  | contains (label : Datum)
  | iterate
  | length

/-- What an operation answers. -/
inductive Answer where
  | added (s : Subroutine)
  | refused (e : DuplicateLabel)
  | found (s : Option Subroutine)
  | member (inside : Except Datum.Unhashable Bool)
  | listed (subroutines : List Subroutine)
  | counted (count : Nat)

/-- One operation on a map under labels that is only ever appended to: what is stored before it,
    its answer, and what is stored after it. -/
inductive Grows (stored : List Subroutine) : Operation → Answer → List Subroutine → Prop
  | added {s : Subroutine} (new : s.label ∉ stored.map (·.label)) :
      Grows stored (.add s) (.added s) (stored ++ [s])
  | refused {s : Subroutine} (known : s.label ∈ stored.map (·.label)) :
      Grows stored (.add s) (.refused ⟨s.label⟩) stored
  | found {s : Subroutine} (known : s ∈ stored) (create : Bool) :
      Grows stored (.byLabel s.label create) (.found (some s)) stored
  | missing {label : String} (new : label ∉ stored.map (·.label)) :
      Grows stored (.byLabel label false) (.found none) stored
  | created {label : String} (new : label ∉ stored.map (·.label)) :
      Grows stored (.byLabel label true) (.found (some ⟨label, []⟩)) (stored ++ [⟨label, []⟩])
  | member (label : String) :
      Grows stored (.contains (.text label))
        (.member (.ok (decide (label ∈ stored.map (·.label))))) stored
  /-- A datum that is no text is no label, and one that cannot be looked up is refused. -/
  | foreign {datum : Datum} (other : ∀ label, datum ≠ .text label) :
      Grows stored (.contains datum) (.member (datum.asKey.map fun _ => false)) stored
  | listed : Grows stored .iterate (.listed stored) stored
  | counted : Grows stored .length (.counted stored.length) stored

/-- The subroutine that an operation stores if its label is new. -/
def Operation.offer? : Operation → Option Subroutine
  | .add s => some s
  | .byLabel label true => some ⟨label, []⟩
  | _ => none

/-- The first subroutine under each label, in order. -/
def firstByLabel : List Subroutine → List Subroutine
  | [] => []
  | s :: rest => s :: (firstByLabel rest).filter (·.label ≠ s.label)

/-- One operation on a program: its answer, and the program after it. -/
def act (program : Program) : Operation → Answer × Program
  | .add s =>
    match program.add s with
    | .ok grown => (.added s, grown)
    | .error e => (.refused e, program)
  | .byLabel label true =>
    let (s, later) := program.findOrCreate label
    (.found (some s), later)
  | .byLabel label false => (.found (program.find? label), program)
  | .contains label => (.member (program.contains label), program)
  | .iterate => (.listed program.subroutines, program)
  | .length => (.counted program.subroutines.length, program)

/-- The program after some operations. -/
def after (program : Program) (done : List Operation) : Program :=
  done.foldl (fun program operation => (program.act operation).2) program

variable {program : Program} {label : String} {s : Subroutine}

/-! ## One operation -/

theorem add_of_not_mem (h : s.label ∉ program.labels) : program.add s = .ok (program.push s h) :=
  dif_neg h

theorem find?_eq_some_iff :
    program.find? label = some s ↔ s ∈ program.subroutines ∧ s.label = label := by
  constructor
  · intro h
    exact ⟨mem_of_find? h, by simpa using List.find?_some h⟩
  · rintro ⟨hmem, rfl⟩
    exact find?_label hmem

theorem findOrCreate_of_mem (h : s ∈ program.subroutines) :
    program.findOrCreate s.label = (s, program) := by
  have hfind := find?_label h
  unfold findOrCreate
  split
  next hfound => rw [Option.some.inj (hfound.symm.trans hfind)]
  next hnone => cases hfind.symm.trans hnone

theorem findOrCreate_of_none (h : program.find? label = none) :
    program.findOrCreate label
      = (⟨label, []⟩, program.push ⟨label, []⟩ (not_mem_labels_of_find? h)) := by
  unfold findOrCreate
  split
  next hfound => cases h.symm.trans hfound
  next => rfl

/-- A look-up of a stored subroutine gives it and changes nothing, also if it may create one. -/
theorem act_byLabel_of_mem (h : s ∈ program.subroutines) (create : Bool) :
    program.act (.byLabel s.label create) = (.found (some s), program) := by
  cases create with
  | false => rw [act, find?_label h]
  | true => rw [act, findOrCreate_of_mem h]

theorem contains_text (program : Program) (label : String) :
    program.contains (.text label)
      = .ok (decide (label ∈ program.subroutines.map (·.label))) := by
  rw [contains, Datum.asKey_of_isHashable rfl]
  simp [Except.map, labels]

theorem contains_of_ne_text {datum : Datum} (h : ∀ label, datum ≠ .text label) :
    program.contains datum = datum.asKey.map fun _ => false := by
  rw [contains, Datum.asKey]
  split
  · cases datum with
    | text label => exact absurd rfl (h label)
    | _ => rfl
  · rfl

/-- Every operation on a program is one on a map that is only appended to. -/
theorem grows_act (program : Program) (operation : Operation) :
    Grows program.subroutines operation (program.act operation).1
      (program.act operation).2.subroutines := by
  cases operation with
  | add s =>
    by_cases h : s.label ∈ program.labels
    · rw [act, add_of_mem h]
      exact .refused h
    · rw [act, add_of_not_mem h]
      exact .added h
  | byLabel label create =>
    cases hfind : program.find? label with
    | some s =>
      obtain ⟨hmem, rfl⟩ := find?_eq_some_iff.1 hfind
      rw [act_byLabel_of_mem hmem]
      exact .found hmem create
    | none =>
      have hnew := not_mem_labels_of_find? hfind
      cases create with
      | false =>
        rw [act, hfind]
        exact .missing hnew
      | true =>
        rw [act, findOrCreate_of_none hfind]
        exact .created hnew
  | contains datum =>
    rw [act]
    by_cases htext : ∃ label, datum = .text label
    · obtain ⟨label, rfl⟩ := htext
      rw [contains_text]
      exact .member label
    · have hother : ∀ label, datum ≠ .text label := not_exists.1 htext
      rw [contains_of_ne_text hother]
      exact .foreign hother
  | iterate => exact .listed
  | length => exact .counted

/-! ## Many operations -/

@[simp] theorem after_nil (program : Program) : program.after [] = program := rfl

theorem after_cons (program : Program) (operation : Operation) (rest : List Operation) :
    program.after (operation :: rest) = (program.act operation).2.after rest := rfl

theorem after_concat (program : Program) (done : List Operation) (operation : Operation) :
    program.after (done ++ [operation]) = ((program.after done).act operation).2 := by
  simp [after]

theorem Grows.isPrefix {stored later : List Subroutine} {operation : Operation} {answer : Answer}
    (h : Grows stored operation answer later) : stored <+: later := by
  cases h with
  | added | created => exact List.prefix_append _ _
  | refused | found | missing | member | foreign | listed | counted => exact List.prefix_rfl

/-- What is stored stays where it is, whatever is done. -/
theorem prefix_after (program : Program) (done : List Operation) :
    program.subroutines <+: (program.after done).subroutines := by
  induction done generalizing program with
  | nil => exact List.prefix_rfl
  | cons operation rest ih =>
    rw [after_cons]
    exact (grows_act program operation).isPrefix.trans (ih _)

theorem act_byLabel_after (h : s ∈ program.subroutines) (done : List Operation) (create : Bool) :
    (program.after done).act (.byLabel s.label create) = (.found (some s), program.after done) :=
  act_byLabel_of_mem ((prefix_after program done).subset h) create

/-- A look-up that may create gives a stored subroutine with the label, which is empty where the
    label is new. -/
theorem exists_of_creating (program : Program) (label : String) :
    ∃ s, (program.act (.byLabel label true)).1 = .found (some s)
      ∧ s ∈ (program.act (.byLabel label true)).2.subroutines ∧ s.label = label
      ∧ (label ∉ program.labels → s = ⟨label, []⟩) := by
  cases hfind : program.find? label with
  | some s =>
    obtain ⟨hmem, rfl⟩ := find?_eq_some_iff.1 hfind
    rw [act_byLabel_of_mem hmem]
    exact ⟨s, rfl, hmem, rfl, fun hnew => absurd (List.mem_map_of_mem hmem) hnew⟩
  | none =>
    rw [act, findOrCreate_of_none hfind]
    exact ⟨⟨label, []⟩, rfl, List.mem_append_right _ (List.mem_singleton_self _), rfl, fun _ => rfl⟩

/-! ## The order of what is stored -/

/-- One more offer counts if its label is new. -/
theorem firstByLabel_concat (offers : List Subroutine) (s : Subroutine) :
    firstByLabel (offers ++ [s])
      = if s.label ∈ offers.map (·.label) then firstByLabel offers
        else firstByLabel offers ++ [s] := by
  induction offers with
  | nil => rfl
  | cons first rest ih =>
    rw [List.cons_append, firstByLabel, ih, firstByLabel]
    by_cases hrest : s.label ∈ rest.map (·.label)
    · have hknown : s.label ∈ (first :: rest).map (·.label) := List.mem_cons_of_mem _ hrest
      rw [if_pos hrest, if_pos hknown]
    · rw [if_neg hrest, List.filter_append]
      by_cases hfirst : s.label = first.label
      · rw [if_pos (by simp [hfirst])]
        simp [hfirst]
      · rw [if_neg (by simpa [hfirst] using hrest)]
        simp [hfirst]

theorem mem_map_label_firstByLabel {offers : List Subroutine} {label : String} :
    label ∈ (firstByLabel offers).map (·.label) ↔ label ∈ offers.map (·.label) := by
  induction offers using List.reverseRecOn with
  | nil => rfl
  | append_singleton offers s ih =>
    rw [firstByLabel_concat]
    split
    next h =>
      rw [ih, List.map_append, List.mem_append, List.map_singleton, List.mem_singleton]
      exact ⟨.inl, fun hlabel => hlabel.elim id fun hs => hs ▸ h⟩
    next =>
      simp only [List.map_append, List.mem_append, ih]

theorem firstByLabel_of_nodup {offers : List Subroutine} (h : (offers.map (·.label)).Nodup) :
    firstByLabel offers = offers := by
  induction offers using List.reverseRecOn with
  | nil => rfl
  | append_singleton offers s ih =>
    rw [List.map_append, List.map_singleton, ← List.concat_eq_append, List.nodup_concat] at h
    rw [firstByLabel_concat, if_neg h.1, ih h.2]

/-- An offer is stored behind all others if its label is new, and nothing else is stored. -/
theorem subroutines_act (program : Program) (operation : Operation) :
    (program.act operation).2.subroutines = match operation.offer? with
      | some s => if s.label ∈ program.labels then program.subroutines
        else program.subroutines ++ [s]
      | none => program.subroutines := by
  have hgrows := grows_act program operation
  generalize (program.act operation).1 = answer at hgrows
  generalize (program.act operation).2.subroutines = later at hgrows ⊢
  cases hgrows with
  | added new | created new => exact (if_neg new).symm
  | refused known => exact (if_pos known).symm
  | @found s known create =>
    cases create with
    | false => rfl
    | true => exact (if_pos (List.mem_map_of_mem known)).symm
  | missing | member | foreign | listed | counted => rfl

/-- After any operations the first subroutine offered under each label is stored, in the order of
    the offers. -/
theorem subroutines_after (program : Program) (done : List Operation) :
    (program.after done).subroutines
      = firstByLabel (program.subroutines ++ done.filterMap Operation.offer?) := by
  induction done using List.reverseRecOn with
  | nil => simp [firstByLabel_of_nodup program.nodup_labels]
  | append_singleton done operation ih =>
    rw [after_concat, subroutines_act, List.filterMap_append, ← List.append_assoc]
    cases hoffer : operation.offer? with
    | none => simpa [hoffer] using ih
    | some s =>
      have hlabels : s.label ∈ (program.after done).labels
          ↔ s.label ∈ (program.subroutines ++ done.filterMap Operation.offer?).map (·.label) := by
        rw [← mem_map_label_firstByLabel, ← ih]
        rfl
      simp only [List.filterMap_cons, hoffer, List.filterMap_nil, firstByLabel_concat, ← ih,
        hlabels]

/-! ## Programs from lists -/

theorem foldlM_add_of_nodup {program : Program} {rest : List Subroutine}
    (h : ((program.subroutines ++ rest).map (·.label)).Nodup) :
    ∃ made, rest.foldlM add program = .ok made
      ∧ made.subroutines = program.subroutines ++ rest := by
  induction rest generalizing program with
  | nil => exact ⟨program, rfl, by simp⟩
  | cons s rest ih =>
    have hnew : s.label ∉ program.labels := by
      rw [List.map_append, List.map_cons, List.nodup_middle, List.nodup_cons] at h
      exact fun hmem => h.1 (List.mem_append_left _ hmem)
    obtain ⟨made, hmade, hsubroutines⟩ :=
      @ih (program.push s hnew) (by simpa [push] using h)
    refine ⟨made, ?_, by simpa [push] using hsubroutines⟩
    rw [List.foldlM_cons, add_of_not_mem hnew]
    exact hmade

/-- Subroutines with distinct labels make a program, which stores them as they are listed. -/
theorem ofList_of_nodup {initial : List Subroutine} (h : (initial.map (·.label)).Nodup) :
    ∃ program, ofList initial = .ok program ∧ program.subroutines = initial :=
  @foldlM_add_of_nodup .empty initial h

/-- **A program is a map under labels that is only appended to.** Subroutines with distinct labels
    make a program. Whatever has been done with it since, the labels of what is stored are distinct,
    each subroutine is found under its own label and under no other, and the first subroutine
    offered under each label is stored, in the order of the offers. The next operation is one on a
    map that is only appended to. Whatever is done later, what is stored stays in its place and is
    what look-ups give. So is the subroutine that a creating look-up gives, a new empty one where
    the label is new. -/
theorem program_grows {initial : List Subroutine} (h : (initial.map (·.label)).Nodup) :
    ∃ program, ofList initial = .ok program ∧ program.subroutines = initial
      ∧ ∀ done : List Operation,
        let current := program.after done
        let stored := current.subroutines
        (stored.map (·.label)).Nodup
          ∧ (∀ label s, current.find? label = some s ↔ s ∈ stored ∧ s.label = label)
          ∧ stored = firstByLabel (initial ++ done.filterMap Operation.offer?)
          ∧ (∀ operation, Grows stored operation (current.act operation).1
            (current.act operation).2.subroutines)
          ∧ (∀ more, stored <+: (current.after more).subroutines
            ∧ ∀ s ∈ stored, ∀ create, (current.after more).act (.byLabel s.label create)
              = (.found (some s), current.after more))
          ∧ ∀ label, ∃ s, (current.act (.byLabel label true)).1 = .found (some s)
            ∧ (label ∉ stored.map (·.label) → s = ⟨label, []⟩)
            ∧ ∀ more create,
              let later := (current.act (.byLabel label true)).2.after more
              later.act (.byLabel label create) = (.found (some s), later) := by
  obtain ⟨program, hprogram, hinitial⟩ := ofList_of_nodup h
  refine ⟨program, hprogram, hinitial, fun done => ?_⟩
  intro current stored
  refine ⟨current.nodup_labels, fun _ _ => find?_eq_some_iff, ?_, grows_act current,
    fun more => ⟨prefix_after current more, fun s hs => act_byLabel_after hs more⟩, fun label => ?_⟩
  · rw [← hinitial]
    exact subroutines_after program done
  · obtain ⟨s, hanswer, hmem, rfl, hempty⟩ := exists_of_creating current label
    exact ⟨s, hanswer, hempty, fun more create => act_byLabel_after hmem more create⟩

/-- A subroutine without instructions is not created anew, a label that was created is refused to
    another subroutine, and both keep their places. -/
theorem program_grows_empty :
    ∃ program, ofList [⟨"f", []⟩] = .ok program
      ∧ (program.after [.byLabel "g" true, .byLabel "f" true,
          .add ⟨"g", [{ opcode := .text "NOP" }]⟩]).subroutines = [⟨"f", []⟩, ⟨"g", []⟩] := by
  obtain ⟨program, hprogram, -, hgrows⟩ := @program_grows [⟨"f", []⟩] (by decide)
  obtain ⟨-, -, hstored, -⟩ := hgrows [.byLabel "g" true, .byLabel "f" true,
    .add ⟨"g", [{ opcode := .text "NOP" }]⟩]
  exact ⟨program, hprogram, hstored.trans rfl⟩

end CoreTiming.Program
