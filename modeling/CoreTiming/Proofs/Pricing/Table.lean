import Mathlib.Data.List.Induction
import Mathlib.Data.List.Nodup
import CoreTiming.Pricing.Table
import CoreTiming.Proofs.OrderedMap

/-!
# Which groups make a cost table

The cost table is filled opcode by opcode, through the groups one behind the other. Groups make a
table exactly when every opcode stands in them once; a repeat is noticed where it stands
(`IsFirstRepeat`), and an omission only behind the last group.

Results:
* `foldlM_costs`: filling group by group is filling along one list;
* `foldlM_enter_of_nodup`, `foldlM_enter_of_repeat`: what filling along a list comes to;
* `table_eq_ok_iff`, `table_eq_pricedTwice_iff`, `table_eq_unpriced_iff`: the three endings;
* `table_exact`: all of them together, and what a failure is reported as.
-/

namespace CoreTiming.Pricing

open CoreTiming

/-! ## Specification -/

/-- The first opcode of a list that stands there before: in front of it no opcode stands twice. -/
def IsFirstRepeat (op : Opcode) (ops : List Opcode) : Prop :=
  ∃ before after, ops = before ++ op :: after ∧ before.Nodup ∧ op ∈ before

/-- A list without repeats has no first one, and any other list has. -/
theorem exists_isFirstRepeat {ops : List Opcode} (h : ¬ ops.Nodup) :
    ∃ op, IsFirstRepeat op ops := by
  induction ops using List.reverseRecOn with
  | nil => exact absurd List.nodup_nil h
  | append_singleton front last ih =>
    by_cases hfront : front.Nodup
    · have hlast : last ∈ front := by
        by_contra hnew
        rw [← List.concat_eq_append, List.nodup_concat] at h
        exact h ⟨hnew, hfront⟩
      exact ⟨last, front, [], rfl, hfront, hlast⟩
    · obtain ⟨op, before, after, rfl, hbefore, hop⟩ := ih hfront
      exact ⟨op, before, after ++ [last], by simp, hbefore, hop⟩

/-! ## Filling a table -/

/-- Puts an entry into a table, unless the table has its opcode. -/
def enter (table : OrderedMap Opcode Int) (entry : Opcode × Int) :
    Except TableError (OrderedMap Opcode Int) :=
  price entry.2 table entry.1

variable {g : Groups} {refill : Int} {table : OrderedMap Opcode Int}
  {entries before after : List (Opcode × Int)} {op : Opcode}

theorem foldlM_costs (g : Groups) (refill : Int) (table : OrderedMap Opcode Int) :
    (g.costs refill).foldlM (fun table group => group.1.foldlM (price group.2) table) table
      = (g.priced refill).foldlM enter table := by
  have hgroup (ops : List Opcode) (cost : Int) (table : OrderedMap Opcode Int) :
      (ops.map (·, cost)).foldlM enter table = ops.foldlM (price cost) table := by
    rw [List.foldlM_map]
    rfl
  have htwo : 1 + 1 + refill = 2 + refill := by omega
  simp only [Groups.costs, Groups.priced, List.foldlM_cons, List.foldlM_nil, List.foldlM_append,
    hgroup, htwo, bind_pure, bind_assoc]

theorem foldlM_enter_append {front rest : List (Opcode × Int)} {next : OrderedMap Opcode Int}
    (h : front.foldlM enter table = .ok next) :
    (front ++ rest).foldlM enter table = rest.foldlM enter next := by
  rw [List.foldlM_append, h]
  rfl

/-- Entries of new opcodes come behind those of the table, in their order. -/
theorem foldlM_enter_of_nodup (h : ((table.entries ++ entries).map (·.1)).Nodup) :
    entries.foldlM enter table = .ok ⟨table.entries ++ entries⟩ := by
  induction entries generalizing table with
  | nil => simp [pure, Except.pure]
  | cons entry rest ih =>
    have hnew : entry.1 ∉ table.keys := by
      rw [List.map_append, List.map_cons, List.nodup_middle, List.nodup_cons] at h
      exact fun hmem => h.1 (List.mem_append_left _ hmem)
    have hentered : [entry].foldlM enter table = .ok ⟨table.entries ++ [entry]⟩ := by
      rw [List.foldlM_cons, enter, price, if_neg hnew, OrderedMap.insert_of_not_mem hnew]
      rfl
    rw [← List.singleton_append, foldlM_enter_append hentered, ih (by simpa using h),
      List.append_assoc]

/-- An opcode that the table has already, or that stands among the entries before, ends the
    filling, whatever follows. -/
theorem foldlM_enter_of_repeat (hbefore : ((table.entries ++ before).map (·.1)).Nodup)
    (hop : op ∈ (table.entries ++ before).map (·.1)) (cost : Int)
    (after : List (Opcode × Int)) :
    (before ++ (op, cost) :: after).foldlM enter table = .error (.pricedTwice op) := by
  have hrefused : enter ⟨table.entries ++ before⟩ (op, cost) = .error (.pricedTwice op) :=
    if_pos hop
  rw [foldlM_enter_append (foldlM_enter_of_nodup hbefore), List.foldlM_cons, hrefused]
  rfl

/-! ## Tables of groups -/

/-- A table is filled entry by entry, and then held against the opcodes. -/
theorem table_eq (g : Groups) (refill : Int) :
    g.table refill =
      match (g.priced refill).foldlM enter .empty with
      | .error e => .error e
      | .ok table =>
        match missing table.keys with
        | [] => .ok table.entries
        | ops => .error (.unpriced ops) := by
  rw [Groups.table, foldlM_costs]
  rcases (g.priced refill).foldlM enter .empty with e | table
  · rfl
  · rfl

theorem table_of_nodup (h : g.opcodes.Nodup) (refill : Int) :
    g.table refill =
      match missing g.opcodes with
      | [] => .ok (g.priced refill)
      | ops => .error (.unpriced ops) := by
  have hfilled : (g.priced refill).foldlM enter .empty = .ok ⟨g.priced refill⟩ :=
    foldlM_enter_of_nodup (by simpa [OrderedMap.empty] using h)
  have hkeys : (⟨g.priced refill⟩ : OrderedMap Opcode Int).keys = g.opcodes :=
    g.map_fst_priced refill
  simp only [table_eq, hfilled, hkeys]

theorem table_of_isFirstRepeat (h : IsFirstRepeat op g.opcodes) (refill : Int) :
    g.table refill = .error (.pricedTwice op) := by
  obtain ⟨before, after, hsplit, hbefore, hop⟩ := h
  rw [← g.map_fst_priced refill] at hsplit
  obtain ⟨front, rest, hpriced, rfl, hrest⟩ := List.map_eq_append_iff.1 hsplit
  obtain ⟨⟨_, cost⟩, later, rfl, rfl, -⟩ := List.map_eq_cons_iff.1 hrest
  rw [table_eq, hpriced, foldlM_enter_of_repeat (by simpa [OrderedMap.empty] using hbefore)
    (by simpa [OrderedMap.empty] using hop)]

theorem missing_eq_nil_iff {ops : List Opcode} : missing ops = [] ↔ ∀ op, op ∈ ops := by
  simp [missing, List.filter_eq_nil_iff, Opcode.mem_all]

theorem forall_count_eq_one_iff {ops : List Opcode} :
    (∀ op, ops.count op = 1) ↔ ops.Nodup ∧ ∀ op, op ∈ ops := by
  constructor
  · intro h
    exact ⟨List.nodup_iff_count_eq_one.2 fun op _ => h op,
      fun op => List.count_pos_iff.1 (by rw [h]; decide)⟩
  · rintro ⟨hnodup, hmem⟩ op
    exact List.nodup_iff_count_eq_one.1 hnodup op (hmem op)

/-- A table is made exactly where every opcode stands once, and it is that of the groups. -/
theorem table_eq_ok_iff {made : List (Opcode × Int)} :
    g.table refill = .ok made ↔ (∀ op, g.opcodes.count op = 1) ∧ made = g.priced refill := by
  rw [forall_count_eq_one_iff]
  by_cases hnodup : g.opcodes.Nodup
  · rw [table_of_nodup hnodup, ← missing_eq_nil_iff]
    cases missing g.opcodes with
    | nil => simp [hnodup, eq_comm]
    | cons => simp
  · obtain ⟨op, hop⟩ := exists_isFirstRepeat hnodup
    simp [table_of_isFirstRepeat hop, hnodup]

theorem table_eq_pricedTwice_iff :
    g.table refill = .error (.pricedTwice op) ↔ IsFirstRepeat op g.opcodes := by
  refine ⟨fun h => ?_, fun h => table_of_isFirstRepeat h refill⟩
  by_cases hnodup : g.opcodes.Nodup
  · rw [table_of_nodup hnodup] at h
    split at h <;> simp at h
  · obtain ⟨first, hfirst⟩ := exists_isFirstRepeat hnodup
    rw [table_of_isFirstRepeat hfirst] at h
    cases h
    exact hfirst

theorem table_eq_unpriced_iff {ops : List Opcode} :
    g.table refill = .error (.unpriced ops)
      ↔ g.opcodes.Nodup ∧ missing g.opcodes ≠ [] ∧ ops = missing g.opcodes := by
  by_cases hnodup : g.opcodes.Nodup
  · rw [table_of_nodup hnodup]
    cases missing g.opcodes with
    | nil => simp
    | cons => simp [hnodup, eq_comm]
  · obtain ⟨first, hfirst⟩ := exists_isFirstRepeat hnodup
    simp [table_of_isFirstRepeat hfirst, hnodup]

/-- **Groups make a table exactly if they share the opcodes out.** Whatever the three groups and the
    cycles lost on a refill, there is a table exactly when every opcode stands once in the groups
    one behind the other. It has the opcodes in that order, the single ones at one cycle and the
    others at one and two more than a refill. Otherwise the configuration is to blame: for the first
    opcode that stands before already, whether or not others are missing, and without a repeat for
    the missing opcodes, which are listed in the order of declaration. -/
theorem table_exact (g : Groups) (refill : Int) :
    let ops := g.single ++ g.transfer ++ g.twoStep
    let absent := Opcode.all.filter (· ∉ ops)
    ((∃ made, g.table refill = .ok made) ↔ ∀ op, ops.count op = 1)
      ∧ (∀ made, g.table refill = .ok made → made.map (·.1) = ops
        ∧ made = g.single.map (·, 1) ++ g.transfer.map (·, 1 + refill)
          ++ g.twoStep.map (·, 2 + refill))
      ∧ (∀ op, g.table refill = .error (.pricedTwice op) ↔ IsFirstRepeat op ops)
      ∧ (∀ listed, g.table refill = .error (.unpriced listed)
        ↔ ops.Nodup ∧ absent ≠ [] ∧ listed = absent)
      ∧ ∀ e, g.table refill = .error e → e.diagnostic =
        { cause := .configuration
          message := .text (match e with
            | .pricedTwice op => "Opcode " ++ op.tag ++ " priced twice"
            | .unpriced listed =>
              "No cycle cost for opcode(s): " ++ ", ".intercalate (listed.map Opcode.tag)) } := by
  intro ops absent
  refine ⟨?_, ?_, fun op => table_eq_pricedTwice_iff, fun listed => table_eq_unpriced_iff, ?_⟩
  · simp only [table_eq_ok_iff, exists_and_left, exists_eq, and_true]
    rfl
  · intro made h
    obtain ⟨-, rfl⟩ := table_eq_ok_iff.1 h
    exact ⟨g.map_fst_priced refill, rfl⟩
  · rintro (op | listed) - <;> rfl

/-- The groups of the core, with one opcode again at the end of its own group, one again in another
    group, and one nowhere. -/
def overlapping : Groups := (groups.without [.nop]).append ⟨[], [.jal], [.lui]⟩

theorem table_exact_overlapping :
    overlapping.table 7 = .error (.pricedTwice .jal)
      ∧ (groups.without [.nop, .jal]).table 7 = .error (.unpriced [.jal, .nop])
      ∧ ∃ made, groups.table 7 = .ok made := by
  obtain ⟨-, -, hrepeat, -⟩ := table_exact overlapping 7
  obtain ⟨-, -, -, hunpriced, -⟩ := table_exact (groups.without [.nop, .jal]) 7
  obtain ⟨hmade, -⟩ := table_exact groups 7
  refine ⟨(hrepeat .jal).2 ⟨(groups.without [.nop]).single ++ groups.transfer,
    groups.twoStep ++ [.lui], ?_⟩, (hunpriced _).2 ?_, hmade.2 fun op => ?_⟩
  · decide +kernel
  · decide +kernel
  · cases op <;> decide +kernel

end CoreTiming.Pricing
