import CoreTiming.OrderedMap
import Mathlib.Data.List.Dedup
import Mathlib.Data.List.Induction

/-!
# Maps filled entry by entry

The keys of a map, what a map holds that was filled from a list, and when two maps are the same.

Results:
* `keys_ofList`, `get?_ofList`: a list fills a map with its keys in the order of their first
  entries, and under each key stands the value of its last entry;
* `eq_of_get?_eq`: maps whose keys are distinct, and stand in the same order over the same values,
  are the same;
* `ofList_append_self`: what a map was last filled with can be filled in again without effect.
-/

namespace CoreTiming.OrderedMap

variable {κ ν : Type} [BEq κ]

theorem ofList_concat (entries : List (κ × ν)) (entry : κ × ν) :
    ofList (entries ++ [entry]) = (ofList entries).insert entry.1 entry.2 := by
  simp [ofList]

variable [LawfulBEq κ]

/-! ## Keys -/

theorem nodup_keys_insert {map : OrderedMap κ ν} (h : map.keys.Nodup) (key : κ) (value : ν) :
    (map.insert key value).keys.Nodup := by
  rw [keys_insert]
  split
  next => exact h
  next habsent =>
    rw [← List.concat_eq_append, List.nodup_concat]
    exact ⟨habsent, h⟩

theorem insert_of_not_mem {map : OrderedMap κ ν} {key : κ} (h : key ∉ map.keys) (value : ν) :
    map.insert key value = ⟨map.entries ++ [(key, value)]⟩ := by
  obtain ⟨entries⟩ := map
  simp only [keys, insert, OrderedMap.mk.injEq] at h ⊢
  induction entries with
  | nil => rfl
  | cons entry rest ih =>
    simp only [List.map_cons, List.mem_cons, not_or] at h
    rw [insertEntry, if_neg (by simpa using Ne.symm h.1), ih h.2, List.cons_append]

theorem get?_eq_none_iff {map : OrderedMap κ ν} {key : κ} :
    map.get? key = none ↔ key ∉ map.keys := by
  simp only [get?, keys, Option.map_eq_none_iff, List.find?_eq_none, beq_iff_eq, List.mem_map,
    not_exists, not_and]

/-! ## Maps of lists -/

/-- The keys stand in the order of their first entries. -/
theorem keys_ofList (entries : List (κ × ν)) :
    (ofList entries).keys = (entries.map (·.1)).eraseDups := by
  induction entries using List.reverseRecOn with
  | nil => rfl
  | append_singleton entries entry ih =>
    rw [ofList_concat, keys_insert, ih, List.map_append, List.eraseDups_append, List.map_singleton]
    by_cases h : entry.1 ∈ entries.map (·.1)
    · rw [if_pos (List.mem_eraseDups.2 h)]
      simp [List.removeAll, h]
    · rw [if_neg (mt List.mem_eraseDups.1 h)]
      simp [List.removeAll, h, List.eraseDups_cons]

theorem nodup_keys_ofList (entries : List (κ × ν)) : (ofList entries).keys.Nodup := by
  induction entries using List.reverseRecOn with
  | nil => exact List.nodup_nil
  | append_singleton entries entry ih =>
    rw [ofList_concat]
    exact nodup_keys_insert ih entry.1 entry.2

/-- Under each key stands the value of its last entry. -/
theorem get?_ofList (entries : List (κ × ν)) (key : κ) :
    (ofList entries).get? key = ((entries.filter (·.1 == key)).map (·.2)).getLast? := by
  induction entries using List.reverseRecOn with
  | nil => rfl
  | append_singleton entries entry ih =>
    rw [ofList_concat]
    by_cases h : entry.1 = key
    · subst h
      simp
    · rw [get?_insert_of_ne (Ne.symm h), ih, List.filter_append,
        List.filter_cons_of_neg (by simpa using h), List.filter_nil, List.append_nil]

/-! ## Maps with distinct keys -/

theorem get?_of_mem {map : OrderedMap κ ν} (hnodup : map.keys.Nodup) {entry : κ × ν}
    (h : entry ∈ map.entries) : map.get? entry.1 = some entry.2 := by
  obtain ⟨entries⟩ := map
  simp only [keys, get?] at hnodup h ⊢
  induction entries with
  | nil => cases h
  | cons first rest ih =>
    rw [List.map_cons, List.nodup_cons] at hnodup
    rcases List.mem_cons.1 h with rfl | h
    · simp
    · have hother : first.1 ≠ entry.1 := fun same =>
        hnodup.1 (same ▸ List.mem_map_of_mem h)
      rw [List.find?_cons_of_neg (by simpa using hother)]
      exact ih hnodup.2 h

/-- What is found under a key stands in the only entry of the key. -/
theorem filter_entries {map : OrderedMap κ ν} (hnodup : map.keys.Nodup) (key : κ) :
    map.entries.filter (·.1 == key) = ((map.get? key).map (key, ·)).toList := by
  obtain ⟨entries⟩ := map
  simp only [keys, get?] at hnodup ⊢
  induction entries with
  | nil => rfl
  | cons first rest ih =>
    rw [List.map_cons, List.nodup_cons] at hnodup
    by_cases h : first.1 = key
    · subst h
      have hrest : rest.filter (·.1 == first.1) = [] := by
        rw [List.filter_eq_nil_iff]
        intro entry hentry hsame
        exact hnodup.1 (beq_iff_eq.1 hsame ▸ List.mem_map_of_mem hentry)
      simp [hrest]
    · rw [List.filter_cons_of_neg (by simpa using h), List.find?_cons_of_neg (by simpa using h)]
      exact ih hnodup.2

/-- The entries are determined by the keys and by what is found under them. -/
theorem entries_eq {map : OrderedMap κ ν} (hnodup : map.keys.Nodup) :
    map.entries = map.keys.filterMap fun key => (map.get? key).map (key, ·) := by
  have hfound : ∀ entry ∈ map.entries,
      (map.get? entry.1).map (entry.1, ·) = some entry := by
    intro entry hentry
    rw [get?_of_mem hnodup hentry]
    rfl
  rw [keys, List.filterMap_map, Function.comp_def, List.filterMap_congr hfound,
    List.filterMap_some]

/-- Maps with the same distinct keys in the same order, over the same values, are the same. -/
theorem eq_of_get?_eq {map other : OrderedMap κ ν} (hnodup : map.keys.Nodup)
    (hkeys : map.keys = other.keys) (hget : ∀ key, map.get? key = other.get? key) :
    map = other := by
  have hentries : map.entries = other.entries := by
    rw [entries_eq hnodup, entries_eq (hkeys ▸ hnodup), hkeys]
    simp only [hget]
  obtain ⟨entries⟩ := map
  exact congrArg OrderedMap.mk hentries

/-- Filling the last entries in once more changes nothing. -/
theorem ofList_append_self (before entries : List (κ × ν)) :
    ofList (before ++ entries ++ entries) = ofList (before ++ entries) := by
  have hpresent : (entries.map (·.1)).removeAll ((before ++ entries).map (·.1)) = [] := by
    rw [List.removeAll, List.filter_eq_nil_iff]
    intro key hkey
    simp only [List.map_append, List.elem_eq_mem, List.mem_append, hkey, or_true, decide_true,
      Bool.not_true, Bool.false_eq_true, not_false_eq_true]
  apply eq_of_get?_eq (nodup_keys_ofList _)
  · rw [keys_ofList, keys_ofList, List.map_append, List.eraseDups_append, hpresent,
      List.eraseDups_nil, List.append_nil]
  · intro key
    simp only [get?_ofList, List.filter_append, List.map_append, List.getLast?_append]
    cases ((entries.filter (·.1 == key)).map (·.2)).getLast? <;> rfl

end CoreTiming.OrderedMap
