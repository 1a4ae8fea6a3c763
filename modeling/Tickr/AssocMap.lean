import Mathlib.Data.List.Nodup
import Mathlib.Tactic.Common

/-! Maps as lists of entries under distinct keys, in no particular order. -/
namespace AssocMap

variable {κ ν : Type}

def Keyed (m : List (κ × ν)) : Prop := (m.map Prod.fst).Nodup

variable [DecidableEq κ]

/-- `m[key] = value`. -/
def assign (m : List (κ × ν)) (e : κ × ν) : List (κ × ν) := m.filter (fun old => old.1 ≠ e.1) ++ [e]

def assignAll (m entries : List (κ × ν)) : List (κ × ν) := entries.foldl assign m

theorem Keyed.assign {m : List (κ × ν)} (keyed : Keyed m) (e : κ × ν) : Keyed (assign m e) := by
  rw [Keyed, AssocMap.assign, List.map_append, List.nodup_append]
  refine ⟨keyed.sublist (List.filter_sublist.map _),List.nodup_singleton _,?_⟩
  intro key kept key' new
  obtain ⟨old,member,rfl⟩ := List.mem_map.mp kept
  rw [List.mem_singleton.mp new]
  exact of_decide_eq_true (List.mem_filter.mp member).2

theorem Keyed.assignAll {m : List (κ × ν)} (keyed : Keyed m) (entries : List (κ × ν)) : Keyed (assignAll m entries) := by
  induction entries generalizing m with
  | nil => exact keyed
  | cons e rest ih => exact ih (keyed.assign e)

theorem lookup_filter_ne (m : List (κ × ν)) {key set : κ} (other : key ≠ set) :
    (m.filter (fun old => old.1 ≠ set)).lookup key = m.lookup key := by
  induction m with
  | nil => rfl
  | cons e rest ih =>
    obtain ⟨k,v⟩ := e
    by_cases same : k = set
    · subst same
      rw [List.filter_cons_of_neg (by simp), ih, List.lookup_cons, beq_false_of_ne other]
    · rw [List.filter_cons_of_pos (by simpa using same), List.lookup_cons, List.lookup_cons, ih]

theorem lookup_assign (m : List (κ × ν)) (e : κ × ν) (key : κ) :
    (assign m e).lookup key = if key = e.1 then some e.2 else m.lookup key := by
  obtain ⟨set,value⟩ := e
  rw [assign, List.lookup_append]
  by_cases same : key = set
  · have gone : (m.filter (fun old => old.1 ≠ set)).lookup key = none := by
      refine List.lookup_eq_none_iff.mpr fun old member => ?_
      have other := of_decide_eq_true (List.mem_filter.mp member).2
      exact bne_iff_ne.mpr fun is => other (is.symm.trans same)
    rw [gone, if_pos same, same]
    simp
  · rw [lookup_filter_ne m same, if_neg same]
    simp [List.lookup_cons, beq_false_of_ne same]

/-- The entries that are assigned are found, and nothing else changes. -/
theorem lookup_assignAll {entries : List (κ × ν)} (keyed : Keyed entries) (m : List (κ × ν)) :
    (∀ e ∈ entries, (assignAll m entries).lookup e.1 = some e.2) ∧
    ∀ key, key ∉ entries.map Prod.fst → (assignAll m entries).lookup key = m.lookup key := by
  induction entries generalizing m with
  | nil => exact ⟨fun _ impossible => absurd impossible List.not_mem_nil,fun _ _ => rfl⟩
  | cons e rest ih =>
    obtain ⟨new,apart⟩ := List.nodup_cons.mp keyed
    obtain ⟨found,kept⟩ := ih apart (assign m e)
    refine ⟨fun e' member => ?_,fun key absent => ?_⟩
    · rcases List.mem_cons.mp member with rfl | later
      · exact (kept _ new).trans ((lookup_assign m _ _).trans (if_pos rfl))
      · exact found e' later
    · obtain ⟨other,later⟩ := List.ne_and_not_mem_of_not_mem_cons absent
      exact (kept key later).trans ((lookup_assign m e key).trans (if_neg other))

theorem lookup_eq_some {m : List (κ × ν)} (keyed : Keyed m) {key : κ} {value : ν} :
    m.lookup key = some value ↔ (key, value) ∈ m := by
  induction m with
  | nil => simp
  | cons e rest ih =>
    obtain ⟨k,v⟩ := e
    obtain ⟨new,others⟩ := List.nodup_cons.mp keyed
    by_cases same : key = k
    · subst same
      have absent : (key, value) ∉ rest := fun member => new (List.mem_map.mpr ⟨_,member,rfl⟩)
      rw [List.lookup_cons, beq_self_eq_true, List.mem_cons, or_iff_left absent, Prod.mk.injEq]
      constructor
      · rintro ⟨⟩
        exact ⟨rfl,rfl⟩
      · rintro ⟨_,rfl⟩
        rfl
    · have other : (key, value) ≠ (k, v) := fun is => same (congrArg Prod.fst is)
      rw [List.lookup_cons, beq_false_of_ne same, List.mem_cons, or_iff_right other]
      exact ih others

/-- The order of the entries does not matter. -/
theorem lookup_perm {m m' : List (κ × ν)} (same : m.Perm m') (keyed : Keyed m') (key : κ) :
    m.lookup key = m'.lookup key := by
  have apart : Keyed m := (same.map Prod.fst).nodup_iff.mpr keyed
  apply Option.ext
  intro value
  rw [lookup_eq_some apart, lookup_eq_some keyed]
  exact same.mem_iff

end AssocMap
