import Mathlib.Order.Lattice
import Mathlib.Tactic.Common

/-! Half-open ranges that follow one another without a gap. -/
namespace Tiling

variable {α : Type} [LinearOrder α]

def Within (range : α × α) (x : α) : Prop := range.1 ≤ x ∧ x < range.2

def Separate (left right : α × α) : Prop := ∀ x, ¬(Within left x ∧ Within right x)

/-- Each range starts where the one before it ends, from `lower` up to `upper`. -/
inductive Tiles : α → List (α × α) → α → Prop where
  | nil : Tiles lower [] lower
  | cons : lower < middle → Tiles middle ranges upper → Tiles lower ((lower, middle) :: ranges) upper

variable {lower upper : α} {ranges : List (α × α)}

theorem Tiles.le (tiles : Tiles lower ranges upper) : lower ≤ upper := by
  induction tiles with
  | nil => exact le_refl _
  | cons before _ ih => exact le_trans (le_of_lt before) ih

theorem Tiles.bounds (tiles : Tiles lower ranges upper) :
    ∀ range ∈ ranges, lower ≤ range.1 ∧ range.2 ≤ upper := by
  induction tiles with
  | nil => simp
  | cons before rest ih =>
    intro range member
    rcases List.mem_cons.mp member with rfl | later
    · exact ⟨le_refl _,rest.le⟩
    · obtain ⟨start,stop⟩ := ih range later
      exact ⟨le_trans (le_of_lt before) start,stop⟩

theorem Tiles.separate (tiles : Tiles lower ranges upper) : ranges.Pairwise Separate := by
  induction tiles with
  | nil => exact List.Pairwise.nil
  | cons before rest ih =>
    refine List.Pairwise.cons ?_ ih
    rintro range member x ⟨first,second⟩
    exact absurd first.2 (not_lt_of_ge (le_trans (rest.bounds range member).1 second.1))

theorem Tiles.cover (tiles : Tiles lower ranges upper) (x : α) :
    (∃ range ∈ ranges, Within range x) ↔ lower ≤ x ∧ x < upper := by
  constructor
  · rintro ⟨range,member,inside⟩
    obtain ⟨start,stop⟩ := tiles.bounds range member
    exact ⟨le_trans start inside.1,lt_of_lt_of_le inside.2 stop⟩
  · induction tiles with
    | nil =>
      rintro ⟨start,stop⟩
      exact absurd stop (not_lt_of_ge start)
    | @cons lower middle ranges upper before rest ih =>
      rintro ⟨start,stop⟩
      rcases lt_or_ge x middle with first | later
      · exact ⟨(lower,middle),List.mem_cons_self,start,first⟩
      · obtain ⟨range,member,inside⟩ := ih ⟨later,stop⟩
        exact ⟨range,List.mem_cons_of_mem _ member,inside⟩

/-- The steps of an increasing sequence. -/
theorem tiles_steps {f : Nat → α} (increasing : ∀ i, f i < f (i + 1)) (count : Nat) :
    Tiles (f 0) ((List.range count).map fun i => (f i, f (i + 1))) (f count) := by
  induction count generalizing f with
  | zero => exact .nil
  | succ count ih =>
    rw [List.range_succ_eq_map, List.map_cons, List.map_map]
    exact .cons (increasing 0) (ih fun i => increasing (i + 1))

end Tiling
