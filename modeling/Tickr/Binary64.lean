import Mathlib.Algebra.Group.Int.Defs
import Mathlib.Algebra.Group.Nat.Defs
import Mathlib.Tactic.Common

/-! Binary floating point with 53 significant bits. A number that is not negative is counted
in units of 2^-128; that is exact for all of the format that is zero or at least 2^-76.
Rounding is to the nearest such number, of two to the even one. -/
namespace Binary64

def one : Nat := 2 ^ 128

/-- The integer nearest to `num / den`. -/
def nearest (num den : Nat) : Nat :=
  if 2 * (num % den) < den then num / den
  else if den < 2 * (num % den) then num / den + 1
  else num / den + (num / den) % 2

/-- How many low bits of `num / den` are beyond the 53 significant ones. -/
def excess (num den : Nat) : Nat := (num / den).log2 - 52

def round (num den : Nat) : Nat := nearest num (den * 2 ^ excess num den) * 2 ^ excess num den

def ofNat (n : Nat) : Nat := round (n * one) 1

def add (x y : Nat) : Nat := round (x + y) 1

def div (x y : Nat) : Nat := round (x * one) y

/-- The conversion to an integer. -/
def floor (x : Nat) : Nat := x / one

/-- The format has `x` itself. -/
def Exact (x : Nat) : Prop := ∃ m e, m ≤ 2 ^ 53 ∧ x = m * 2 ^ e

/-! ### Rounding is monotone and keeps what is exact -/

theorem le_nearest {k num den : Nat} (positive : 0 < den) (below : k * den ≤ num) : k ≤ nearest num den := by
  have floored : k ≤ num / den := (Nat.le_div_iff_mul_le positive).mpr below
  unfold nearest
  split
  · exact floored
  · split
    · exact Nat.le_succ_of_le floored
    · exact Nat.le_add_right_of_le floored

theorem nearest_le {k num den : Nat} (positive : 0 < den) (above : num ≤ k * den) : nearest num den ≤ k := by
  have floored : num / den ≤ k := Nat.div_le_of_le_mul (Nat.mul_comm k den ▸ above)
  have parts := Nat.div_add_mod num den
  rcases Nat.lt_or_eq_of_le floored with less | same
  · unfold nearest
    split
    · exact floored
    · split <;> omega
  · have whole : num % den = 0 := by
      rw [same, Nat.mul_comm] at parts
      omega
    rw [nearest, whole, if_pos (by omega)]
    exact floored

/-- Where low bits are cut off, the value has all 53 above them. -/
theorem cut_le {num den : Nat} (cut : 0 < excess num den) : 2 ^ 52 * 2 ^ excess num den ≤ num / den := by
  have nonzero : num / den ≠ 0 := by
    intro zero
    simp [excess, zero] at cut
  have top : (num / den).log2 = 52 + excess num den := by
    unfold excess at cut ⊢
    omega
  rw [← Nat.pow_add, ← top]
  exact Nat.log2_self_le nonzero

/-- An exact number has no bits below the cut, or it is below the values that are cut there. -/
theorem Exact.cut {x : Nat} (exact : Exact x) (num den : Nat) :
    (∃ k, x = k * 2 ^ excess num den) ∨ 0 < excess num den ∧ x ≤ 2 ^ 52 * 2 ^ excess num den := by
  obtain ⟨m,e,bound,rfl⟩ := exact
  rcases Nat.lt_or_ge e (excess num den) with finer | coarser
  · refine Or.inr ⟨by omega,?_⟩
    calc m * 2 ^ e ≤ 2 ^ 53 * 2 ^ (excess num den - 1) :=
          Nat.mul_le_mul bound (Nat.pow_le_pow_right (by decide) (by omega))
      _ = 2 ^ 52 * 2 ^ excess num den := by
          rw [← Nat.pow_add, ← Nat.pow_add]
          congr 1
          omega
  · refine Or.inl ⟨m * 2 ^ (e - excess num den),?_⟩
    rw [Nat.mul_assoc, ← Nat.pow_add, Nat.sub_add_cancel coarser]

theorem le_round {x num den : Nat} (positive : 0 < den) (exact : Exact x) (below : x * den ≤ num) :
    x ≤ round num den := by
  have scaled : 0 < den * 2 ^ excess num den := Nat.mul_pos positive (Nat.two_pow_pos _)
  rcases exact.cut num den with ⟨k,same⟩ | ⟨cut,small⟩
  · rw [same, Nat.mul_assoc, Nat.mul_comm _ den] at below
    exact same ▸ Nat.mul_le_mul_right _ (le_nearest scaled below)
  · have reached := (Nat.le_div_iff_mul_le positive).mp (cut_le cut)
    rw [Nat.mul_assoc, Nat.mul_comm _ den] at reached
    exact Nat.le_trans small (Nat.mul_le_mul_right _ (le_nearest scaled reached))

theorem round_le {x num den : Nat} (positive : 0 < den) (exact : Exact x) (above : num ≤ x * den) :
    round num den ≤ x := by
  have scaled : 0 < den * 2 ^ excess num den := Nat.mul_pos positive (Nat.two_pow_pos _)
  have multiple {k : Nat} (same : x = k * 2 ^ excess num den) : round num den ≤ x := by
    rw [same, Nat.mul_assoc, Nat.mul_comm _ den] at above
    exact same ▸ Nat.mul_le_mul_right _ (nearest_le scaled above)
  rcases exact.cut num den with ⟨k,same⟩ | ⟨cut,small⟩
  · exact multiple same
  · refine multiple (Nat.le_antisymm small ?_)
    exact Nat.le_trans (cut_le cut) (Nat.div_le_of_le_mul (Nat.mul_comm x den ▸ above))

theorem round_multiple {x den : Nat} (positive : 0 < den) (exact : Exact x) : round (x * den) den = x :=
  Nat.le_antisymm (round_le positive exact (Nat.le_refl _)) (le_round positive exact (Nat.le_refl _))

theorem round_exact {x : Nat} (exact : Exact x) : round x 1 = x := by
  have same := round_multiple Nat.one_pos exact
  rwa [Nat.mul_one] at same

/-! ### Whole numbers and fractions -/

theorem exact_whole {n : Nat} (bound : n ≤ 2 ^ 53) : Exact (n * one) := ⟨n,128,bound,rfl⟩

theorem ofNat_eq {n : Nat} (bound : n ≤ 2 ^ 53) : ofNat n = n * one := round_exact (exact_whole bound)

theorem one_pos : 0 < one := Nat.two_pow_pos 128

/-- A quotient of whole numbers is at most any exact number that the true quotient is. -/
theorem div_le {m n x : Nat} (small : m ≤ 2 ^ 53) (positive : 0 < n) (bound : n ≤ 2 ^ 53) (exact : Exact x)
    (above : m * one ≤ x * n) : div (ofNat m) (ofNat n) ≤ x := by
  rw [div, ofNat_eq small, ofNat_eq bound]
  apply round_le (Nat.mul_pos positive one_pos) exact
  rw [← Nat.mul_assoc]
  exact Nat.mul_le_mul_right one above

/-- A whole number and a fraction add up to something between that number and the next. -/
theorem floor_add {n fraction : Nat} (bound : n + 1 ≤ 2 ^ 53) (proper : fraction ≤ one) :
    floor (add (ofNat n) fraction) = n ∨ floor (add (ofNat n) fraction) = n + 1 := by
  have low : n * one ≤ add (ofNat n) fraction := by
    rw [add, ofNat_eq (by omega)]
    exact le_round Nat.one_pos (exact_whole (by omega)) (by omega)
  have high : add (ofNat n) fraction ≤ (n + 1) * one := by
    rw [add, ofNat_eq (by omega)]
    apply round_le Nat.one_pos (exact_whole bound)
    rw [Nat.succ_mul]
    omega
  have atLeast : n ≤ floor (add (ofNat n) fraction) := (Nat.le_div_iff_mul_le one_pos).mpr low
  have atMost : floor (add (ofNat n) fraction) ≤ n + 1 :=
    Nat.div_le_of_le_mul (Nat.mul_comm (n + 1) one ▸ high)
  omega

end Binary64
