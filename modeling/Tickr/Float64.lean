import Tickr.Binary64

/-! The numbers of binary64 with infinities and NaN, counted in units of 2^-1074, the finest
step of the format. An operation rounds its exact result once. The sign of a zero is not kept. -/
namespace Float64

/-- The finest step and the first power of two beyond the format, by their exponents. -/
@[irreducible] def finest : Nat := 1074
@[irreducible] def emax : Nat := 1024

def one : Nat := 2 ^ finest
def top : Nat := 2 ^ emax

inductive Value where
  | nan
  | infinite (negative : Bool)
  | finite (units : Int)
  deriving DecidableEq, Repr

def rounded (num : Int) (den : Nat) : Value :=
  let units := Binary64.round num.natAbs den
  if top * one ≤ units then .infinite (num < 0) else .finite (if num < 0 then -units else units)

def ofInt (n : Int) : Value := rounded (n * one) 1

def neg : Value → Value
  | .nan => .nan
  | .infinite negative => .infinite !negative
  | .finite x => .finite (-x)

def add : Value → Value → Value
  | .finite x, .finite y => rounded (x + y) 1
  | .infinite a, .infinite b => if a = b then .infinite a else .nan
  | .infinite a, .finite _ => .infinite a
  | .finite _, .infinite b => .infinite b
  | .nan, _ => .nan
  | _, .nan => .nan

def sub (x y : Value) : Value := add x (neg y)

def mul : Value → Value → Value
  | .finite x, .finite y => rounded (x * y) one
  | .infinite a, .infinite b => .infinite (a != b)
  | .infinite a, .finite y => if y = 0 then .nan else .infinite (a != decide (y < 0))
  | .finite x, .infinite b => if x = 0 then .nan else .infinite (b != decide (x < 0))
  | .nan, _ => .nan
  | _, .nan => .nan

/-- The order, in which NaN has no place. -/
def lt : Value → Value → Bool
  | .finite x, .finite y => x < y
  | .infinite a, .infinite b => a && !b
  | .infinite a, .finite _ => a
  | .finite _, .infinite b => !b
  | .nan, _ => false
  | _, .nan => false

/-- Two to the power of a whole number that is not negative. -/
def powTwo : Value → Value
  | .finite y => if y / one < emax then .finite (2 ^ (y / one).toNat * one) else .infinite false
  | .infinite negative => if negative then .finite 0 else .infinite false
  | .nan => .nan

/-! ### Conversion to 64-bit integers -/

def whole (x : Int) : Int := x.tdiv one

def bound (negative : Bool) : Int := if negative then -2 ^ 63 else 2 ^ 63 - 1

/-- A number in range loses its fraction. What becomes of one out of range depends on the
machine: the least integer, or the bound that it is beyond. -/
structure Conversion where
  apply : Value → Int
  inside : ∀ x, -2 ^ 63 ≤ whole x → whole x < 2 ^ 63 → apply (.finite x) = whole x
  outside : ∀ x, ¬(-2 ^ 63 ≤ whole x ∧ whole x < 2 ^ 63) →
    apply (.finite x) = -2 ^ 63 ∨ apply (.finite x) = bound (x < 0)
  infinite : ∀ negative, apply (.infinite negative) = -2 ^ 63 ∨ apply (.infinite negative) = bound negative

/-- Everything out of range gives the least integer. -/
def Conversion.indefinite : Conversion where
  apply
    | .finite x => if -2 ^ 63 ≤ whole x ∧ whole x < 2 ^ 63 then whole x else -2 ^ 63
    | _ => -2 ^ 63
  inside _ low high := if_pos ⟨low,high⟩
  outside _ out := Or.inl (if_neg out)
  infinite _ := Or.inl rfl

def Conversion.saturating : Conversion where
  apply
    | .finite x => if -2 ^ 63 ≤ whole x ∧ whole x < 2 ^ 63 then whole x else bound (x < 0)
    | .infinite negative => bound negative
    | .nan => 0
  inside _ low high := if_pos ⟨low,high⟩
  outside _ out := Or.inr (if_neg out)
  infinite _ := Or.inr rfl

/-! ### Whole numbers and their scaling by powers of two -/

theorem emax_room : 63 ≤ emax ∧ emax ≤ 2 ^ 53 := by
  unfold emax
  decide

theorem one_pos : 0 < one := Nat.two_pow_pos finest

theorem one_ne_zero : (one : Int) ≠ 0 := by
  have := one_pos
  omega

theorem top_room : 2 ^ 63 ≤ top := Nat.pow_le_pow_right (by decide) emax_room.1

theorem exact_scaled {n : Nat} (small : n ≤ 2 ^ 53) (k : Nat) : Binary64.Exact (n * 2 ^ k * one) :=
  ⟨n,k + finest,small,by rw [one, Nat.mul_assoc, Nat.pow_add]⟩

/-- A number of the format is not rounded; beyond the format there is infinity. -/
theorem rounded_exact {x den : Nat} (positive : 0 < den) (exact : Binary64.Exact x) :
    rounded ((x * den : Nat) : Int) den = if top * one ≤ x then .infinite false else .finite x := by
  have units : Binary64.round (((x * den : Nat) : Int)).natAbs den = x :=
    Binary64.round_multiple positive exact
  have sign : ¬(((x * den : Nat) : Int) < 0) := by omega
  simp only [rounded, units, sign, decide_false, if_false]

theorem ofInt_eq {n : Nat} (small : n ≤ 2 ^ 53) : ofInt n = .finite (n * one : Nat) := by
  have exact := exact_scaled small 0
  rw [Nat.pow_zero, Nat.mul_one] at exact
  have inside : ¬top * one ≤ n * one := by
    rw [Nat.mul_le_mul_right_iff one_pos]
    have room := top_room
    omega
  have same := rounded_exact Nat.one_pos exact
  rw [if_neg inside, Nat.mul_one] at same
  rw [ofInt, ← same, Int.natCast_mul]

/-- Beyond 2^53 a whole number is rounded, but not below it. -/
theorem le_round_whole {k : Nat} (large : 2 ^ 53 ≤ k) :
    2 ^ 53 * one ≤ Binary64.round ((k : Int) * one).natAbs 1 := by
  have exact := exact_scaled (Nat.le_refl (2 ^ 53)) 0
  rw [Nat.pow_zero, Nat.mul_one] at exact
  apply Binary64.le_round Nat.one_pos exact
  rw [Int.natAbs_mul, Int.natAbs_natCast, Int.natAbs_natCast, Nat.mul_one]
  exact Nat.mul_le_mul_right one large

/-- A power of two is the number itself or, beyond the format, infinite. -/
theorem powTwo_ofInt (k : Nat) :
    powTwo (ofInt k) = if k < emax then .finite (2 ^ k * one : Nat) else .infinite false := by
  by_cases small : k ≤ 2 ^ 53
  · have back : ((k * one : Nat) : Int) / (one : Int) = k := by
      rw [Int.natCast_mul, Int.mul_ediv_cancel _ one_ne_zero]
    have power : ((2 ^ k * one : Nat) : Int) = 2 ^ k * one := by
      rw [Int.natCast_mul, Int.natCast_pow]
      rfl
    rw [ofInt_eq small, powTwo, back, Int.toNat_natCast, power]
    by_cases below : k < emax
    · rw [if_pos below, if_pos (by omega)]
    · rw [if_neg below, if_neg (by omega)]
  · have high := le_round_whole (Nat.le_of_not_le small)
    have sign : ¬((k : Int) * one < 0) := Int.not_lt.mpr (Int.mul_nonneg (by omega) (by omega))
    have room := emax_room.2
    rw [if_neg (by omega), ofInt, rounded]
    generalize Binary64.round ((k : Int) * one).natAbs 1 = units at high
    simp only [sign, decide_false, if_false]
    split
    · rfl
    · have quotient : 2 ^ 53 ≤ units / one := (Nat.le_div_iff_mul_le one_pos).mpr high
      rw [powTwo, if_neg]
      rw [← Int.natCast_ediv]
      omega

/-- The product of a whole number and a power of two. -/
theorem mul_powTwo {n : Nat} (positive : 0 < n) (small : n ≤ 2 ^ 53) (k : Nat) :
    mul (ofInt n) (powTwo (ofInt k)) =
      if n * 2 ^ k < top then .finite (n * 2 ^ k * one : Nat) else .infinite false := by
  rw [ofInt_eq small, powTwo_ofInt]
  split
  · have product : ((n * one : Nat) : Int) * ((2 ^ k * one : Nat) : Int) = ((n * 2 ^ k * one * one : Nat) : Int) := by
      rw [← Int.natCast_mul, Nat.mul_mul_mul_comm, Nat.mul_assoc _ one one]
    rw [mul, product, rounded_exact one_pos (exact_scaled small k)]
    by_cases inside : n * 2 ^ k < top
    · rw [if_pos inside, if_neg (by rwa [Nat.mul_le_mul_right_iff one_pos, Nat.not_le])]
    · rw [if_neg inside, if_pos (by rwa [Nat.mul_le_mul_right_iff one_pos, ← Nat.not_lt])]
  · rename_i beyond
    have large : ¬n * 2 ^ k < top := by
      have power : top ≤ 2 ^ k := Nat.pow_le_pow_right (by decide) (by omega)
      have least : 2 ^ k ≤ n * 2 ^ k := Nat.le_mul_of_pos_left _ positive
      omega
    have least : 0 < n * one := Nat.mul_pos positive one_pos
    have sign : ¬((n * one : Nat) : Int) < 0 := by omega
    rw [mul, if_neg (by omega), if_neg large]
    simp only [sign, decide_false, bne_self_eq_false]

/-- A whole number in range is converted to itself, one that is not to the least or the
largest integer. -/
theorem Conversion.apply_mul_powTwo (convert : Conversion) {n : Nat} (positive : 0 < n) (small : n ≤ 2 ^ 53)
    (k : Nat) : n * 2 ^ k < 2 ^ 63 ∧ convert.apply (mul (ofInt n) (powTwo (ofInt k))) = (n * 2 ^ k : Nat) ∨
      2 ^ 63 ≤ n * 2 ^ k ∧ (convert.apply (mul (ofInt n) (powTwo (ofInt k))) = -2 ^ 63 ∨
        convert.apply (mul (ofInt n) (powTwo (ofInt k))) = 2 ^ 63 - 1) := by
  have back : whole ((n * 2 ^ k * one : Nat) : Int) = ((n * 2 ^ k : Nat) : Int) := by
    rw [whole, Int.natCast_mul, Int.mul_tdiv_cancel _ one_ne_zero]
  have sign : ¬(((n * 2 ^ k * one : Nat) : Int) < 0) := by omega
  rw [mul_powTwo positive small]
  split
  · generalize n * 2 ^ k = product at back sign
    rcases Nat.lt_or_ge product (2 ^ 63) with inside | beyond
    · refine Or.inl ⟨inside,?_⟩
      rw [convert.inside _ (by omega) (by omega), back]
    · have out := convert.outside ((product * one : Nat) : Int) (by omega)
      simp only [sign, decide_false] at out
      exact Or.inr ⟨beyond,out⟩
  · rename_i infinite
    have room := top_room
    exact Or.inr ⟨by omega,convert.infinite false⟩

end Float64
