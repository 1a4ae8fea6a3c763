import Tickr.Float64
import Tickr.Outcome

/-! The default retry policy. The delay is computed in floating point and converted back; where
the conversion leaves the range of a duration, its result is not positive or not below the cap,
and the cap takes its place. The jitter is applied after the cap, and capped again. -/
namespace Tickr

open Float64

/-- `rand` is what Rand returns, if it is set. -/
structure ExponentialBackoff where
  base : Duration
  max : Duration
  jitterFraction : Value
  rand : Option Value
  deriving DecidableEq, Repr

namespace ExponentialBackoff

def baseDelay (e : ExponentialBackoff) : Duration := if e.base ≤ 0 then Duration.second else e.base

def maxDelay (e : ExponentialBackoff) : Duration := if e.max ≤ 0 then Duration.hour else e.max

def jitter (e : ExponentialBackoff) : Value :=
  let jitter := if lt e.jitterFraction (ofInt 0) then ofInt 0 else e.jitterFraction
  if lt (ofInt 1) jitter then ofInt 1 else jitter

/-- The overflow guard and the cap in one test. -/
def cap (maxDelay d : Int) : Int := if d ≤ 0 ∨ maxDelay < d then maxDelay else d

/-- The delay before jitter. -/
def cappedDelay (convert : Conversion) (e : ExponentialBackoff) (attempt : Int) : Duration :=
  let attempt := if attempt < 1 then 1 else attempt
  let exp := powTwo (ofInt (attempt - 1))
  cap e.maxDelay (convert.apply (mul (ofInt e.baseDelay) exp))

/-- `draw` is what the package-level source returns. -/
def nextDelay (convert : Conversion) (e : ExponentialBackoff) (draw : Value) (attempt : Int) : Duration :=
  let d := cappedDelay convert e attempt
  if lt (ofInt 0) e.jitter then
    let r := e.rand.getD draw
    let spread := mul (sub (mul (ofInt 2) r) (ofInt 1)) e.jitter
    let d := convert.apply (mul (ofInt d) (add (ofInt 1) spread))
    min (Max.max d 0) e.maxDelay
  else d

example :
    let b : ExponentialBackoff := ⟨10 * Duration.second, Duration.hour, rounded one 2, some (ofInt 1)⟩
    nextDelay .indefinite b .nan 1 = 15 * Duration.second ∧
    nextDelay .saturating { b with rand := some (ofInt 0) } .nan 1 = 5 * Duration.second ∧
    nextDelay .indefinite { b with jitterFraction := ofInt 0 } .nan 4000 = Duration.hour := by decide +kernel

section
variable {maxDelay d : Int}

theorem cap_bounds (positive : 0 < maxDelay) : 0 < cap maxDelay d ∧ cap maxDelay d ≤ maxDelay := by
  unfold cap
  split <;> omega

/-- What is in range is capped as it should be. -/
theorem cap_inside (positive : 0 < d) : cap maxDelay d = min maxDelay d := by
  unfold cap
  split <;> omega

/-- The two results of an overflow give the cap. -/
theorem cap_outside (range : maxDelay < 2 ^ 63) (overflowed : d = -2 ^ 63 ∨ d = 2 ^ 63 - 1) :
    cap maxDelay d = maxDelay := by
  unfold cap
  split <;> omega

theorem clamp_bounds (positive : 0 < maxDelay) : 0 ≤ min (Max.max d 0) maxDelay ∧ min (Max.max d 0) maxDelay ≤ maxDelay := by
  omega

end

variable {convert : Conversion} {e : ExponentialBackoff}

theorem baseDelay_pos : 0 < e.baseDelay := by
  unfold baseDelay
  split
  · decide
  · exact Int.not_le.mp ‹_›

theorem maxDelay_pos : 0 < e.maxDelay := by
  unfold maxDelay
  split
  · decide
  · exact Int.not_le.mp ‹_›

theorem maxDelay_lt (range : int64 e.max) : e.maxDelay < 2 ^ 63 := by
  unfold maxDelay
  split
  · decide
  · exact range.2

theorem nextDelay_bounds (draw : Value) (attempt : Int) :
    0 ≤ nextDelay convert e draw attempt ∧ nextDelay convert e draw attempt ≤ e.maxDelay := by
  unfold nextDelay
  dsimp only
  split
  · exact clamp_bounds maxDelay_pos
  · obtain ⟨above,below⟩ := @cap_bounds _ _ (@maxDelay_pos e)
    exact ⟨Int.le_of_lt above,below⟩

/-- A fraction that is not positive stays so when it is clamped. -/
theorem jitter_steady (steady : lt (ofInt 0) e.jitterFraction = false) : lt (ofInt 0) e.jitter = false := by
  have zero : ofInt 0 = .finite 0 := by decide +kernel
  have unit : ofInt 1 = .finite one := by decide +kernel
  have still : lt (ofInt 1) (ofInt 0) = false ∧ lt (ofInt 0) (ofInt 0) = false := by decide +kernel
  have below : lt (ofInt 1) e.jitterFraction = false := by
    rw [zero] at steady
    rw [unit]
    cases fraction : e.jitterFraction with
    | nan => rfl
    | infinite negative =>
      rw [fraction] at steady
      exact steady
    | finite x =>
      rw [fraction, lt, decide_eq_false_iff_not] at steady
      have positive := one_pos
      exact decide_eq_false (by omega)
  unfold jitter
  dsimp only
  split
  · rw [still.1, if_neg Bool.false_ne_true]
    exact still.2
  · rw [below, if_neg Bool.false_ne_true]
    exact steady

theorem nextDelay_steady (steady : lt (ofInt 0) e.jitterFraction = false) (draw : Value) (attempt : Int) :
    nextDelay convert e draw attempt = cappedDelay convert e attempt := by
  simp only [nextDelay, jitter_steady steady, Bool.false_eq_true, if_false]

theorem cappedDelay_eq (range : int64 e.max) (small : e.baseDelay ≤ 2 ^ 53) (attempt : Int) :
    cappedDelay convert e attempt = min e.maxDelay (e.baseDelay * 2 ^ (attempt - 1).toNat) := by
  have positive := @baseDelay_pos e
  have below := maxDelay_lt range
  obtain ⟨n,base⟩ := Int.eq_ofNat_of_zero_le (Int.le_of_lt positive)
  rw [base] at positive small
  have filled : 0 < n := Int.natCast_pos.mp positive
  have narrow : n ≤ 2 ^ 53 := by exact_mod_cast small
  have exponent : (if attempt < 1 then 1 else attempt) - 1 = ((attempt - 1).toNat : Int) := by
    split <;> omega
  have product : (n : Int) * 2 ^ (attempt - 1).toNat = (n * 2 ^ (attempt - 1).toNat : Nat) := by
    rw [Int.natCast_mul, Int.natCast_pow]
    rfl
  have least : 0 < n * 2 ^ (attempt - 1).toNat := Nat.mul_pos filled (Nat.two_pow_pos _)
  unfold cappedDelay
  dsimp only
  rw [exponent, base, product]
  rcases convert.apply_mul_powTwo filled narrow (attempt - 1).toNat with
    ⟨inside,same⟩ | ⟨beyond,overflowed⟩
  · rw [same]
    exact cap_inside (by omega)
  · rw [cap_outside below overflowed]
    have reached : e.maxDelay ≤ (n * 2 ^ (attempt - 1).toNat : Nat) :=
      Int.le_trans (Int.le_of_lt below) (by exact_mod_cast beyond)
    exact (Int.min_eq_left reached).symm

/-- The delay is never negative and never above the cap. Without jitter, and with a base that
a float holds exactly, it is the capped power of two: it does not decrease with the attempt. -/
theorem backoff_bounded_exact (convert : Conversion) (e : ExponentialBackoff) (range : int64 e.max) :
    (∀ draw attempt,
      0 ≤ nextDelay convert e draw attempt ∧ nextDelay convert e draw attempt ≤ e.maxDelay) ∧
    (lt (ofInt 0) e.jitterFraction = false → e.baseDelay ≤ 2 ^ 53 →
      (∀ draw attempt,
        nextDelay convert e draw attempt = min e.maxDelay (e.baseDelay * 2 ^ (attempt - 1).toNat)) ∧
      ∀ draw draw' attempt later, attempt ≤ later →
        nextDelay convert e draw attempt ≤ nextDelay convert e draw' later) := by
  refine ⟨nextDelay_bounds,fun steady small => ?_⟩
  have exact (draw : Value) (attempt : Int) :
      nextDelay convert e draw attempt = min e.maxDelay (e.baseDelay * 2 ^ (attempt - 1).toNat) :=
    (nextDelay_steady steady draw attempt).trans (cappedDelay_eq range small attempt)
  refine ⟨exact,?_⟩
  intro draw draw' attempt later order
  have powers : (2 : Int) ^ (attempt - 1).toNat ≤ 2 ^ (later - 1).toNat := by
    exact_mod_cast Nat.pow_le_pow_right (by decide) (by omega : (attempt - 1).toNat ≤ (later - 1).toNat)
  have products := Int.mul_le_mul_of_nonneg_left powers (Int.le_of_lt (@baseDelay_pos e))
  rw [exact, exact]
  exact le_min (min_le_left _ _) (le_trans (min_le_right _ _) products)

/-- A second doubled from attempt to attempt, up to an hour. -/
def doubling : ExponentialBackoff := ⟨Duration.second, Duration.hour, ofInt 0, none⟩

theorem backoff_bounded_exact_doubling :
    int64 doubling.max ∧ lt (ofInt 0) doubling.jitterFraction = false ∧ doubling.baseDelay ≤ 2 ^ 53 ∧
    nextDelay .saturating doubling .nan 12 = 2048 * Duration.second ∧
    nextDelay .indefinite doubling .nan 9223372036854775807 ≤ Duration.hour ∧
    nextDelay .indefinite doubling .nan (-3) ≤ nextDelay .indefinite doubling .nan 70 := by
  have range : int64 doubling.max := ⟨by decide,by decide⟩
  have steady : lt (ofInt 0) doubling.jitterFraction = false := by decide +kernel
  have small : doubling.baseDelay ≤ 2 ^ 53 := by decide
  obtain ⟨bounds,_⟩ := backoff_bounded_exact .indefinite doubling range
  obtain ⟨exact,_⟩ := (backoff_bounded_exact .saturating doubling range).2 steady small
  obtain ⟨_,grows⟩ := (backoff_bounded_exact .indefinite doubling range).2 steady small
  exact ⟨range,steady,small,(exact .nan 12).trans (by decide),(bounds .nan _).2,grows _ _ _ _ (by decide)⟩

/-! ### What the engine makes of it -/

/-- A retry that the policy decides on is scheduled from now on, and at most the cap ahead. -/
theorem failParams_within (convert : Conversion) (e : ExponentialBackoff) (draw : Value) {workerID : String}
    {m : InboundMessage} {cfg : HandlerConfig} {err : GoError} {outcome : Outcome} (clock : Time)
    (alive : deadAfter m cfg err outcome = false) (plain : extractRetryAfter err = none) :
    let scheduled := (failParams workerID m cfg err outcome clock (nextDelay convert e draw m.attempt)).nextRetryAt
    clock ≤ scheduled ∧ scheduled ≤ clock + e.maxDelay := by
  obtain ⟨above,below⟩ := @nextDelay_bounds convert e draw m.attempt
  simp only [failParams, alive, plain, Bool.false_eq_true, if_false, Option.getD_none]
  exact ⟨Int.le_add_of_nonneg_right above,Int.add_le_add_left below clock⟩

end ExponentialBackoff

end Tickr
