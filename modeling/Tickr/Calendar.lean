import Mathlib.Order.Monotone.Basic
import Mathlib.Tactic.Common

/-! The proleptic Gregorian calendar on day numbers. Months are numbered through all
years, so the month after `n` is `n + 1`; `monthOf` inverts `monthStart`. -/
namespace Calendar

/-- The number, counted from 1970-01-01, of a day. The year is taken to begin in March. -/
def dayOf (year month day : Int) : Int :=
  let y := if month ≤ 2 then year - 1 else year
  let m := if month ≤ 2 then month + 9 else month - 3
  365 * y + y / 4 - y / 100 + y / 400 + (153 * m + 2) / 5 + day - 1 - 719468

def yearOf (n : Int) : Int := n / 12
def monthIn (n : Int) : Int := n % 12 + 1

def monthStart (n : Int) : Int := dayOf (yearOf n) (monthIn n) 1

example : monthStart (2024 * 12 + 2) - monthStart (2024 * 12 + 1) = 29 := by decide

/-- Years from March to February, so that the leap day comes last. -/
theorem march_cases (n : Int) : ∃ y m, 0 ≤ m ∧ m < 12 ∧ n = 12 * y + m + 2 :=
  ⟨(n - 2) / 12,(n - 2) % 12,by omega,by omega,by omega⟩

theorem monthStart_march {y m : Int} (first : 0 ≤ m) (last : m < 12) :
    monthStart (12 * y + m + 2) = 365 * y + y / 4 - y / 100 + y / 400 + (153 * m + 2) / 5 - 719468 := by
  unfold monthStart dayOf yearOf monthIn
  dsimp only
  by_cases spring : m < 10
  · have year : (12 * y + m + 2) / 12 = y := by omega
    have month : (12 * y + m + 2) % 12 + 1 = m + 3 := by omega
    rw [year, month, if_neg (by omega), if_neg (by omega), Int.add_sub_cancel]
    omega
  · have year : (12 * y + m + 2) / 12 = y + 1 := by omega
    have month : (12 * y + m + 2) % 12 + 1 = m - 9 := by omega
    rw [year, month, if_pos (by omega), if_pos (by omega), Int.add_sub_cancel, Int.sub_add_cancel]
    omega

theorem month_length (n : Int) : monthStart n + 28 ≤ monthStart (n + 1) ∧ monthStart (n + 1) ≤ monthStart n + 31 := by
  obtain ⟨y,m,first,last,rfl⟩ := march_cases n
  rw [monthStart_march first last]
  by_cases within : m + 1 < 12
  · rw [show 12 * y + m + 2 + 1 = 12 * y + (m + 1) + 2 by omega, monthStart_march (by omega) within]
    omega
  · rw [show 12 * y + m + 2 + 1 = 12 * (y + 1) + 0 + 2 by omega, monthStart_march (by omega) (by omega)]
    omega

/-- A day by its place in the month. -/
theorem dayOf_eq (n day : Int) : dayOf (yearOf n) (monthIn n) day = monthStart n + day - 1 := by
  unfold monthStart dayOf
  dsimp only
  omega

theorem monthStart_lt_succ (n : Int) : monthStart n < monthStart (n + 1) := by
  have length := month_length n
  omega

theorem lt_of_monthStart_lt {m n : Int} (before : monthStart m < monthStart n) : m < n :=
  (strictMono_int_of_lt_succ monthStart_lt_succ).lt_iff_lt.mp before

/-- 400 years are 4800 months and 146097 days; no month start strays from that pace by
as much as a month. -/
theorem monthStart_pace (n : Int) :
    146097 * (n - 23640) - 4800 * 3 ≤ 4800 * monthStart n ∧
    4800 * monthStart n ≤ 146097 * (n - 23640) + 4800 * 3 := by
  obtain ⟨y,m,first,last,rfl⟩ := march_cases n
  rw [monthStart_march first last]
  have months : 146097 * m ≤ 4800 * ((153 * m + 2) / 5) := by
    have early : m = 0 ∨ m = 1 ∨ m = 2 ∨ 3 ≤ m := by omega
    rcases early with rfl | rfl | rfl | later <;> omega
  omega

def monthOf (day : Int) : Int :=
  let n := 4800 * day / 146097 + 23640
  if day < monthStart n then n - 1 else if monthStart (n + 1) ≤ day then n + 1 else n

theorem monthOf_spec (day : Int) : monthStart (monthOf day) ≤ day ∧ day < monthStart (monthOf day + 1) := by
  unfold monthOf
  dsimp only
  generalize estimate : 4800 * day / 146097 = q
  have before := monthStart_pace (q + 23640 - 1)
  have after := monthStart_pace (q + 23640 + 1 + 1)
  split
  · rw [show q + 23640 - 1 + 1 = q + 23640 by omega]
    omega
  · split <;> omega

theorem monthOf_eq_iff {day n : Int} : monthOf day = n ↔ monthStart n ≤ day ∧ day < monthStart (n + 1) := by
  obtain ⟨started,unfinished⟩ := monthOf_spec day
  constructor
  · rintro rfl
    exact ⟨started,unfinished⟩
  · rintro ⟨first,last⟩
    have notLater := lt_of_monthStart_lt (started.trans_lt last)
    have notEarlier := lt_of_monthStart_lt (first.trans_lt unfinished)
    omega

end Calendar
