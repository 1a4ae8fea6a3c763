import Tickr.PostgresPartitions
import Tickr.Tiling

/-! The statements of `EnsurePartitions`. A partition is known to PostgreSQL by its name, which
is all that IF NOT EXISTS looks at; so a name has to stand for one range, and ranges of
different names have to be apart. -/
namespace Tickr.Postgres

open Tiling

/-- The session time zone. No zone is as far as a day from UTC. -/
structure Zone where
  offset : Offsets
  bounded : ∀ n, (offset n).natAbs < 24 * 60

def Zone.utc : Zone := ⟨fun _ => 0, fun _ => by decide⟩

/-! ### Dates and their texts -/

/-- The first day of a month. -/
structure Civil where
  year : Int
  month : Int
  deriving DecidableEq, Repr

/-- `norm` of package time. What it divides is not negative. -/
def norm (hi lo base : Int) : Int × Int :=
  let borrowed := if lo < 0 then (hi - ((-lo - 1) / base + 1), lo + ((-lo - 1) / base + 1) * base) else (hi, lo)
  if base ≤ borrowed.2 then (borrowed.1 + borrowed.2 / base, borrowed.2 - borrowed.2 / base * base) else borrowed

/-- AddDate(0, months, 0). -/
def Civil.addDate (d : Civil) (months : Int) : Civil :=
  let normed := norm d.year (d.month + months - 1) 12
  ⟨normed.1, normed.2 + 1⟩

/-- The number of a month, through all years. -/
def Civil.index (d : Civil) : Int := 12 * d.year + (d.month - 1)

def civil (n : Int) : Civil := ⟨Calendar.yearOf n, Calendar.monthIn n⟩

/-- Decimal digits, with leading zeros up to a width. -/
def padded (width n : Nat) : Text := List.replicate (width - (Nat.toDigits 10 n).length) '0' ++ Nat.toDigits 10 n

/-- `%04d`, whose width includes the sign. -/
def sprintf04 (n : Int) : Text := if n < 0 then '-' :: padded 3 n.natAbs else padded 4 n.natAbs

/-- `appendInt` of package time, whose width does not. -/
def appendInt (width : Nat) (n : Int) : Text := if n < 0 then '-' :: padded width n.natAbs else padded width n.natAbs

/-- Format("2006-01-02"). -/
def Civil.format (d : Civil) : Text := appendInt 4 d.year ++ '-' :: appendInt 2 d.month ++ "-01".toList

def partitionName (d : Civil) : Text :=
  "tickr_messages_".toList ++ (sprintf04 d.year ++ '_' :: padded 2 d.month.natAbs)

/-! ### The statements of a call -/

/-- CREATE TABLE IF NOT EXISTS name PARTITION OF tickr_messages FOR VALUES FROM lower TO upper. -/
structure CreateTable where
  name : Text
  lower : Civil
  upper : Civil
  deriving DecidableEq, Repr

def ensureStatements (now : Time) (monthsAhead : Int) : List CreateTable :=
  let start : Civil := ⟨Calendar.yearOf (calendarMonth now), Calendar.monthIn (calendarMonth now)⟩
  (List.range (monthsAhead.toNat + 1)).map fun i : Nat =>
    let from_ := start.addDate i
    ⟨partitionName from_, from_, start.addDate (i + 1)⟩

example : (ensureStatements (midnight 2026 11 15) 2).map (fun c =>
      (String.ofList c.name, String.ofList c.lower.format, String.ofList c.upper.format)) =
    [("tickr_messages_2026_11", "2026-11-01", "2026-12-01"), ("tickr_messages_2026_12", "2026-12-01", "2027-01-01"),
      ("tickr_messages_2027_01", "2027-01-01", "2027-02-01")] := by decide +kernel

/-- The bounds as the session reads them. -/
def CreateTable.range (zone : Zone) (c : CreateTable) : Time × Time :=
  (monthBound zone.offset c.lower.index, monthBound zone.offset c.upper.index)

/-- A table of that name is left alone, whatever its bounds. -/
def createIfNotExists (catalog : List CreateTable) (c : CreateTable) : List CreateTable :=
  if c.name ∈ catalog.map CreateTable.name then catalog else catalog ++ [c]

/-! ### Calendar arithmetic -/

theorem norm_twelve (hi lo : Int) : norm hi lo 12 = (hi + lo / 12, lo % 12) := by
  have borrow : norm hi lo 12 = if lo < 0 then (hi - ((-lo - 1) / 12 + 1), lo + ((-lo - 1) / 12 + 1) * 12)
      else if 12 ≤ lo then (hi + lo / 12, lo - lo / 12 * 12) else (hi, lo) := by
    unfold norm
    split
    · dsimp only
      rw [if_neg (by omega)]
    · rfl
  rw [borrow]
  split
  · exact Prod.ext (by dsimp only; omega) (by dsimp only; omega)
  · split
    · exact Prod.ext rfl (by dsimp only; omega)
    · exact Prod.ext (by dsimp only; omega) (by dsimp only; omega)

@[simp] theorem civil_index (n : Int) : (civil n).index = n := by
  simp only [civil, Civil.index, Calendar.yearOf, Calendar.monthIn]
  omega

theorem civil_addDate (n k : Int) : (civil n).addDate k = civil (n + k) := by
  simp only [civil, Civil.addDate, norm_twelve, Calendar.yearOf, Calendar.monthIn, Civil.mk.injEq]
  omega

/-- The partition of month `n`. -/
def monthTable (n : Int) : CreateTable := ⟨partitionName (civil n), civil n, civil (n + 1)⟩

theorem ensureStatements_eq (now : Time) (monthsAhead : Int) : ensureStatements now monthsAhead =
    (List.range (monthsAhead.toNat + 1)).map fun i : Nat => monthTable (calendarMonth now + i) := by
  unfold ensureStatements
  refine List.map_congr_left fun i _ => ?_
  have start : (⟨Calendar.yearOf (calendarMonth now), Calendar.monthIn (calendarMonth now)⟩ : Civil) =
      civil (calendarMonth now) := rfl
  simp only [start, civil_addDate, monthTable, Int.add_assoc]

/-! ### The months of a call -/

def askedMonths (now : Time) (monthsAhead : Int) : List Int :=
  (ensureStatements now monthsAhead).map fun c => c.lower.index

theorem askedMonths_eq (now : Time) (monthsAhead : Int) :
    askedMonths now monthsAhead = (List.range (monthsAhead.toNat + 1)).map fun i : Nat => calendarMonth now + i := by
  rw [askedMonths, ensureStatements_eq, List.map_map]
  refine List.map_congr_left fun i _ => ?_
  exact civil_index _

theorem mem_askedMonths {now : Time} {monthsAhead n : Int} :
    n ∈ askedMonths now monthsAhead ↔ ∃ i : Nat, i ≤ monthsAhead.toNat ∧ n = calendarMonth now + i := by
  simp only [askedMonths_eq, List.mem_map, List.mem_range, Nat.lt_succ_iff, eq_comm]

theorem ensurePartitions_asked {policy : HistoryPolicy} {offset : Offsets} (st : Partitioned policy) (now : Time)
    (monthsAhead : Int) :
    ensurePartitions offset st now monthsAhead = ensureMonths offset st (askedMonths now monthsAhead) := by
  rw [askedMonths_eq, ensurePartitions, bind_pure_comp, List.map_eq_map, List.map_map]
  rfl

/-! ### Names -/

theorem padded_inj {width m n : Nat} (same : padded width m = padded width n) : m = n := by
  have read (k : Nat) : Nat.ofDigitChars 10 (padded width k) 0 = k := by
    rw [padded, Nat.ofDigitChars_append, Nat.ofDigitChars_replicate_zero, Nat.mul_zero,
      Nat.ofDigitChars_ten_toDigits]
  rw [← read m, same, read n]

theorem padded_length {width n : Nat} (positive : 0 < width) (small : n < 10 ^ width) :
    (padded width n).length = width := by
  have digits := (Nat.length_toDigits_le_iff (by decide) positive).mpr small
  rw [padded, List.length_append, List.length_replicate]
  omega

theorem padded_digits {width n : Nat} : ∀ c ∈ padded width n, c.isDigit = true := by
  intro c member
  rcases List.mem_append.mp member with zero | digit
  · rw [List.eq_of_mem_replicate zero]
    rfl
  · exact Nat.isDigit_of_mem_toDigits (by decide) (by decide) digit

theorem sprintf04_inj {m n : Int} (same : sprintf04 m = sprintf04 n) : m = n := by
  -- A sign is no digit, so the signs agree.
  have signed {w k : Nat} {rest : Text} (mixed : '-' :: rest = padded w k) : False := by
    have digit : ('-' : Char).isDigit = true := padded_digits _ (mixed ▸ List.mem_cons_self)
    exact absurd digit (by decide)
  unfold sprintf04 at same
  split at same <;> split at same
  · have := padded_inj (List.tail_eq_of_cons_eq same)
    omega
  · exact (signed same).elim
  · exact (signed same.symm).elim
  · have := padded_inj same
    omega

theorem partitionName_inj {m n : Int} (same : partitionName (civil m) = partitionName (civil n)) : m = n := by
  have tail := List.append_cancel_left same
  have widths (k : Int) : ('_' :: padded 2 (Calendar.monthIn k).natAbs).length = 3 := by
    have small : (Calendar.monthIn k).natAbs < 10 ^ 2 := by
      unfold Calendar.monthIn
      omega
    rw [List.length_cons, padded_length (by decide) small]
  obtain ⟨years,months⟩ := List.append_inj' tail ((widths m).trans (widths n).symm)
  have year := sprintf04_inj years
  have month := padded_inj (List.tail_eq_of_cons_eq months)
  simp only [civil, Calendar.yearOf, Calendar.monthIn] at year month
  omega

/-! ### Ranges -/

theorem Zone.monthBound_lt_succ (zone : Zone) (n : Int) : monthBound zone.offset n < monthBound zone.offset (n + 1) := by
  have length := Calendar.month_length n
  have here := zone.bounded n
  have there := zone.bounded (n + 1)
  change (Calendar.monthStart n * 86400000000000 - zone.offset n * 60000000000 : Int) <
    Calendar.monthStart (n + 1) * 86400000000000 - zone.offset (n + 1) * 60000000000
  omega

theorem Zone.monthBound_lt (zone : Zone) {m n : Int} (before : m < n) :
    monthBound zone.offset m < monthBound zone.offset n :=
  strictMono_int_of_lt_succ zone.monthBound_lt_succ before

theorem Zone.monthBound_le (zone : Zone) {m n : Int} (before : m ≤ n) :
    monthBound zone.offset m ≤ monthBound zone.offset n :=
  (strictMono_int_of_lt_succ zone.monthBound_lt_succ).monotone before

theorem monthTable_range (zone : Zone) (n : Int) :
    (monthTable n).range zone = (monthBound zone.offset n, monthBound zone.offset (n + 1)) := by
  simp only [monthTable, CreateTable.range, civil_index]

/-- Different months have different names and no instant in common. -/
theorem monthTable_apart (zone : Zone) {m n : Int} (different : m ≠ n) :
    (monthTable m).name ≠ (monthTable n).name ∧ Separate ((monthTable m).range zone) ((monthTable n).range zone) := by
  refine ⟨fun same => different (partitionName_inj same),?_⟩
  rintro t ⟨left,right⟩
  rw [monthTable_range] at left right
  rcases Int.lt_or_gt_of_ne different with before | after
  · exact absurd left.2 (not_lt_of_ge (le_trans (zone.monthBound_le before) right.1))
  · exact absurd right.2 (not_lt_of_ge (le_trans (zone.monthBound_le after) left.1))

theorem ensureStatements_months {now : Time} {monthsAhead : Int} {c : CreateTable}
    (asked : c ∈ ensureStatements now monthsAhead) : ∃ n, c = monthTable n := by
  rw [ensureStatements_eq] at asked
  obtain ⟨i,_,rfl⟩ := List.mem_map.mp asked
  exact ⟨_,rfl⟩

theorem tables_apart (zone : Zone) {a b : CreateTable} (left : ∃ m, a = monthTable m) (right : ∃ n, b = monthTable n) :
    a = b ∨ a.name ≠ b.name ∧ Separate (a.range zone) (b.range zone) := by
  obtain ⟨m,rfl⟩ := left
  obtain ⟨n,rfl⟩ := right
  by_cases same : m = n
  · exact Or.inl (congrArg monthTable same)
  · exact Or.inr (monthTable_apart zone same)

theorem ensureStatements_tile (zone : Zone) (now : Time) (monthsAhead : Nat) :
    Tiles (monthBound zone.offset (calendarMonth now)) ((ensureStatements now monthsAhead).map (CreateTable.range zone))
      (monthBound zone.offset (calendarMonth now + (monthsAhead + 1))) := by
  have increasing (i : Nat) : monthBound zone.offset (calendarMonth now + i) <
      monthBound zone.offset (calendarMonth now + (i + 1 : Nat)) := zone.monthBound_lt (by omega)
  have steps := @tiles_steps _ _ (fun i : Nat => monthBound zone.offset (calendarMonth now + i)) increasing
    (monthsAhead + 1)
  have ranges : (ensureStatements now monthsAhead).map (CreateTable.range zone) =
      (List.range (monthsAhead + 1)).map fun i : Nat =>
        (monthBound zone.offset (calendarMonth now + i), monthBound zone.offset (calendarMonth now + (i + 1 : Nat))) := by
    rw [ensureStatements_eq, List.map_map]
    refine List.map_congr_left fun i _ => ?_
    rw [Function.comp, monthTable_range, Int.add_assoc]
    rfl
  rw [← ranges, Int.natCast_zero, Int.add_zero] at steps
  exact steps

/-! ### The catalog -/

/-- What the statements of any calls leave in the catalog. -/
structure Catalogued (zone : Zone) (catalog : List CreateTable) : Prop where
  months : ∀ c ∈ catalog, ∃ n, c = monthTable n
  apart : catalog.Pairwise fun a b => Separate (a.range zone) (b.range zone)

theorem Catalogued.create {zone : Zone} {catalog : List CreateTable} (catalogued : Catalogued zone catalog)
    {c : CreateTable} (month : ∃ n, c = monthTable n) :
    Catalogued zone (createIfNotExists catalog c) ∧ c ∈ createIfNotExists catalog c ∧
      ∀ d ∈ catalog, d ∈ createIfNotExists catalog c := by
  unfold createIfNotExists
  split
  · rename_i taken
    -- The table of that name has the same bounds.
    obtain ⟨d,member,same⟩ := List.mem_map.mp taken
    rcases tables_apart zone (catalogued.months d member) month with rfl | ⟨different,_⟩
    · exact ⟨catalogued,member,fun _ => id⟩
    · exact absurd same different
  · rename_i free
    refine ⟨⟨?_,?_⟩,List.mem_append_right _ List.mem_cons_self,fun d => List.mem_append_left _⟩
    · intro d member
      rcases List.mem_append.mp member with old | new
      · exact catalogued.months d old
      · rw [List.mem_singleton.mp new]
        exact month
    · refine List.pairwise_append.mpr ⟨catalogued.apart,List.pairwise_singleton _ _,?_⟩
      intro d member e last
      obtain rfl := List.mem_singleton.mp last
      rcases tables_apart zone (catalogued.months d member) month with rfl | ⟨_,apart⟩
      · exact absurd (List.mem_map_of_mem member) free
      · exact apart

theorem Catalogued.statements {zone : Zone} (statements : List CreateTable) {catalog : List CreateTable}
    (catalogued : Catalogued zone catalog) (months : ∀ c ∈ statements, ∃ n, c = monthTable n) :
    Catalogued zone (statements.foldl createIfNotExists catalog) ∧
      (∀ c ∈ statements, c ∈ statements.foldl createIfNotExists catalog) ∧
      ∀ d ∈ catalog, d ∈ statements.foldl createIfNotExists catalog := by
  induction statements generalizing catalog with
  | nil => exact ⟨catalogued,by simp,fun _ => id⟩
  | cons c rest ih =>
    obtain ⟨next,present,kept⟩ := catalogued.create (months c List.mem_cons_self)
    obtain ⟨final,asked,onward⟩ := ih next fun d member => months d (List.mem_cons_of_mem _ member)
    refine ⟨final,?_,fun d member => onward d (kept d member)⟩
    intro d member
    rcases List.mem_cons.mp member with rfl | later
    · exact onward d present
    · exact asked d later

/-- One call asks for ranges that follow one another from the first day of its month to that
of the month after its last; two tables of any calls are the same, or differ in name and share
no instant; so after any calls every range asked for is there, and no two tables overlap. -/
theorem partitions_tile (zone : Zone) :
    (∀ (now : Time) (monthsAhead : Nat),
      let ranges := (ensureStatements now monthsAhead).map (CreateTable.range zone)
      let first := monthBound zone.offset (calendarMonth now)
      let last := monthBound zone.offset (calendarMonth now + (monthsAhead + 1))
      Tiles first ranges last ∧ ranges.Pairwise Separate ∧
        ∀ t, (∃ range ∈ ranges, Within range t) ↔ first ≤ t ∧ t < last) ∧
    (∀ now monthsAhead now' monthsAhead', ∀ a ∈ ensureStatements now monthsAhead,
      ∀ b ∈ ensureStatements now' monthsAhead',
        a = b ∨ a.name ≠ b.name ∧ Separate (a.range zone) (b.range zone)) ∧
    ∀ calls : List (Time × Int),
      let statements := calls.flatMap fun call => ensureStatements call.1 call.2
      let catalog := statements.foldl createIfNotExists []
      (∀ c ∈ statements, c ∈ catalog) ∧ catalog.Pairwise fun a b => Separate (a.range zone) (b.range zone) := by
  refine ⟨fun now monthsAhead => ?_,?_,fun calls => ?_⟩
  · have tiles := ensureStatements_tile zone now monthsAhead
    exact ⟨tiles,tiles.separate,tiles.cover⟩
  · intro now monthsAhead now' monthsAhead' a left b right
    exact tables_apart zone (ensureStatements_months left) (ensureStatements_months right)
  · have months : ∀ c ∈ calls.flatMap fun call => ensureStatements call.1 call.2, ∃ n, c = monthTable n := by
      intro c member
      obtain ⟨call,_,asked⟩ := List.mem_flatMap.mp member
      exact ensureStatements_months asked
    have none : Catalogued zone [] := ⟨by simp,List.Pairwise.nil⟩
    obtain ⟨final,asked,_⟩ := none.statements _ months
    exact ⟨asked,final.apart⟩

end Tickr.Postgres
