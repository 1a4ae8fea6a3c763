import Tickr.Calendar
import Tickr.Message

/-! The bounds of monthly partitions, as instants, as the text in which PostgreSQL lists
them, and as `parseUpperBound` reads that text back. Texts are lists of characters. -/
namespace Tickr.Postgres

abbrev Text := List Char

/-- The offset from UTC, in minutes, of the session time zone at the first midnight of
each month. A bound is a date without a zone, so PostgreSQL takes it in this one. -/
abbrev Offsets := Int → Int

/-- The month of an instant in UTC. -/
def calendarMonth (t : Time) : Int := Calendar.monthOf (t / Duration.day)

/-- The first instant of a month in the session time zone. -/
def monthBound (offset : Offsets) (n : Int) : Time :=
  Calendar.monthStart n * Duration.day - offset n * Duration.minute

/-! ### What PostgreSQL prints -/

def apostrophe : Char := Char.ofNat 39

def digit (n : Nat) : Char := Char.ofNat (48 + n)

def pad2 (n : Nat) : Text := [digit (n / 10 % 10), digit (n % 10)]

def pad4 (n : Nat) : Text :=
  if n < 10000 then [digit (n / 1000 % 10), digit (n / 100 % 10), digit (n / 10 % 10), digit (n % 10)]
  else Nat.toDigits 10 n

/-- Whole hours print as two digits, anything else with its minutes. -/
def zoneText (minutes : Int) : Text :=
  (if minutes < 0 then '-' else '+') :: pad2 (minutes.natAbs / 60) ++
    if minutes.natAbs % 60 = 0 then [] else ':' :: pad2 (minutes.natAbs % 60)

def stampText (offset : Offsets) (n : Int) : Text :=
  pad4 (Calendar.yearOf n).toNat ++ '-' :: pad2 (Calendar.monthIn n).toNat ++
    "-01 00:00:00".toList ++ zoneText (offset n)

/-- The bound of the DEFAULT partition. -/
def defaultText : Text := ['D', 'E', 'F', 'A', 'U', 'L', 'T']

def opening : Text := "FOR VALUES FROM (".toList

/-- The marker before the upper bound. -/
def toMarker : Text := ['T', 'O', ' ', '(']

/-- `pg_get_expr` of the bound of the partition of month `n`. -/
def boundText (offset : Offsets) (n : Int) : Text :=
  opening ++ apostrophe :: stampText offset n ++ apostrophe :: ')' :: ' ' :: toMarker ++
    apostrophe :: stampText offset (n + 1) ++ [apostrophe, ')']

/-- The month of an instant where clocks are `minutes` ahead of UTC. -/
def localMonth (t : Time) (minutes : Int) : Int := Calendar.monthOf ((t + minutes * Duration.minute) / Duration.day)

/-- Any whole second, as a session prints it whose offset is `minutes` then. -/
def instantText (t : Time) (minutes : Int) : Text :=
  let day := (t + minutes * Duration.minute) / Duration.day
  let clock := (t + minutes * Duration.minute) % Duration.day
  let month := localMonth t minutes
  pad4 (Calendar.yearOf month).toNat ++ '-' :: (pad2 (Calendar.monthIn month).toNat ++ '-' ::
    (pad2 (day - Calendar.monthStart month + 1).toNat ++ ' ' :: (pad2 (clock / Duration.hour).toNat ++ ':' ::
      (pad2 (clock / Duration.minute % 60).toNat ++ ':' ::
        (pad2 (clock / Duration.second % 60).toNat ++ zoneText minutes)))))

def rangeText (lower upper : Text) : Text :=
  opening ++ apostrophe :: lower ++ apostrophe :: ')' :: ' ' :: toMarker ++ apostrophe :: upper ++ [apostrophe, ')']

/-! ### What the adapter reads -/

def digitValue (c : Char) : Nat := c.toNat - 48

/-- `getnum` of package time: two digits, or one where the layout allows it. -/
def getnum (fixed : Bool) : Text → Option (Nat × Text)
  | [] => none
  | c :: rest =>
    if c.isDigit then
      match rest with
      | d :: later => if d.isDigit then some (10 * digitValue c + digitValue d, later)
          else if fixed then none else some (digitValue c, rest)
      | [] => if fixed then none else some (digitValue c, rest)
    else none

/-- The four digits of a year. -/
def longYear : Text → Option (Nat × Text)
  | a :: b :: c :: d :: rest =>
    if a.isDigit && b.isDigit && c.isDigit && d.isDigit then
      some (1000 * digitValue a + 100 * digitValue b + 10 * digitValue c + digitValue d, rest)
    else none
  | _ => none

def skip (c : Char) : Text → Option Text
  | [] => none
  | d :: rest => if d = c then some rest else none

/-- A blank of a layout stands for any number of blanks. -/
def skipBlank : Text → Option Text
  | [] => some []
  | d :: rest => if d = ' ' then some (rest.dropWhile (· = ' ')) else none

/-- A fraction is read after the seconds although no layout has one. -/
def fraction : Text → Nat × Text
  | point :: d :: rest =>
    if (point = '.' || point = ',') && d.isDigit then
      let digits := (d :: rest).takeWhile Char.isDigit
      let kept := digits.take 9
      (kept.foldl (fun n c => 10 * n + digitValue c) 0 * Nat.pow 10 (9 - kept.length),
        (d :: rest).dropWhile Char.isDigit)
    else (0, point :: d :: rest)
  | text => (0, text)

/-- 2006-01-02. The result is a day number. -/
def parseDate (text : Text) : Option (Int × Text) := do
  let (year, text) ← longYear text
  let text ← skip '-' text
  let (month, text) ← getnum true text
  let text ← skip '-' text
  let (day, text) ← getnum true text
  let n : Int := 12 * year + month - 1
  if 1 ≤ month ∧ month ≤ 12 ∧ 1 ≤ day ∧ (day : Int) ≤ Calendar.monthStart (n + 1) - Calendar.monthStart n then
    some (Calendar.dayOf year month day, text)
  else none

/-- 15:04:05, after a blank. The result is the time since midnight. -/
def parseClock (text : Text) : Option (Duration × Text) := do
  let text ← skipBlank text
  let (hour, text) ← getnum false text
  let text ← skip ':' text
  let (minute, text) ← getnum true text
  let text ← skip ':' text
  let (second, text) ← getnum true text
  if hour < 24 ∧ minute < 60 ∧ second < 60 then
    some (hour * Duration.hour + minute * Duration.minute + second * Duration.second + (fraction text).1,
      (fraction text).2)
  else none

/-- -07: a sign and the hours. -/
def parseZone : Text → Option (Duration × Text)
  | sign :: text => do
    let (hours, text) ← getnum true text
    if 24 < hours then none
    else if sign = '+' then some (hours * Duration.hour, text)
    else if sign = '-' then some (-(hours * Duration.hour), text)
    else none
  | [] => none

/-- The three layouts of `parseUpperBound`, from the longest to the shortest. -/
inductive Layout where
  | zoned
  | clock
  | date
  deriving DecidableEq, Repr

def parseTime (layout : Layout) (text : Text) : Option Time := do
  let (day, text) ← parseDate text
  let (sinceMidnight, text) ← if layout = .date then some (0, text) else parseClock text
  let (zone, text) ← if layout = .zoned then parseZone text else some (0, text)
  if text = [] then some (day * Duration.day + sinceMidnight - zone) else none

/-- The text behind the first occurrence of `marker`. -/
def afterMarker (marker : Text) : Text → Option Text
  | [] => if marker = [] then some [] else none
  | c :: rest =>
    if marker.isPrefixOf (c :: rest) then some ((c :: rest).drop marker.length) else afterMarker marker rest

def parseUpperBound (bound : Text) : Option Time := do
  let rest ← afterMarker toMarker bound
  let rest ← afterMarker [apostrophe] rest
  if apostrophe ∈ rest then
    let stamp := rest.takeWhile (· ≠ apostrophe)
    (parseTime .zoned stamp).or ((parseTime .clock stamp).or (parseTime .date stamp))
  else none

/-! ### Reading back what is printed -/

theorem digit_isDigit : ∀ n < 10, (digit n).isDigit = true := by decide

theorem digitValue_digit : ∀ n < 10, digitValue (digit n) = n := by decide

/-- The characters that the adapter searches a bound for: the first of TO, the first of
DEFAULT, and the quote. -/
def searched : Text := ['T', 'D', apostrophe]

theorem getnum_pad2 (fixed : Bool) {n : Nat} (small : n < 100) (rest : Text) :
    getnum fixed (pad2 n ++ rest) = some (n,rest) := by
  have tens : n / 10 % 10 < 10 := by omega
  have ones : n % 10 < 10 := by omega
  simp only [pad2, List.cons_append, List.nil_append, getnum, digit_isDigit _ tens, digit_isDigit _ ones,
    digitValue_digit _ tens, digitValue_digit _ ones, if_true, Option.some.injEq, Prod.mk.injEq, and_true]
  omega

theorem longYear_pad4 {n : Nat} (small : n < 10000) (rest : Text) :
    longYear (pad4 n ++ rest) = some (n,rest) := by
  have place (k : Nat) : k % 10 < 10 := by omega
  simp only [pad4, small, if_true, List.cons_append, List.nil_append, longYear, digit_isDigit _ (place _),
    digitValue_digit _ (place _), Bool.and_self, Option.some.injEq, Prod.mk.injEq, and_true]
  omega

/-- A four-digit year and an offset of whole hours. -/
structure Readable (offset : Offsets) (n : Int) : Prop where
  year : 0 ≤ Calendar.yearOf n ∧ Calendar.yearOf n < 10000
  zone : (offset n).natAbs % 60 = 0 ∧ (offset n).natAbs ≤ 24 * 60

theorem parseZone_zoneText {minutes : Int} (whole : minutes.natAbs % 60 = 0) (bound : minutes.natAbs ≤ 24 * 60) :
    parseZone (zoneText minutes) = some (minutes * Duration.minute,[]) := by
  have hours : minutes.natAbs / 60 < 100 := by omega
  have fits : ¬24 < minutes.natAbs / 60 := by omega
  have read := getnum_pad2 true hours []
  rw [List.append_nil] at read
  simp only [zoneText, whole, if_true, List.append_nil, parseZone]
  by_cases west : minutes < 0
  · simp only [west, if_true, read, Option.bind_eq_bind, Option.bind_some, fits, if_false]
    have sign : ('-' : Char) ≠ '+' := by decide
    have total : -((minutes.natAbs / 60 : Nat) * Duration.hour : Int) = minutes * Duration.minute := by
      simp only [Duration.hour, Duration.minute, Duration.second, Duration.millisecond]
      omega
    simp only [sign, if_false, total]
  · have total : ((minutes.natAbs / 60 : Nat) * Duration.hour : Int) = minutes * Duration.minute := by
      simp only [Duration.hour, Duration.minute, Duration.second, Duration.millisecond]
      omega
    simp only [west, if_false, read, Option.bind_eq_bind, Option.bind_some, fits, if_true, total]

theorem parseDate_fields {month day : Int} (year : 0 ≤ Calendar.yearOf month ∧ Calendar.yearOf month < 10000)
    (within : Calendar.monthStart month ≤ day ∧ day < Calendar.monthStart (month + 1)) (rest : Text) :
    parseDate (pad4 (Calendar.yearOf month).toNat ++ '-' :: (pad2 (Calendar.monthIn month).toNat ++ '-' ::
      (pad2 (day - Calendar.monthStart month + 1).toNat ++ rest))) = some (day,rest) := by
  have months : 1 ≤ Calendar.monthIn month ∧ Calendar.monthIn month ≤ 12 := by
    unfold Calendar.monthIn
    omega
  have length := Calendar.month_length month
  have small : (Calendar.yearOf month).toNat < 10000 := by omega
  have narrow : (Calendar.monthIn month).toNat < 100 := by omega
  have short : (day - Calendar.monthStart month + 1).toNat < 100 := by omega
  have yearBack : ((Calendar.yearOf month).toNat : Int) = Calendar.yearOf month := by omega
  have monthBack : ((Calendar.monthIn month).toNat : Int) = Calendar.monthIn month := by omega
  have dayBack : ((day - Calendar.monthStart month + 1).toNat : Int) = day - Calendar.monthStart month + 1 := by omega
  have index : 12 * Calendar.yearOf month + Calendar.monthIn month - 1 = month := by
    unfold Calendar.yearOf Calendar.monthIn
    omega
  have valid : 1 ≤ (Calendar.monthIn month).toNat ∧ (Calendar.monthIn month).toNat ≤ 12 ∧
      1 ≤ (day - Calendar.monthStart month + 1).toNat ∧
      day - Calendar.monthStart month + 1 ≤ Calendar.monthStart (month + 1) - Calendar.monthStart month := by
    omega
  have number : Calendar.dayOf (Calendar.yearOf month) (Calendar.monthIn month)
      (day - Calendar.monthStart month + 1) = day := by
    rw [Calendar.dayOf_eq]
    omega
  simp only [parseDate, longYear_pad4 small, Option.bind_eq_bind, Option.bind_some, skip, if_true,
    getnum_pad2 true narrow, getnum_pad2 true short, yearBack, monthBack, dayBack, index, if_pos valid, number]

theorem parseClock_fields {hour minute second : Nat} (valid : hour < 24 ∧ minute < 60 ∧ second < 60) {zone : Text}
    (sign : ∃ c later, zone = c :: later ∧ c ≠ '.' ∧ c ≠ ',') :
    parseClock (' ' :: (pad2 hour ++ ':' :: (pad2 minute ++ ':' :: (pad2 second ++ zone)))) =
      some (hour * Duration.hour + minute * Duration.minute + second * Duration.second,zone) := by
  obtain ⟨c,later,rfl,point,comma⟩ := sign
  have plain : fraction (c :: later) = (0,c :: later) := by
    unfold fraction
    split
    · rename_i point' d rest same
      cases same
      simp [point, comma]
    · rfl
  have blank (rest : Text) : skipBlank (' ' :: (pad2 hour ++ rest)) = some (pad2 hour ++ rest) := by
    have filled : digit (hour / 10 % 10) ≠ ' ' := by
      intro same
      exact absurd (same ▸ digit_isDigit _ (Nat.mod_lt _ (by decide))) (by decide)
    simp [skipBlank, pad2, filled]
  simp only [parseClock, blank, getnum_pad2 _ (by omega : hour < 100), getnum_pad2 _ (by omega : minute < 100),
    getnum_pad2 _ (by omega : second < 100), skip, if_true, Option.bind_eq_bind, Option.bind_some, plain,
    if_pos valid, Int.natCast_zero, Int.add_zero]

/-! ### Instants -/

theorem zoneText_sign (minutes : Int) : ∃ c later, zoneText minutes = c :: later ∧ c ≠ '.' ∧ c ≠ ',' := by
  refine ⟨_,_,rfl,?_⟩
  split <;> decide

/-- The hours, minutes and seconds of a time of day. -/
theorem clock_fields {c : Int} (range : 0 ≤ c ∧ c < Duration.day) :
    (c / Duration.hour).toNat < 24 ∧ (c / Duration.minute % 60).toNat < 60 ∧ (c / Duration.second % 60).toNat < 60 ∧
    (c % Duration.second = 0 → ((c / Duration.hour).toNat * Duration.hour + (c / Duration.minute % 60).toNat * Duration.minute +
      (c / Duration.second % 60).toNat * Duration.second : Int) = c) := by
  have day : Duration.day = 86400000000000 := rfl
  have hour : Duration.hour = 3600000000000 := rfl
  have minute : Duration.minute = 60000000000 := rfl
  have second : Duration.second = 1000000000 := rfl
  rw [hour, minute, second]
  rw [day] at range
  refine ⟨by omega,by omega,by omega,fun whole => ?_⟩
  omega

section
variable {t : Time} {minutes : Int}

/-- The fields of a printed instant, up to its zone. -/
theorem instantText_fields (year : 0 ≤ Calendar.yearOf (localMonth t minutes) ∧
      Calendar.yearOf (localMonth t minutes) < 10000) : ∃ clock rest,
    parseDate (instantText t minutes) = some ((t + minutes * Duration.minute) / Duration.day,' ' :: rest) ∧
    parseClock (' ' :: rest) = some (clock,zoneText minutes) ∧
    ((t + minutes * Duration.minute) % Duration.second = 0 → clock = (t + minutes * Duration.minute) % Duration.day) := by
  have range : 0 ≤ (t + minutes * Duration.minute) % Duration.day ∧
      (t + minutes * Duration.minute) % Duration.day < Duration.day :=
    ⟨Int.emod_nonneg _ (by decide),Int.emod_lt_of_pos _ (by decide)⟩
  obtain ⟨hour,minute,second,total⟩ := clock_fields range
  refine ⟨_,_,parseDate_fields year (Calendar.monthOf_spec _) _,
    parseClock_fields ⟨hour,minute,second⟩ (zoneText_sign minutes),?_⟩
  intro whole
  refine total ?_
  rw [Int.emod_emod_of_dvd _ (by decide)]
  exact whole

theorem parseTime_instantText (year : 0 ≤ Calendar.yearOf (localMonth t minutes) ∧
      Calendar.yearOf (localMonth t minutes) < 10000) (whole : minutes.natAbs % 60 = 0)
    (near : minutes.natAbs ≤ 24 * 60) (seconds : t % Duration.second = 0) :
    parseTime .zoned (instantText t minutes) = some t := by
  obtain ⟨clock,rest,date,time,total⟩ := instantText_fields year
  have local_ : (t + minutes * Duration.minute) % Duration.second = 0 := by
    have multiple : minutes * Duration.minute = minutes * 60 * Duration.second := Int.mul_assoc minutes 60 _ |>.symm
    rw [multiple, Int.add_mul_emod_self_right]
    exact seconds
  have sum := Int.mul_ediv_add_emod (t + minutes * Duration.minute) Duration.day
  rw [← total local_, Int.mul_comm] at sum
  simp only [parseTime, date, time, parseZone_zoneText whole near, Option.bind_eq_bind, Option.bind_some, if_true,
    reduceCtorEq, if_false]
  rw [sum, Int.add_sub_cancel]

end

/-- The stamp of a bound in the session's own zone. -/
theorem instantText_monthBound (offset : Offsets) (n : Int) :
    localMonth (monthBound offset n) (offset n) = n ∧ instantText (monthBound offset n) (offset n) = stampText offset n := by
  have sum : monthBound offset n + offset n * Duration.minute = Calendar.monthStart n * Duration.day :=
    Int.sub_add_cancel _ _
  have day : Calendar.monthStart n * Duration.day / Duration.day = Calendar.monthStart n :=
    Int.mul_ediv_cancel _ (by decide)
  have midnight : Calendar.monthStart n * Duration.day % Duration.day = 0 := Int.mul_emod_left _ _
  have month : localMonth (monthBound offset n) (offset n) = n := by
    rw [localMonth, sum, day, Calendar.monthOf_eq_iff]
    exact ⟨Int.le_refl _,Calendar.monthStart_lt_succ n⟩
  refine ⟨month,?_⟩
  have first : Calendar.monthStart n - Calendar.monthStart n + 1 = 1 := by omega
  simp only [instantText, month, sum, day, midnight, first, stampText, Int.zero_ediv, Int.zero_emod]
  simp [pad2, digit]

theorem monthBound_seconds (offset : Offsets) (n : Int) : monthBound offset n % Duration.second = 0 := by
  have multiple : monthBound offset n = (Calendar.monthStart n * 86400 - offset n * 60) * Duration.second := by
    have day : Duration.day = 86400 * Duration.second := rfl
    have minute : Duration.minute = 60 * Duration.second := rfl
    rw [monthBound, day, minute, Int.sub_mul, Int.mul_assoc, Int.mul_assoc]
  rw [multiple]
  exact Int.mul_emod_left _ _

theorem parseTime_stampText {offset : Offsets} {n : Int} (readable : Readable offset n) :
    parseTime .zoned (stampText offset n) = some (monthBound offset n) := by
  obtain ⟨month,text⟩ := instantText_monthBound offset n
  rw [← text]
  refine parseTime_instantText ?_ readable.zone.1 readable.zone.2 (monthBound_seconds offset n)
  rw [month]
  exact readable.year

theorem isDigit_plain {c : Char} (digit : c.isDigit = true) : c ∉ searched := by
  intro member
  simp only [searched, List.mem_cons, List.not_mem_nil, or_false] at member
  rcases member with rfl | rfl | rfl
  all_goals exact absurd digit (by decide)

theorem pad2_plain {n : Nat} : ∀ c ∈ pad2 n, c ∉ searched := by
  intro c member
  simp only [pad2, List.mem_cons, List.not_mem_nil, or_false] at member
  rcases member with rfl | rfl
  · exact isDigit_plain (digit_isDigit _ (by omega))
  · exact isDigit_plain (digit_isDigit _ (by omega))

theorem pad4_isDigit {n : Nat} : ∀ c ∈ pad4 n, c.isDigit = true := by
  intro c member
  unfold pad4 at member
  split at member
  · simp only [List.mem_cons, List.not_mem_nil, or_false] at member
    rcases member with rfl | rfl | rfl | rfl
    all_goals exact digit_isDigit _ (by omega)
  · exact Nat.isDigit_of_mem_toDigits (by decide) (by decide) member

theorem plain_of_all {p : Char → Prop} [DecidablePred p] {text : Text}
    (checked : text.all (fun c => decide (p c)) = true) : ∀ c ∈ text, p c :=
  fun c member => of_decide_eq_true (List.all_eq_true.mp checked c member)

/-- A printed instant holds nothing that the adapter searches for. -/
theorem instantText_plain {t : Time} {minutes : Int} : ∀ c ∈ instantText t minutes, c ∉ searched := by
  have fixed : ∀ c ∈ ['-', ' ', ':', '+'], c ∉ searched := plain_of_all (by decide)
  intro c member
  simp only [instantText, zoneText, List.mem_append, List.mem_cons] at member
  rcases member with digits | dash | digits | dash | digits | blank | digits | colon | digits | colon | digits |
    (sign | digits) | minutes
  · exact isDigit_plain (pad4_isDigit c digits)
  · exact fixed c (by simp [dash])
  · exact pad2_plain c digits
  · exact fixed c (by simp [dash])
  · exact pad2_plain c digits
  · exact fixed c (by simp [blank])
  · exact pad2_plain c digits
  · exact fixed c (by simp [colon])
  · exact pad2_plain c digits
  · exact fixed c (by simp [colon])
  · exact pad2_plain c digits
  · exact fixed c (by split at sign <;> simp [sign])
  · exact pad2_plain c digits
  · split at minutes
    · cases minutes
    · rcases List.mem_cons.mp minutes with colon | digits
      · exact fixed c (by simp [colon])
      · exact pad2_plain c digits

theorem afterMarker_skip {m : Char} {marker u : Text} (absent : ∀ c ∈ u, c ≠ m) (v : Text) :
    afterMarker (m :: marker) (u ++ v) = afterMarker (m :: marker) v := by
  induction u with
  | nil => rfl
  | cons c rest ih =>
    have different : (m == c) = false := beq_eq_false_iff_ne.mpr (absent c List.mem_cons_self).symm
    rw [List.cons_append, afterMarker, List.isPrefixOf, different, Bool.false_and, if_neg Bool.false_ne_true]
    exact ih fun d member => absent d (List.mem_cons_of_mem _ member)

theorem afterMarker_here (m : Char) (marker v : Text) :
    afterMarker (m :: marker) (m :: marker ++ v) = some v := by
  have found : (m :: marker).isPrefixOf (m :: (marker ++ v)) = true := by
    rw [List.isPrefixOf_iff_prefix]
    exact List.prefix_append (m :: marker) v
  rw [List.cons_append, afterMarker, if_pos found]
  exact congrArg some (@List.drop_left _ (m :: marker) v)

theorem afterMarker_absent {m : Char} {marker text : Text} (absent : ∀ c ∈ text, c ≠ m) :
    afterMarker (m :: marker) text = none := by
  have skipped := @afterMarker_skip m marker text absent []
  rw [List.append_nil] at skipped
  rw [skipped]
  rfl

/-- The texts of the two bounds hold nothing that the adapter searches for. -/
structure Plain (lower upper : Text) : Prop where
  lower : ∀ c ∈ lower, c ∉ searched
  upper : ∀ c ∈ upper, c ∉ searched

section
variable {lower upper : Text} (plain : Plain lower upper)
include plain

/-- A range does not read as the DEFAULT partition. -/
theorem rangeText_explicit : afterMarker defaultText (rangeText lower upper) = none := by
  have fixed : ∀ c ∈ opening ++ apostrophe :: ')' :: ' ' :: toMarker, c ≠ 'D' := plain_of_all (by decide)
  refine afterMarker_absent fun c member => ?_
  simp only [rangeText, List.mem_append, List.mem_cons, List.not_mem_nil, or_false] at member
  rcases member with (((text | quote | stamp) | quote | paren | blank | marker) | quote | stamp) | quote | paren
  · exact fixed c (List.mem_append_left _ text)
  · exact fixed c (by simp [quote])
  · exact fun same => plain.lower c stamp (same ▸ by decide)
  · exact fixed c (by simp [quote])
  · exact fixed c (by simp [paren])
  · exact fixed c (by simp [blank])
  · exact fixed c (by simp [marker])
  · exact fixed c (by simp [quote])
  · exact fun same => plain.upper c stamp (same ▸ by decide)
  · exact fixed c (by simp [quote])
  · exact fixed c (by simp [paren])

/-- The adapter finds the upper bound and tries its layouts on it. -/
theorem parseUpperBound_rangeText : parseUpperBound (rangeText lower upper) =
    (parseTime .zoned upper).or ((parseTime .clock upper).or (parseTime .date upper)) := by
  have clear : ∀ c ∈ opening ++ apostrophe :: lower ++ [apostrophe, ')', ' '], c ≠ 'T' := by
    have fixed : ∀ c ∈ opening ++ [apostrophe, ')', ' '], c ≠ 'T' := plain_of_all (by decide)
    intro c member
    simp only [List.mem_append, List.mem_cons] at member
    rcases member with (text | quote | stamp) | text
    · exact fixed c (List.mem_append_left _ text)
    · exact fixed c (by simp [quote])
    · exact fun same => plain.lower c stamp (same ▸ by decide)
    · exact fixed c (List.mem_append_right _ (by simpa using text))
  have seam : rangeText lower upper = (opening ++ apostrophe :: lower ++ [apostrophe, ')', ' ']) ++
      (toMarker ++ (apostrophe :: upper ++ [apostrophe, ')'])) := by
    simp [rangeText]
  have marked : afterMarker toMarker (rangeText lower upper) = some (apostrophe :: upper ++ [apostrophe, ')']) := by
    rw [seam]
    exact (afterMarker_skip clear _).trans (afterMarker_here 'T' ['O', ' ', '('] _)
  have quoted : afterMarker [apostrophe] (apostrophe :: upper ++ [apostrophe, ')']) =
      some (upper ++ [apostrophe, ')']) := afterMarker_here apostrophe [] _
  have stamp : (upper ++ [apostrophe, ')']).takeWhile (· ≠ apostrophe) = upper := by
    rw [List.takeWhile_append_of_pos]
    · simp
    · intro c member
      exact decide_eq_true fun same => plain.upper c member (same ▸ by decide)
  have closed : apostrophe ∈ upper ++ [apostrophe, ')'] := by simp
  simp only [parseUpperBound, marked, quoted, Option.bind_eq_bind, Option.bind_some, if_pos closed, stamp]

end

theorem boundText_plain (offset : Offsets) (n : Int) : Plain (stampText offset n) (stampText offset (n + 1)) := by
  constructor
  · exact (instantText_monthBound offset n).2 ▸ instantText_plain
  · exact (instantText_monthBound offset (n + 1)).2 ▸ instantText_plain

theorem boundText_explicit {offset : Offsets} {n : Int} : afterMarker defaultText (boundText offset n) = none :=
  rangeText_explicit (boundText_plain offset n)

/-- The adapter reads back the end of a month that is readable. -/
theorem parseUpperBound_boundText {offset : Offsets} {n : Int} (readable : Readable offset (n + 1)) :
    parseUpperBound (boundText offset n) = some (monthBound offset (n + 1)) := by
  have found : parseUpperBound (boundText offset n) = _ := parseUpperBound_rangeText (boundText_plain offset n)
  rw [found, parseTime_stampText readable, Option.some_or]

example : parseUpperBound (boundText (fun _ => 0) (2026 * 12)) =
    some (Calendar.dayOf 2026 2 1 * Duration.day) := by decide +kernel

end Tickr.Postgres
