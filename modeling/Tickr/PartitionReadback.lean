import Tickr.PartitionNames

/-! Reading the bounds of partitions back, in any session. The layouts of `parseUpperBound` know
a zone by its hours alone, and a year by four digits. A bound that none of them fits is passed
over, and its partition is kept for ever. -/
namespace Tickr.Postgres

variable {policy : HistoryPolicy} {offset : Offsets}

/-- The offset from UTC, in minutes, of the session that lists the partitions. It need not be
the zone that their bounds were read in when they were created. -/
structure Session where
  offset : Time → Int
  bounded : ∀ t, (offset t).natAbs < 24 * 60

def Session.text (session : Session) (t : Time) : Text := instantText t (session.offset t)

/-- The year that the session prints. -/
def Session.year (session : Session) (t : Time) : Int := Calendar.yearOf (localMonth t (session.offset t))

/-- `pg_get_expr` of the bound of a child; `none` is the DEFAULT partition. -/
def listedBound (zone : Zone) (session : Session) : Option Int → Text
  | none => defaultText
  | some n => rangeText (session.text (monthBound zone.offset n)) (session.text (monthBound zone.offset (n + 1)))

/-- The test that `DropPartitionsBefore` makes on the text of a bound. -/
def dueText (cutoff : Time) (bound : Text) : Bool :=
  if (afterMarker defaultText bound).isSome then false
  else match parseUpperBound bound with
    | none => false
    | some upper => !decide (cutoff < upper)

def dropListed (zone : Zone) (session : Session) (st : Partitioned policy) (cutoff : Time) : Partitioned policy × Nat :=
  let falls (n : Int) : Bool := dueText cutoff (listedBound zone session (some n))
  let gone := st.months.filter falls
  let messages := st.store.messages.delete fun row => gone.any fun n => covers zone.offset n row.createdAt
  (⟨{ st.store with messages }, st.months.filter fun n => !falls n⟩, gone.length)

/-- A session in the zone that the partitions were created in. -/
theorem dropListed_same (zone : Zone) (session : Session) (st : Partitioned policy) (cutoff : Time)
    (same : ∀ n, session.offset (monthBound zone.offset n) = zone.offset n) :
    dropListed zone session st cutoff = dropPartitionsBefore zone.offset st cutoff := by
  have stamp (n : Int) : session.text (monthBound zone.offset n) = stampText zone.offset n := by
    rw [Session.text, same]
    exact (instantText_monthBound zone.offset n).2
  have falls (n : Int) : dueText cutoff (listedBound zone session (some n)) = due zone.offset cutoff (some n) := by
    have bound : listedBound zone session (some n) = boundText zone.offset n := by
      rw [listedBound, stamp, stamp]
      rfl
    rw [bound]
    rfl
  simp only [dropListed, falls, dropPartitionsBefore]

/-! ### What the layouts do not fit -/

section
variable {t : Time} {minutes : Int}

/-- The fifth digit of a year stands where the first dash should. -/
theorem parseDate_late {year : Nat} (late : 10000 ≤ year) (rest : Text) : parseDate (pad4 year ++ rest) = none := by
  have long : ¬(Nat.toDigits 10 year).length ≤ 4 := by
    rw [Nat.length_toDigits_le_iff (by decide) (by decide)]
    omega
  have digits := @pad4_isDigit year
  have text : pad4 year = Nat.toDigits 10 year := by
    rw [pad4, if_neg (by omega)]
  rw [← text] at long
  obtain ⟨a,b,c,d,e,more,shape⟩ : ∃ a b c d e more, pad4 year = a :: b :: c :: d :: e :: more := by
    generalize pad4 year = chars at long
    rcases chars with _ | ⟨a,_ | ⟨b,_ | ⟨c,_ | ⟨d,_ | ⟨e,more⟩⟩⟩⟩⟩
    case cons.cons.cons.cons.cons => exact ⟨a,b,c,d,e,more,rfl⟩
    all_goals simp at long
  rw [shape] at digits ⊢
  have other : e ≠ '-' := by
    rintro rfl
    exact absurd (digits '-' (by simp)) (by decide)
  simp [parseDate, longYear, skip, digits a (by simp), digits b (by simp), digits c (by simp), digits d (by simp), other]

theorem parseTime_late {layout : Layout} (late : 10000 ≤ Calendar.yearOf (localMonth t minutes)) :
    parseTime layout (instantText t minutes) = none := by
  have none : parseDate (instantText t minutes) = none := parseDate_late (by omega) _
  simp only [parseTime, none, Option.bind_eq_bind, Option.bind_none]

variable (year : 0 ≤ Calendar.yearOf (localMonth t minutes) ∧ Calendar.yearOf (localMonth t minutes) < 10000)
include year

/-- The layouts without a zone leave the zone over. -/
theorem parseTime_unzoned {layout : Layout} (unzoned : layout ≠ .zoned) :
    parseTime layout (instantText t minutes) = none := by
  obtain ⟨clock,rest,date,time,_⟩ := instantText_fields year
  have remains : zoneText minutes ≠ [] := by simp [zoneText]
  simp only [parseTime, date, Option.bind_eq_bind, Option.bind_some, if_neg unzoned]
  split
  · rfl
  · rw [time, Option.bind_some]
    exact if_neg remains

/-- The layout with a zone leaves its minutes over. -/
theorem parseTime_minutes (near : minutes.natAbs < 24 * 60) (odd : minutes.natAbs % 60 ≠ 0) :
    parseTime .zoned (instantText t minutes) = none := by
  obtain ⟨clock,rest,date,time,_⟩ := instantText_fields year
  have hours : minutes.natAbs / 60 < 100 := by omega
  have read := getnum_pad2 true hours (':' :: pad2 (minutes.natAbs % 60))
  have left : ∃ zone, parseZone (zoneText minutes) = some (zone, ':' :: pad2 (minutes.natAbs % 60)) := by
    have fits : ¬24 < minutes.natAbs / 60 := by omega
    simp only [zoneText, if_neg odd, parseZone, List.cons_append, read, Option.bind_eq_bind, Option.bind_some,
      if_neg fits]
    by_cases west : minutes < 0
    · refine ⟨-(minutes.natAbs / 60 : Nat) * Duration.hour,?_⟩
      rw [if_pos west, if_neg (by decide), if_pos rfl, Int.neg_mul]
    · refine ⟨(minutes.natAbs / 60 : Nat) * Duration.hour,?_⟩
      rw [if_neg west, if_pos rfl]
  obtain ⟨zone,parsed⟩ := left
  simp only [parseTime, date, time, parsed, Option.bind_eq_bind, Option.bind_some, if_true, reduceCtorEq, if_false]

end

/-! ### The bounds of a listing -/

/-- The session prints a year of four digits for the bound, and is whole hours from UTC then. -/
def Legible (zone : Zone) (session : Session) (n : Int) : Prop :=
  session.year (monthBound zone.offset n) < 10000 ∧ session.offset (monthBound zone.offset n) % 60 = 0

instance (zone : Zone) (session : Session) (n : Int) : Decidable (Legible zone session n) :=
  inferInstanceAs (Decidable (_ ∧ _))

section
variable {zone : Zone} {session : Session} {n : Int}

theorem listedBound_plain :
    Plain (session.text (monthBound zone.offset n)) (session.text (monthBound zone.offset (n + 1))) :=
  ⟨instantText_plain,instantText_plain⟩

/-- A bound is read back as it is, or not at all. -/
theorem parseUpperBound_cases (era : 0 ≤ session.year (monthBound zone.offset (n + 1))) :
    Legible zone session (n + 1) ∧
        parseUpperBound (listedBound zone session (some n)) = some (monthBound zone.offset (n + 1)) ∨
      ¬Legible zone session (n + 1) ∧ parseUpperBound (listedBound zone session (some n)) = none := by
  have near := session.bounded (monthBound zone.offset (n + 1))
  rw [listedBound, parseUpperBound_rangeText listedBound_plain, Session.text]
  by_cases late : session.year (monthBound zone.offset (n + 1)) < 10000
  · have year := And.intro era late
    by_cases whole : session.offset (monthBound zone.offset (n + 1)) % 60 = 0
    · refine Or.inl ⟨⟨late,whole⟩,?_⟩
      rw [parseTime_instantText year (by omega) (by omega) (monthBound_seconds zone.offset (n + 1)), Option.some_or]
    · refine Or.inr ⟨fun legible => whole legible.2,?_⟩
      rw [parseTime_minutes year near (by omega), parseTime_unzoned year (by decide),
        parseTime_unzoned year (by decide)]
      rfl
  · refine Or.inr ⟨fun legible => late legible.1,?_⟩
    have beyond : 10000 ≤ session.year (monthBound zone.offset (n + 1)) := Int.not_lt.mp late
    rw [parseTime_late beyond, parseTime_late beyond, parseTime_late beyond]
    rfl

theorem dueText_legible (era : 0 ≤ session.year (monthBound zone.offset (n + 1)))
    (legible : Legible zone session (n + 1)) (cutoff : Time) :
    dueText cutoff (listedBound zone session (some n)) = !decide (cutoff < monthBound zone.offset (n + 1)) := by
  have explicit : afterMarker defaultText (listedBound zone session (some n)) = none :=
    rangeText_explicit listedBound_plain
  rcases parseUpperBound_cases era with ⟨_,read⟩ | ⟨illegible,_⟩
  · simp only [dueText, explicit, read, Option.isSome_none, Bool.false_eq_true, if_false]
  · exact absurd legible illegible

/-- No session is as far as a day from UTC, so a bound of the first year prints as of that year. -/
theorem year_dated (dated : 12 ≤ n) : 0 ≤ session.year (monthBound zone.offset (n + 1)) := by
  have here := zone.bounded (n + 1)
  have there := session.bounded (monthBound zone.offset (n + 1))
  have start : (-719131 : Int) ≤ Calendar.monthStart (n + 1) :=
    (strictMono_int_of_lt_succ Calendar.monthStart_lt_succ).monotone (by omega : 13 ≤ n + 1)
  have local_ : Calendar.monthStart 12 ≤ (monthBound zone.offset (n + 1) +
      session.offset (monthBound zone.offset (n + 1)) * Duration.minute) / Duration.day := by
    generalize session.offset (monthBound zone.offset (n + 1)) = minutes at there
    change (-719162 : Int) ≤ (Calendar.monthStart (n + 1) * 86400000000000 - zone.offset (n + 1) * 60000000000 +
      minutes * 60000000000) / 86400000000000
    omega
  have later := Calendar.lt_of_monthStart_lt (local_.trans_lt (Calendar.monthOf_spec _).2)
  unfold Session.year localMonth Calendar.yearOf
  omega

end

/-! ### The partitions that a drop leaves -/

/-- Every upper bound is read back, and a drop takes the partitions that have ended by the
cutoff, the DEFAULT partition apart. -/
structure ReadsBack (zone : Zone) (session : Session) (st : Partitioned policy) : Prop where
  bounds : ∀ n ∈ st.months,
    parseUpperBound (listedBound zone session (some n)) = some (monthBound zone.offset (n + 1))
  drops : ∀ cutoff, (dropListed zone session st cutoff).1.months =
    st.months.filter fun n => cutoff < monthBound zone.offset (n + 1)
  spares : ∀ cutoff, dueText cutoff (listedBound zone session none) = false

/-- The clock of a call is not before the zero time. -/
def Dated : PartitionLabel → Prop
  | .ensure now _ => Time.zero ≤ now
  | _ => True

theorem calendarMonth_dated {now : Time} (dated : Time.zero ≤ now) : 12 ≤ calendarMonth now := by
  have day : Calendar.monthStart 12 ≤ now / Duration.day := (Int.le_ediv_iff_mul_le (by decide)).mpr dated
  have after := (Calendar.monthOf_spec (now / Duration.day)).2
  have later := Calendar.lt_of_monthStart_lt (day.trans_lt after)
  exact Int.lt_add_one_iff.mp later

theorem ensureMonths_origin (list : List Int) (st : Partitioned policy) :
    ∀ n ∈ (ensureMonths offset st list).months, n ∈ st.months ∨ n ∈ list := by
  induction list generalizing st with
  | nil => exact fun n => Or.inl
  | cons m rest ih =>
    intro n member
    unfold ensureMonths at member
    split at member
    · exact (ih st n member).imp_right (List.mem_cons_of_mem m)
    · split at member
      · exact Or.inl member
      · rcases ih _ n member with early | late
        · rcases List.mem_append.mp early with old | new
          · exact Or.inl old
          · rw [List.mem_singleton.mp new]
            exact Or.inr List.mem_cons_self
        · exact Or.inr (List.mem_cons_of_mem m late)

/-- Partitions are of years from 1 on. -/
theorem run_dated {trace : List PartitionLabel} {st : Partitioned policy}
    (run : (partitionSystem offset policy).run Partitioned.start trace = some st)
    (dated : ∀ label ∈ trace, Dated label) : ∀ n ∈ st.months, 12 ≤ n := by
  refine Transition.System.invariant (fun _ label => Dated label)
    (fun st : Partitioned policy => ∀ n ∈ st.months, 12 ≤ n) ?_ run (Transition.System.along_labels dated) ?_
  · intro st label next before condition step
    cases label with
    | call env call =>
      cases step
      exact before
    | ensure now monthsAhead =>
      cases step
      intro n member
      rw [ensurePartitions_asked] at member
      rcases ensureMonths_origin _ st n member with old | asked
      · exact before n old
      · obtain ⟨i,_,rfl⟩ := mem_askedMonths.mp asked
        have current := calendarMonth_dated condition
        omega
    | drop cutoff =>
      cases step
      exact fun n member => before n (List.mem_of_mem_filter member)
  · intro n member
    cases member

/-- The bounds are read back, and the drops are right, exactly if all upper bounds are legible. -/
theorem bounds_read_back_iff (zone : Zone) (session : Session) (policy : HistoryPolicy)
    (trace : List PartitionLabel) (st : Partitioned policy)
    (run : (partitionSystem zone.offset policy).run Partitioned.start trace = some st)
    (dated : ∀ label ∈ trace, Dated label) :
    ReadsBack zone session st ↔ ∀ n ∈ st.months, Legible zone session (n + 1) := by
  have era (n : Int) (listed : n ∈ st.months) : 0 ≤ session.year (monthBound zone.offset (n + 1)) :=
    year_dated (run_dated run dated n listed)
  constructor
  · intro back n listed
    rcases parseUpperBound_cases (era n listed) with ⟨legible,_⟩ | ⟨_,unread⟩
    · exact legible
    · rw [back.bounds n listed] at unread
      cases unread
  · intro legible
    refine ⟨fun n listed => ?_,fun cutoff => ?_,fun cutoff => rfl⟩
    · rcases parseUpperBound_cases (era n listed) with ⟨_,read⟩ | ⟨illegible,_⟩
      · exact read
      · exact absurd (legible n listed) illegible
    · refine List.filter_congr fun n listed => ?_
      beta_reduce
      rw [dueText_legible (era n listed) (legible n listed) cutoff, Bool.not_not]

def Session.fixed (minutes : Int) (bounded : minutes.natAbs < 24 * 60) : Session := ⟨fun _ => minutes, fun _ => bounded⟩

/-- Partitions made in UTC and listed half past a whole hour from it: January of 2026 is never
dropped. -/
theorem bounds_unread :
    ∃ st, (partitionSystem Zone.utc.offset .full).run Partitioned.start [.ensure (midnight 2026 1 15) 0] = some st ∧
      st.months = [24312] ∧
      String.ofList ((Session.fixed 330 (by decide)).text (monthBound Zone.utc.offset 24313)) =
        "2026-02-01 05:30:00+05:30" ∧
      parseUpperBound (listedBound Zone.utc (Session.fixed 330 (by decide)) (some 24312)) = none ∧
      monthBound Zone.utc.offset 24313 ≤ midnight 2036 1 1 ∧
      (dropListed Zone.utc (Session.fixed 330 (by decide)) st (midnight 2036 1 1)).1.months = [24312] :=
  ⟨_,rfl,by decide +kernel,by decide +kernel,by decide +kernel,by decide +kernel,by decide +kernel⟩

theorem bounds_read_back_iff_listed :
    ∃ st, (partitionSystem Zone.utc.offset .full).run Partitioned.start scheduledAhead = some st ∧
      (∀ n ∈ st.months, Legible Zone.utc (Session.fixed (-420) (by decide)) (n + 1)) ∧
      ReadsBack Zone.utc (Session.fixed (-420) (by decide)) st := by
  have dated : ∀ label ∈ scheduledAhead, Dated label := by
    intro label member
    rcases List.mem_cons.mp member with rfl | later
    · exact (by decide : Time.zero ≤ midnight 2026 1 15)
    · rw [List.mem_singleton.mp later]
      trivial
  refine ⟨_,rfl,by decide +kernel,?_⟩
  exact (bounds_read_back_iff Zone.utc (Session.fixed (-420) (by decide)) .full scheduledAhead _ rfl dated).mpr
    (by decide +kernel)

end Tickr.Postgres
