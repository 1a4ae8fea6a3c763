import Tickr.PartitionBounds
import Tickr.PostgresAudit
import Tickr.PostgresProducers

/-! The partitioned schema. A row lies in the partition of the month that its created_at
falls in, and in the DEFAULT partition if that month has none. Dropping a partition takes
every row in it away, whatever its status. -/
namespace Tickr.Postgres

open KeyedTable

variable {policy : HistoryPolicy}

structure Partitioned (policy : HistoryPolicy) where
  store : Store ⟨true, policy⟩
  months : List Int

def Partitioned.start : Partitioned policy := ⟨Store.empty, []⟩

def covers (offset : Offsets) (n : Int) (t : Time) : Bool := monthBound offset n ≤ t && t < monthBound offset (n + 1)

/-- The loop of `EnsurePartitions`. PostgreSQL refuses an empty range, a range that overlaps
another partition, and one that rows of the DEFAULT partition fall in; the loop then ends. -/
def ensureMonths (offset : Offsets) (st : Partitioned policy) : List Int → Partitioned policy
  | [] => st
  | n :: rest =>
    if n ∈ st.months then ensureMonths offset st rest
    else if monthBound offset (n + 1) ≤ monthBound offset n ||
        st.months.any (fun m => monthBound offset m < monthBound offset (n + 1) &&
          monthBound offset n < monthBound offset (m + 1)) ||
        st.store.messages.rows.any (fun row => covers offset n row.createdAt &&
          !st.months.any fun m => covers offset m row.createdAt) then st
    else ensureMonths offset { st with months := st.months ++ [n] } rest

def ensurePartitions (offset : Offsets) (st : Partitioned policy) (now : Time) (monthsAhead : Int) :
    Partitioned policy :=
  ensureMonths offset st ((List.range (monthsAhead.toNat + 1)).map fun i => calendarMonth now + i)

/-- The bound of a child of `tickr_messages`; `none` is the DEFAULT partition. -/
def childBound (offset : Offsets) : Option Int → Text
  | none => defaultText
  | some n => boundText offset n

/-- Whether `DropPartitionsBefore` drops a child. -/
def due (offset : Offsets) (cutoff : Time) (child : Option Int) : Bool :=
  if (afterMarker defaultText (childBound offset child)).isSome then false
  else match parseUpperBound (childBound offset child) with
    | none => false
    | some upper => !decide (cutoff < upper)

def dropPartitionsBefore (offset : Offsets) (st : Partitioned policy) (cutoff : Time) : Partitioned policy × Nat :=
  let gone := st.months.filter fun n => due offset cutoff (some n)
  let messages := st.store.messages.delete fun row => gone.any fun n => covers offset n row.createdAt
  (⟨{ st.store with messages }, st.months.filter fun n => !due offset cutoff (some n)⟩, gone.length)

inductive PartitionLabel where
  | call (env : Env) (call : Call)
  | ensure (now : Time) (monthsAhead : Int)
  | drop (cutoff : Time)

def partitionSystem (offset : Offsets) (policy : HistoryPolicy) :
    Transition.System (Partitioned policy) PartitionLabel where
  step st
    | .call env call => some { st with store := (exec st.store env call).1 }
    | .ensure now monthsAhead => some (ensurePartitions offset st now monthsAhead)
    | .drop cutoff => some (dropPartitionsBefore offset st cutoff).1

/-! ### What a dropped partition takes along -/

/-- A month that the adapter can read is dropped once it has ended by the cutoff. -/
theorem due_iff {offset : Offsets} {cutoff : Time} {n : Int} (readable : Readable offset (n + 1)) :
    due offset cutoff (some n) = true ↔ monthBound offset (n + 1) ≤ cutoff := by
  have explicit : afterMarker defaultText (childBound offset (some n)) = none := boundText_explicit
  have bound : parseUpperBound (childBound offset (some n)) = some (monthBound offset (n + 1)) :=
    parseUpperBound_boundText readable
  simp [due, explicit, bound]

example : due (fun _ => 0) (Time.zero + 9999999999 * Duration.hour) none = false := by decide +kernel

/-- The ranges of the explicit partitions do not overlap, so a row lies in at most one. -/
def Apart (offset : Offsets) (months : List Int) : Prop :=
  ∀ m ∈ months, ∀ n ∈ months, ∀ t, covers offset m t = true → covers offset n t = true → m = n

theorem covers_iff {offset : Offsets} {n : Int} {t : Time} :
    covers offset n t = true ↔ monthBound offset n ≤ t ∧ t < monthBound offset (n + 1) := by
  simp [covers]

/-- In UTC the partition of a month holds the instants of that month. -/
theorem covers_utc {n : Int} {t : Time} : covers (fun _ => 0) n t = true ↔ calendarMonth t = n := by
  have bound (m : Int) : monthBound (fun _ => 0) m = Calendar.monthStart m * Duration.day := by
    unfold monthBound
    rw [Int.zero_mul, Int.sub_zero]
  have positive : 0 < Duration.day := by decide
  rw [covers_iff, bound, bound, calendarMonth, Calendar.monthOf_eq_iff,
    Int.le_ediv_iff_mul_le positive, Int.ediv_lt_iff_lt_mul positive]

theorem Apart.add {offset : Offsets} {months : List Int} {n : Int} (apart : Apart offset months)
    (free : ∀ m ∈ months, ¬(monthBound offset m < monthBound offset (n + 1) ∧
      monthBound offset n < monthBound offset (m + 1))) : Apart offset (months ++ [n]) := by
  have clash (m : Int) (listed : m ∈ months) (t : Time) (left : covers offset m t = true)
      (right : covers offset n t = true) : False := by
    rw [covers_iff] at left right
    exact free m listed ⟨left.1.trans_lt right.2,right.1.trans_lt left.2⟩
  intro a left b right t inA inB
  rw [List.mem_append, List.mem_singleton] at left right
  rcases left with oldA | rfl <;> rcases right with oldB | rfl
  · exact apart a oldA b oldB t inA inB
  · exact (clash a oldA t inA inB).elim
  · exact (clash b oldB t inB inA).elim
  · rfl

theorem ensureMonths_apart {offset : Offsets} (list : List Int) {st : Partitioned policy}
    (apart : Apart offset st.months) : Apart offset (ensureMonths offset st list).months := by
  induction list generalizing st with
  | nil => exact apart
  | cons n rest ih =>
    unfold ensureMonths
    split
    · exact ih apart
    · split
      · exact apart
      · rename_i accepted
        simp only [Bool.or_eq_true, List.any_eq_true, not_or, not_exists, not_and, Bool.and_eq_true,
          decide_eq_true_eq] at accepted
        refine ih (apart.add fun m listed clash => ?_)
        exact accepted.1.2 m listed clash.1 clash.2

/-- Creating partitions moves no row. -/
theorem ensureMonths_store (offset : Offsets) (months : List Int) (st : Partitioned policy) :
    (ensureMonths offset st months).store = st.store := by
  induction months generalizing st with
  | nil => rfl
  | cons n rest ih =>
    unfold ensureMonths
    split
    · exact ih st
    · split
      · rfl
      · exact ih _

theorem partitions_apart {offset : Offsets} {trace : List PartitionLabel} {st : Partitioned policy}
    (run : (partitionSystem offset policy).run Partitioned.start trace = some st) : Apart offset st.months := by
  refine Transition.System.run_invariant (fun st : Partitioned policy => Apart offset st.months) ?_ run ?_
  · rintro st label next apart step
    cases label with
    | call env call =>
      cases step
      exact apart
    | ensure now monthsAhead =>
      cases step
      exact ensureMonths_apart _ apart
    | drop cutoff =>
      cases step
      exact fun m left n right => apart m (List.mem_of_mem_filter left) n (List.mem_of_mem_filter right)
  · intro m member
    cases member

/-- In every reachable state a row lies in at most one month; a drop removes finished
messages only, exactly when no unfinished message lies in a month that the cutoff makes
due; and a month with a readable bound is due once it has ended by the cutoff. -/
theorem partition_drop_finished (offset : Offsets) (policy : HistoryPolicy) (trace : List PartitionLabel)
    (st : Partitioned policy) (run : (partitionSystem offset policy).run Partitioned.start trace = some st)
    (cutoff : Time) :
    Apart offset st.months ∧
    ((∀ r ∈ st.store.messages.rows,
        r ∉ (dropPartitionsBefore offset st cutoff).1.store.messages.rows → r.status.terminal = true) ↔
      ∀ r ∈ st.store.messages.rows, r.status.terminal = false → ∀ n ∈ st.months,
        covers offset n r.createdAt = true → due offset cutoff (some n) = false) ∧
    ∀ n, Readable offset (n + 1) →
      (due offset cutoff (some n) = true ↔ monthBound offset (n + 1) ≤ cutoff) := by
  have removed (r : Row) (member : r ∈ st.store.messages.rows) :
      r ∉ (dropPartitionsBefore offset st cutoff).1.store.messages.rows ↔
        ∃ n ∈ st.months, due offset cutoff (some n) = true ∧ covers offset n r.createdAt = true := by
    simp [dropPartitionsBefore, Table.delete, member]
  refine ⟨partitions_apart run,⟨?_,?_⟩,fun n readable => due_iff readable⟩
  · intro finished r member unfinished n listed inside
    by_contra falls
    have gone := (removed r member).mpr ⟨n,listed,Bool.not_eq_false _ |>.mp falls,inside⟩
    rw [finished r member gone] at unfinished
    cases unfinished
  · intro spared r member gone
    obtain ⟨n,listed,falls,inside⟩ := (removed r member).mp gone
    by_contra unfinished
    rw [spared r member (Bool.eq_false_iff.mpr unfinished) n listed inside] at falls
    cases falls

/-- The instant, in UTC, at which a day begins. -/
def midnight (year month day : Int) : Time := Calendar.dayOf year month day * Duration.day

/-- A message created in January and scheduled for June, in a database kept in UTC. -/
def scheduledAhead : List PartitionLabel :=
  [.ensure (midnight 2026 1 15) 1,
    .call (Env.quiet (midnight 2026 1 20) 7) (.enqueue ⟨"mail", some [], [], "", 3, some (midnight 2026 6 1)⟩)]

/-- Retention by the first of March deletes the message that is due in June. -/
theorem partition_drop_unfinished :
    ((partitionSystem (fun _ => 0) .full).run Partitioned.start scheduledAhead).map
        (fun st => (st.months, st.store.messages.rows.map Row.status)) = some ([24312, 24313], [.created]) ∧
    ((partitionSystem (fun _ => 0) .full).run Partitioned.start
        (scheduledAhead ++ [.drop (midnight 2026 3 1)])).map
      (fun st => (st.months, st.store.messages.rows.map Row.status)) = some ([], []) := by
  decide +kernel

/-- A message of January that has been handled, and one of February that has not. -/
def handledInJanuary : List PartitionLabel :=
  [.ensure (midnight 2026 1 15) 1,
    .call (Env.quiet (midnight 2026 1 20) 7) (.enqueue (plainParams "mail" 3)),
    .call (Env.quiet (midnight 2026 1 21) 0) (.claim ⟨"w", 10, 30 * Duration.second, []⟩),
    .call (Env.quiet (midnight 2026 1 21) 0) (.succeed (.uuid 7) 1 "w"),
    .call (Env.quiet (midnight 2026 2 10) 8) (.enqueue (plainParams "mail" 3))]

theorem partition_drop_finished_kept :
    ∃ st, (partitionSystem (fun _ => 0) .full).run Partitioned.start handledInJanuary = some st ∧
      st.store.messages.rows.map (fun r => (r.id, r.status)) = [(7, .success), (8, .created)] ∧
      (dropPartitionsBefore (fun _ => 0) st (midnight 2026 2 15)).1.store.messages.rows.map Row.id = [8] ∧
      (∀ r ∈ st.store.messages.rows, r.status.terminal = false → ∀ n ∈ st.months,
        covers (fun _ => 0) n r.createdAt = true → due (fun _ => 0) (midnight 2026 2 15) (some n) = false) ∧
      ∀ r ∈ st.store.messages.rows,
        r ∉ (dropPartitionsBefore (fun _ => 0) st (midnight 2026 2 15)).1.store.messages.rows →
          r.status.terminal = true :=
  ⟨_,rfl,by decide +kernel,by decide +kernel,by decide +kernel,
    (partition_drop_finished (fun _ => 0) .full handledInJanuary _ rfl (midnight 2026 2 15)).2.1.mpr
      (by decide +kernel)⟩

end Tickr.Postgres
