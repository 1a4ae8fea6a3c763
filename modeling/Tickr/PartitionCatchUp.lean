import Tickr.PartitionNames

/-! Late calls of `EnsurePartitions`. A row that is inserted before its month has a partition
goes to the DEFAULT partition and stays there; from then on PostgreSQL refuses the partition of
that month, and the loop of the call ends at it. -/
namespace Tickr.Postgres

variable {policy : HistoryPolicy} {offset : Offsets}

def inDefault (offset : Offsets) (st : Partitioned policy) (r : Row) : Bool :=
  !st.months.any fun m => covers offset m r.createdAt

/-- What PostgreSQL has against a partition for the month. -/
def refused (offset : Offsets) (st : Partitioned policy) (n : Int) : Bool :=
  monthBound offset (n + 1) ≤ monthBound offset n ||
    st.months.any (fun m => monthBound offset m < monthBound offset (n + 1) &&
      monthBound offset n < monthBound offset (m + 1)) ||
    st.store.messages.rows.any fun row => covers offset n row.createdAt && inDefault offset st row

/-- The error of the loop, up to what PostgreSQL says; `none` is nil. -/
def ensureError (offset : Offsets) (st : Partitioned policy) : List Int → Option Text
  | [] => none
  | n :: rest =>
    if n ∈ st.months then ensureError offset st rest
    else if refused offset st n then some ("tickr/postgres: create partition ".toList ++ (monthTable n).name)
    else ensureError offset { st with months := st.months ++ [n] } rest

/-- The call returns no error and leaves a partition for each month asked for. -/
def CatchesUp (offset : Offsets) (st : Partitioned policy) (now : Time) (monthsAhead : Int) : Prop :=
  ensureError offset st (askedMonths now monthsAhead) = none ∧
  ∀ i : Nat, i ≤ monthsAhead.toNat →
    calendarMonth now + i ∈ (ensurePartitions offset st now monthsAhead).months

instance (offset : Offsets) (st : Partitioned policy) (now : Time) (monthsAhead : Int) :
    Decidable (CatchesUp offset st now monthsAhead) :=
  inferInstanceAs (Decidable (_ ∧ ∀ i, i ≤ _ → _))

/-! ### The loop -/

/-- The loop over the months, with the state that it leaves and its error: it goes past a month
that is there, ends at one that is refused, and goes on after one that it makes. -/
inductive Ensured (offset : Offsets) : Partitioned policy → List Int → Partitioned policy → Option Text → Prop where
  | nil : Ensured offset st [] st none
  | present : n ∈ st.months → Ensured offset st rest final err → Ensured offset st (n :: rest) final err
  | refused : n ∉ st.months → refused offset st n = true →
      Ensured offset st (n :: rest) st (some ("tickr/postgres: create partition ".toList ++ (monthTable n).name))
  | made : n ∉ st.months → ¬refused offset st n = true →
      Ensured offset { st with months := st.months ++ [n] } rest final err → Ensured offset st (n :: rest) final err

theorem ensureMonths_ensured (list : List Int) (st : Partitioned policy) :
    Ensured offset st list (ensureMonths offset st list) (ensureError offset st list) := by
  induction list generalizing st with
  | nil => exact .nil
  | cons n rest ih =>
    have loop : ensureMonths offset st (n :: rest) =
        if n ∈ st.months then ensureMonths offset st rest
        else if Postgres.refused offset st n then st
        else ensureMonths offset { st with months := st.months ++ [n] } rest := rfl
    rw [loop, ensureError]
    by_cases present : n ∈ st.months
    · rw [if_pos present, if_pos present]
      exact .present present (ih st)
    · rw [if_neg present, if_neg present]
      by_cases no : Postgres.refused offset st n = true
      · rw [if_pos no, if_pos no]
        exact .refused present no
      · rw [if_neg no, if_neg no]
        exact .made present no (ih _)

theorem Ensured.kept {st final : Partitioned policy} {list : List Int} {err : Option Text}
    (loop : Ensured offset st list final err) : ∀ m ∈ st.months, m ∈ final.months := by
  induction loop with
  | nil | refused => exact fun _ => id
  | present _ _ ih => exact ih
  | made _ _ _ ih => exact fun m member => ih m (List.mem_append_left _ member)

/-- A call without an error leaves what it was asked for. -/
theorem Ensured.listed {st final : Partitioned policy} {list : List Int}
    (loop : Ensured offset st list final none) : ∀ n ∈ list, n ∈ final.months := by
  generalize nil : (none : Option Text) = err at loop
  induction loop with
  | nil => simp
  | present member later ih => exact List.forall_mem_cons.mpr ⟨later.kept _ member,ih nil⟩
  | refused => cases nil
  | made _ _ later ih =>
    have made := later.kept _ (List.mem_append_right _ List.mem_cons_self)
    exact List.forall_mem_cons.mpr ⟨made,ih nil⟩

section
variable (zone : Zone)

theorem Zone.covers_inj {m n : Int} {t : Time} (left : covers zone.offset m t = true)
    (right : covers zone.offset n t = true) : m = n := by
  by_contra different
  have separate := (monthTable_apart zone different).2 t
  rw [monthTable_range, monthTable_range] at separate
  exact separate ⟨covers_iff.mp left,covers_iff.mp right⟩

/-- In one time zone only the rows of the month itself stand in its way. -/
theorem refused_iff {st : Partitioned policy} {n : Int} (absent : n ∉ st.months) :
    refused zone.offset st n = true ↔ ∃ r ∈ st.store.messages.rows, covers zone.offset n r.createdAt = true := by
  have filled : ¬monthBound zone.offset (n + 1) ≤ monthBound zone.offset n :=
    not_le_of_gt (zone.monthBound_lt_succ n)
  have clear : ∀ m ∈ st.months, ¬(monthBound zone.offset m < monthBound zone.offset (n + 1) ∧
      monthBound zone.offset n < monthBound zone.offset (m + 1)) := by
    rintro m member ⟨before,after⟩
    rcases Int.lt_or_gt_of_ne (fun same => absent (same ▸ member) : m ≠ n) with earlier | later
    · exact absurd after (not_lt_of_ge (zone.monthBound_le earlier))
    · exact absurd before (not_lt_of_ge (zone.monthBound_le later))
  have outside {r : Row} (inside : covers zone.offset n r.createdAt = true) : inDefault zone.offset st r = true := by
    simp only [inDefault, Bool.not_eq_true', List.any_eq_false]
    exact fun m member other => absent (zone.covers_inj other inside ▸ member)
  simp only [refused, Bool.or_eq_true, decide_eq_true_eq, List.any_eq_true, Bool.and_eq_true, filled, false_or]
  constructor
  · rintro (⟨m,member,overlap⟩ | ⟨r,member,inside,_⟩)
    · exact absurd overlap (clear m member)
    · exact ⟨r,member,inside⟩
  · rintro ⟨r,member,inside⟩
    exact Or.inr ⟨r,member,inside,outside inside⟩

/-- The loop gets through if every month that has rows has its partition. -/
theorem Ensured.nil_iff {st final : Partitioned policy} {list : List Int} {err : Option Text}
    (loop : Ensured zone.offset st list final err) :
    err = none ↔
      ∀ n ∈ list, ∀ r ∈ st.store.messages.rows, covers zone.offset n r.createdAt = true → n ∈ st.months := by
  induction loop with
  | nil => simp
  | present member _ ih =>
    rw [ih, List.forall_mem_cons]
    exact ⟨fun later => ⟨fun _ _ _ => member,later⟩,And.right⟩
  | refused absent no =>
    obtain ⟨r,member,inside⟩ := (refused_iff zone absent).mp no
    refine ⟨nofun,fun all => ?_⟩
    exact absurd (all _ List.mem_cons_self r member inside) absent
  | @made n st rest _ _ absent yes _ ih =>
    have unused : ∀ r ∈ st.store.messages.rows, covers zone.offset n r.createdAt = true → n ∈ st.months :=
      fun r member inside => absurd ((refused_iff zone absent).mpr ⟨r,member,inside⟩) yes
    rw [ih, List.forall_mem_cons]
    constructor
    · intro later
      refine ⟨unused,fun m listed r member inside => ?_⟩
      rcases List.mem_append.mp (later m listed r member inside) with old | new
      · exact old
      · rw [List.mem_singleton.mp new] at inside
        exact absurd (unused r member inside) absent
    · rintro ⟨_,later⟩ m listed r member inside
      exact List.mem_append_left _ (later m listed r member inside)

theorem catchesUp_iff {st : Partitioned policy} {now : Time} {monthsAhead : Int} :
    CatchesUp zone.offset st now monthsAhead ↔
      ∀ r ∈ st.store.messages.rows, inDefault zone.offset st r = true → ∀ i : Nat, i ≤ monthsAhead.toNat →
        covers zone.offset (calendarMonth now + i) r.createdAt = false := by
  have default_iff {r : Row} : inDefault zone.offset st r = true ↔
      ∀ m ∈ st.months, ¬covers zone.offset m r.createdAt = true := by
    rw [inDefault, Bool.not_eq_true', List.any_eq_false]
  have loop := @ensureMonths_ensured policy zone.offset (askedMonths now monthsAhead) st
  constructor
  · rintro ⟨nil,_⟩ r member outside i within
    rw [Bool.eq_false_iff]
    intro inside
    have present := (loop.nil_iff zone).mp nil _ (mem_askedMonths.mpr ⟨i,within,rfl⟩) r member inside
    exact default_iff.mp outside _ present inside
  · intro free
    have nil : ensureError zone.offset st (askedMonths now monthsAhead) = none := by
      refine (loop.nil_iff zone).mpr fun n asked r member inside => ?_
      obtain ⟨i,within,rfl⟩ := mem_askedMonths.mp asked
      by_contra absent
      have outside : inDefault zone.offset st r = true :=
        default_iff.mpr fun m listed other => absent (zone.covers_inj other inside ▸ listed)
      rw [free r member outside i within] at inside
      cases inside
    refine ⟨nil,fun i within => ?_⟩
    rw [nil] at loop
    rw [ensurePartitions_asked]
    exact loop.listed _ (mem_askedMonths.mpr ⟨i,within,rfl⟩)

/-! ### Runs in which every insertion finds its partition -/

/-- A row that the call inserts has a partition to go to. -/
def Sheltered (offset : Offsets) (st : Partitioned policy) : PartitionLabel → Prop
  | .call env (.enqueue _) => ∃ n ∈ st.months, covers offset n (env.now 0) = true
  | .call env (.enqueueBatch _) => ∃ n ∈ st.months, covers offset n (env.now 0) = true
  | _ => True

instance (offset : Offsets) (st : Partitioned policy) : (label : PartitionLabel) → Decidable (Sheltered offset st label)
  | .call _ (.enqueue _) | .call _ (.enqueueBatch _) => inferInstanceAs (Decidable (∃ n ∈ _, _))
  | .call _ (.claim _) | .call _ (.succeed _ _ _) | .call _ (.batchSucceed _) | .call _ (.fail _)
  | .call _ (.releaseShutdown _ _ _ _) | .call _ (.extend _ _ _) | .call _ (.requeue _ _)
  | .call _ (.reclaimExpired _) | .call _ (.purgeTerminal _ _) | .ensure _ _ | .drop _ => isTrue trivial

/-- The DEFAULT partition is empty. -/
def Housed (offset : Offsets) (st : Partitioned policy) : Prop :=
  ∀ r ∈ st.store.messages.rows, ∃ n ∈ st.months, covers offset n r.createdAt = true

theorem Housed.call {st : Partitioned policy} (housed : Housed offset st) {env : Env} {call : Call}
    (sheltered : Sheltered offset st (.call env call)) :
    Housed offset { st with store := (exec st.store env call).1 } := by
  intro r' member
  have step := exec_row st.store env call r'.id
  rw [Store.row_of_mem member] at step
  cases before : st.store.row r'.id with
  | some r =>
    rw [before] at step
    have created : r'.createdAt = r.createdAt := congrArg Identity.createdAt step.identity
    rw [created]
    exact housed r (Store.row_mem before)
  | none =>
    rw [before] at step
    cases step with
    | enqueue => exact sheltered
    | enqueueBatch => exact sheltered

theorem Housed.ensure {st : Partitioned policy} (housed : Housed offset st) (now : Time) (monthsAhead : Int) :
    Housed offset (ensurePartitions offset st now monthsAhead) := by
  intro r member
  rw [ensurePartitions_asked] at member ⊢
  rw [ensureMonths_store] at member
  obtain ⟨n,listed,inside⟩ := housed r member
  exact ⟨n,(ensureMonths_ensured _ st).kept n listed,inside⟩

/-- A dropped partition takes its rows along. -/
theorem Housed.drop {st : Partitioned policy} (housed : Housed offset st) (cutoff : Time) :
    Housed offset (dropPartitionsBefore offset st cutoff).1 := by
  intro r member
  obtain ⟨old,spared⟩ := List.mem_filter.mp member
  beta_reduce at spared
  obtain ⟨n,listed,inside⟩ := housed r old
  refine ⟨n,List.mem_filter.mpr ⟨listed,?_⟩,inside⟩
  by_contra falls
  simp only [Bool.not_eq_true', Bool.not_eq_false] at falls
  have gone : (st.months.filter fun m => due offset cutoff (some m)).any
      (fun m => covers offset m r.createdAt) = true :=
    List.any_eq_true.mpr ⟨n,List.mem_filter.mpr ⟨listed,falls⟩,inside⟩
  rw [gone] at spared
  cases spared

theorem run_housed {trace : List PartitionLabel} {st : Partitioned policy}
    (run : (partitionSystem offset policy).run Partitioned.start trace = some st)
    (along : (partitionSystem offset policy).Along (Sheltered offset) Partitioned.start trace) :
    Housed offset st := by
  refine Transition.System.invariant (Sheltered offset) (Housed offset) ?_ run along ?_
  · intro st label next housed sheltered step
    cases label with
    | call env call =>
      cases step
      exact housed.call sheltered
    | ensure now monthsAhead =>
      cases step
      exact housed.ensure now monthsAhead
    | drop cutoff =>
      cases step
      exact housed.drop cutoff
  · intro r member
    cases member

/-- A call succeeds exactly if no row of the DEFAULT partition is of a month that it asks for;
so every call succeeds after a run in which no row went to the DEFAULT partition. -/
theorem catches_up_iff (zone : Zone) (policy : HistoryPolicy) :
    (∀ (st : Partitioned policy) (now : Time) (monthsAhead : Int), CatchesUp zone.offset st now monthsAhead ↔
      ∀ r ∈ st.store.messages.rows, inDefault zone.offset st r = true → ∀ i : Nat, i ≤ monthsAhead.toNat →
        covers zone.offset (calendarMonth now + i) r.createdAt = false) ∧
    ∀ (trace : List PartitionLabel) (st : Partitioned policy),
      (partitionSystem zone.offset policy).run Partitioned.start trace = some st →
      (partitionSystem zone.offset policy).Along (Sheltered zone.offset) Partitioned.start trace →
      ∀ now monthsAhead, CatchesUp zone.offset st now monthsAhead := by
  refine ⟨fun st now monthsAhead => catchesUp_iff zone,?_⟩
  intro trace st run along now monthsAhead
  refine (catchesUp_iff zone).mpr fun r member outside => ?_
  obtain ⟨n,listed,inside⟩ := run_housed run along r member
  have found : (st.months.any fun m => covers zone.offset m r.createdAt) = true :=
    List.any_eq_true.mpr ⟨n,listed,inside⟩
  rw [inDefault, found] at outside
  cases outside

/-- A message enqueued in January, before any partition was made. -/
def unsheltered : List PartitionLabel :=
  [.call (Env.quiet (midnight 2026 1 20) 7) (.enqueue (plainParams "mail" 3))]

/-- The first call, a day later, is refused January and never gets to the months after it. -/
theorem catches_up_refused :
    ∃ st, (partitionSystem Zone.utc.offset .full).run Partitioned.start unsheltered = some st ∧
      (ensureError Zone.utc.offset st (askedMonths (midnight 2026 1 21) 3)).map String.ofList =
        some "tickr/postgres: create partition tickr_messages_2026_01" ∧
      (ensurePartitions Zone.utc.offset st (midnight 2026 1 21) 3).months = [] ∧
      ¬CatchesUp Zone.utc.offset st (midnight 2026 1 21) 3 :=
  ⟨_,rfl,by decide +kernel,by decide +kernel,by decide +kernel⟩

theorem catches_up_iff_scheduled :
    ∃ st, (partitionSystem Zone.utc.offset .full).run Partitioned.start scheduledAhead = some st ∧
      (partitionSystem Zone.utc.offset .full).Along (Sheltered Zone.utc.offset) Partitioned.start scheduledAhead ∧
      CatchesUp Zone.utc.offset st (midnight 2026 2 3) 12 := by
  have along : (partitionSystem Zone.utc.offset .full).Along (Sheltered Zone.utc.offset) Partitioned.start
      scheduledAhead := by decide +kernel
  exact ⟨_,rfl,along,(catches_up_iff Zone.utc .full).2 scheduledAhead _ rfl along _ _⟩

end

end Tickr.Postgres
