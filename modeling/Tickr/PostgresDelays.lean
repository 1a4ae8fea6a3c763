import Tickr.PostgresRuns

/-! Delays over whole runs of the PostgreSQL adapter. Fail, ReleaseShutdown, ReclaimExpired
and Requeue write process_at, but none of them matches a pending row: by the time that one
of them does match, a claim has taken the row and the delay has passed. -/
namespace Tickr.Postgres

open KeyedTable

variable {cfg : Config}

/-- The database time of the pass that a claim returns its batch from. -/
def claimTime (messages : Messages cfg) (env : Env) (p : ClaimParams) : Time :=
  if (claimSQL messages env 0 (claimTypes p) (claimBatch p) p.workerID (claimLeaseSec p)
    (some (env.pickShard 0))).2 = [] then env.now 1 else env.now 0

/-- No statement reads an earlier `now()` than a call before it. -/
def NonDecreasing (trace : List (Env × Call)) : Prop :=
  trace.Pairwise fun a b => ∀ i j, a.1.now i ≤ b.1.now j

/-- The call takes effect on message `k` and asks for it not to be delivered before `t`. -/
inductive Delayed (s : Store cfg) (env : Env) (k : Uuid) (t : Time) : Call → Prop where
  | enqueue : q.processAt = some t → s.row k = none → (exec s env (.enqueue q)).1.row k ≠ none →
      Delayed s env k t (.enqueue q)
  | enqueueBatch : ps[i]? = some q → q.processAt = some t → s.row k = none →
      (exec s env (.enqueueBatch ps)).1.row k = some (enqueueRow env i q) → Delayed s env k t (.enqueueBatch ps)
  | fail : q.dead = false → q.nextRetryAt = t → (exec s env (.fail q)).1.row k ≠ s.row k →
      Delayed s env k t (.fail q)

/-! ### Steps -/

theorem claimPasses_at (messages : Messages cfg) (env : Env) (p : ClaimParams) :
    ∃ statement shard, env.now statement = claimTime messages env p ∧ claimPasses messages env p =
      claimSQL messages env statement (claimTypes p) (claimBatch p) p.workerID (claimLeaseSec p) shard := by
  unfold claimPasses claimTime
  dsimp only
  split
  · rename_i nothing
    rw [claimSQL_nil nothing]
    exact ⟨1,none,rfl,rfl⟩
  · exact ⟨0,some (env.pickShard 0),rfl,rfl⟩

theorem claim_due {s : Store cfg} {env : Env} {p : ClaimParams} {k : Uuid}
    (returned : (exec s env (.claim p)).2.returns k = true) :
    ∃ r, s.row k = some r ∧ r.status.pending = true ∧ r.processAt ≤ claimTime s.messages env p := by
  obtain ⟨statement,shard,time,passes⟩ := claimPasses_at s.messages env p
  obtain ⟨m,member,named⟩ := List.any_eq_true.mp returned
  simp only [claim, passes] at member
  obtain ⟨r,stored,chosen,rfl⟩ := mem_claimSQL.mp member
  obtain ⟨r',found,fits⟩ := mem_claimChosen chosen
  obtain ⟨pending,_,due,_⟩ := eligible_iff.mp fits
  have same : r.id = k := MessageID.uuid.inj (of_decide_eq_true named)
  exact ⟨r',same ▸ found,pending,time ▸ due⟩

/-- A call leaves a pending row alone, or claims it once it is due. -/
theorem RowStep.pending_kept {env : Env} {k : Uuid} {call : Call} {r : Row} {after : Option Row}
    (step : RowStep env k call (some r) after) (pending : r.status.pending = true) :
    after = some r ∨ ∃ statement workerID leaseSec, r.processAt ≤ env.now statement ∧
      after = some (claimSet (env.now statement) workerID leaseSec r) := by
  have idle := Status.pending_idle pending
  cases step with
  | same => exact Or.inl rfl
  | claim _ due => exact Or.inr ⟨_,_,_,due,rfl⟩
  | succeed handling | batchSucceed handling | failRetry handling | failDead handling
  | releaseShutdown handling | extend handling | reclaimExpired handling => exact absurd handling idle
  | requeue dead => rw [dead] at pending; cases pending
  | purgeTerminal terminal => exact absurd terminal (by simp [Status.pending_open pending])

theorem Delayed.pending {s : Store cfg} {env : Env} {k : Uuid} {t : Time} {call : Call}
    (delayed : Delayed s env k t call) :
    ∃ r, (exec s env call).1.row k = some r ∧ r.status.pending = true ∧ t ≤ r.processAt := by
  have step := exec_row s env call k
  cases delayed with
  | enqueue scheduled absent present =>
    rw [absent] at step
    generalize (exec s env (.enqueue _)).1.row k = after at step present
    cases step with
    | same => exact absurd rfl present
    | enqueue => exact ⟨_,rfl,rfl,by simp [enqueueRow, insertedRow, scheduled]⟩
  | enqueueBatch _ scheduled _ found =>
    exact ⟨_,found,rfl,by simp [enqueueRow, insertedRow, scheduled]⟩
  | fail retried next moved =>
    generalize (exec s env (.fail _)).1.row k = after at step moved
    generalize s.row k = before at step moved
    cases step with
    | same => exact absurd rfl moved
    | failRetry => exact ⟨_,rfl,rfl,Int.le_of_eq next.symm⟩
    | failDead _ _ _ dead => rw [dead] at retried; cases retried

/-! ### Runs -/

/-- The row still waits for `t`, or no statement of the rest of the run is before `t`. -/
def Waiting (s : Store cfg) (rest : List (Env × Call)) (k : Uuid) (t : Time) : Prop :=
  (∃ r, s.row k = some r ∧ r.status.pending = true ∧ t ≤ r.processAt) ∨
    ∀ label ∈ rest, ∀ i, t ≤ label.1.now i

theorem Waiting.step {s : Store cfg} {env : Env} {call : Call} {rest : List (Env × Call)} {k : Uuid} {t : Time}
    (clock : NonDecreasing ((env,call) :: rest)) (waiting : Waiting s ((env,call) :: rest) k t) :
    Waiting (exec s env call).1 rest k t := by
  rcases waiting with ⟨r,found,pending,later⟩ | passed
  · have step := exec_row s env call k
    rw [found] at step
    rcases step.pending_kept pending with kept | ⟨statement,_,_,due,_⟩
    · exact Or.inl ⟨r,kept,pending,later⟩
    · refine Or.inr fun label member i => ?_
      exact Int.le_trans later (Int.le_trans due ((List.pairwise_cons.mp clock).1 label member statement i))
  · exact Or.inr fun label member i => passed label (List.mem_cons_of_mem _ member) i

theorem Waiting.run {s : Store cfg} {middle rest : List (Env × Call)} {k : Uuid} {t : Time}
    (clock : NonDecreasing (middle ++ rest)) (waiting : Waiting s (middle ++ rest) k t) :
    Waiting (execute s middle) rest k t := by
  induction middle generalizing s with
  | nil => exact waiting
  | cons label middle ih =>
    obtain ⟨env,call⟩ := label
    exact ih (List.pairwise_cons.mp clock).2 (waiting.step clock)

theorem Waiting.claimed {s : Store cfg} {env : Env} {p : ClaimParams} {rest : List (Env × Call)} {k : Uuid}
    {t : Time} (waiting : Waiting s ((env,.claim p) :: rest) k t)
    (returned : (exec s env (.claim p)).2.returns k = true) : t ≤ claimTime s.messages env p := by
  rcases waiting with ⟨r,found,_,later⟩ | passed
  · obtain ⟨r',found',_,due⟩ := claim_due returned
    cases found.symm.trans found'
    exact Int.le_trans later due
  · obtain ⟨statement,_,time,_⟩ := claimPasses_at s.messages env p
    rw [← time]
    exact passed _ List.mem_cons_self statement

/-- Under a clock that does not run backwards, a message is not claimed before the time
that its Enqueue or an effective Fail has set, whatever calls come in between; and no call
moves the process_at of a pending row. -/
theorem delays_honoured (s : Store cfg) (trace : List (Env × Call)) (clock : NonDecreasing trace) :
    (∀ earlier env call middle env' p later k t,
      trace = earlier ++ (env,call) :: (middle ++ (env',.claim p) :: later) →
      Delayed (execute s earlier) env k t call →
      (exec (execute s (earlier ++ (env,call) :: middle)) env' (.claim p)).2.returns k = true →
      t ≤ claimTime (execute s (earlier ++ (env,call) :: middle)).messages env' p) ∧
    ∀ earlier env call later k r r', trace = earlier ++ (env,call) :: later →
      (execute s earlier).row k = some r → r.status.pending = true →
      (exec (execute s earlier) env call).1.row k = some r' → r'.processAt = r.processAt := by
  constructor
  · rintro earlier env call middle env' p later k t rfl delayed returned
    have started : Waiting (exec (execute s earlier) env call).1 (middle ++ (env',.claim p) :: later) k t :=
      Or.inl delayed.pending
    have after := (List.pairwise_append.mp clock).2.1
    have reached := started.run (List.pairwise_cons.mp after).2
    rw [execute_append] at returned ⊢
    exact reached.claimed returned
  · rintro earlier env call later k r r' _ found pending found'
    have step := exec_row (execute s earlier) env call k
    rw [found, found'] at step
    rcases step.pending_kept pending with same | ⟨_,_,_,_,same⟩
    · rw [Option.some.inj same]
    · rw [Option.some.inj same]
      rfl

/-- The producer asks for 100, and a first attempt fails until 300. -/
def delayedTrace : List (Env × Call) :=
  [(Env.quiet 5 7, .enqueue ⟨"mail", some [], [], "", 3, some 100⟩),
   (Env.quiet 100 0, fetchAll "w"),
   (Env.quiet 110 0, .fail ⟨.uuid 7, 1, "w", "refused", 300, false⟩),
   (Env.quiet 300 0, fetchAll "w")]

theorem delayedTrace_clock : NonDecreasing delayedTrace := by
  simp [NonDecreasing, delayedTrace, Env.quiet]

theorem delays_honoured_retried :
    NonDecreasing delayedTrace ∧
    (exec (execute (Store.empty : Store ⟨false, .full⟩) (delayedTrace.take 3)) (Env.quiet 300 0)
      (fetchAll "w")).2.returns 7 = true ∧
    (300 : Time) ≤ claimTime (execute (Store.empty : Store ⟨false, .full⟩) (delayedTrace.take 3)).messages
      (Env.quiet 300 0) ⟨"w", 10, 30 * Duration.second, []⟩ :=
  ⟨delayedTrace_clock,by decide +kernel,
    (delays_honoured Store.empty delayedTrace delayedTrace_clock).1 (delayedTrace.take 2) _ _ [] _ _ [] 7 300 rfl
      (.fail rfl rfl (by decide +kernel)) (by decide +kernel)⟩

end Tickr.Postgres
