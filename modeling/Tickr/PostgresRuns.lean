import Tickr.PostgresRows

/-! Whole runs of the PostgreSQL adapter: arbitrary calls with arbitrary arguments, in any
order, each in its own environment. -/
namespace Tickr.Postgres

variable {cfg : Config}

def execute (s : Store cfg) : List (Env × Call) → Store cfg
  | [] => s
  | (env, call) :: rest => execute (exec s env call).1 rest

theorem execute_append (s : Store cfg) (xs ys : List (Env × Call)) :
    execute s (xs ++ ys) = execute (execute s xs) ys := by
  induction xs generalizing s with
  | nil => rfl
  | cons label rest ih => exact ih _

/-- A row property that every row step keeps, and that a fresh row has, holds of every
row in every reachable table. -/
theorem execute_rows (property : Row → Prop)
    (fresh : ∀ env i p, property (enqueueRow env i p))
    (preserved : ∀ env k call r r', property r → RowStep env k call (some r) (some r') → property r')
    (s : Store cfg) (trace : List (Env × Call)) (initial : ∀ k r, s.row k = some r → property r) :
    ∀ k r, (execute s trace).row k = some r → property r := by
  induction trace generalizing s with
  | nil => exact initial
  | cons label rest ih =>
    obtain ⟨env,call⟩ := label
    refine ih _ fun k r' found => ?_
    have step := exec_row s env call k
    rw [found] at step
    cases before : s.row k with
    | some r => exact preserved env k call r r' (initial k r before) (before ▸ step)
    | none =>
      rw [before] at step
      cases step with
      | enqueue | enqueueBatch => exact fresh ..

/-! ### Columns agree with the status -/

/-- What the reclaimer, the purger and the dead-letter queries rely on. -/
structure WellFormed (r : Row) : Prop where
  neverFailed : r.status ≠ .failed
  claimant : r.status = .handling ↔ r.claimedBy.isSome = true
  lease : r.claimedBy.isSome = true ↔ r.claimedUntil.isSome = true
  attempted : r.status = .handling → 1 ≤ r.attempt
  completed : r.status.terminal = true ↔ r.completedAt.isSome = true
  untried : r.status = .created → r.attempt = 0
  succeeded : r.status = .success → r.lastError = none

/-- The inductive form: the counter of an attempted row never goes below zero. -/
def Sound (r : Row) : Prop := WellFormed r ∧ 0 ≤ r.attempt

theorem enqueueRow_sound (env : Env) (i : Nat) (p : EnqueueParams) : Sound (enqueueRow env i p) := by
  refine ⟨?_,by simp [enqueueRow, insertedRow]⟩
  constructor <;> simp [enqueueRow, insertedRow, Status.terminal]

theorem claimSet_sound {now : Time} {workerID : String} {leaseSec : Int} {r : Row} (sound : Sound r)
    (pending : r.status.pending = true) : Sound (claimSet now workerID leaseSec r) := by
  obtain ⟨wf,counter⟩ := sound
  have open_ : r.completedAt = none := by
    have := wf.completed
    rcases Status.pending_iff.mp pending with h | h <;> simpa [h, Status.terminal] using this
  refine ⟨?_,by simp [claimSet]; omega⟩
  constructor <;> simp [claimSet, Status.terminal, open_]
  omega

theorem RowStep.sound {env : Env} {k : Uuid} {call : Call} {r r' : Row} (sound : Sound r)
    (step : RowStep env k call (some r) (some r')) : Sound r' := by
  have open_ (handling : r.status = .handling) : r.completedAt = none := by
    simpa [handling, Status.terminal] using sound.1.completed
  have idle (dead : r.status = .dead) : r.claimedBy = none ∧ r.claimedUntil = none := by
    have claimant := sound.1.claimant
    have lease := sound.1.lease
    rw [dead] at claimant
    simp_all
  have counter := sound.2
  cases step with
  | same => exact sound
  | claim pending due => exact claimSet_sound sound pending
  | succeed handling _ | batchSucceed handling _ _ _ =>
    exact ⟨by constructor <;> simp [succeedSet, Status.terminal],counter⟩
  | failRetry handling _ _ _ =>
    exact ⟨by constructor <;> simp [failRetrySet, Status.terminal, open_ handling],counter⟩
  | failDead handling _ _ _ =>
    exact ⟨by constructor <;> simp [failDeadSet, Status.terminal],counter⟩
  | releaseShutdown handling _ =>
    exact ⟨by constructor <;> simp [releaseShutdownSet, Status.terminal, open_ handling],
      by simp [releaseShutdownSet]⟩
  | extend handling owner =>
    obtain ⟨wf,_⟩ := sound
    refine ⟨⟨wf.neverFailed,wf.claimant,?_,wf.attempted,wf.completed,wf.untried,wf.succeeded⟩,counter⟩
    simp [extendSet, owner]
  | requeue dead =>
    exact ⟨by constructor <;> simp [requeueSet, Status.terminal, idle dead],by simp [requeueSet]⟩
  | reclaimExpired handling _ _ =>
    exact ⟨by constructor <;> simp [reclaimSet, Status.terminal, open_ handling],counter⟩

theorem execute_sound (trace : List (Env × Call)) (k : Uuid) (r : Row)
    (found : (execute (Store.empty : Store cfg) trace).row k = some r) : Sound r :=
  execute_rows Sound enqueueRow_sound (fun _ _ _ _ _ sound step => step.sound sound) Store.empty trace
    (by simp) k r found

/-! ### The status machine -/

/-- The edges that one call can take a row along. -/
inductive StatusMove : Call → Status → Status → Prop where
  | stay : StatusMove call status status
  | claim : status.pending = true → StatusMove call status .handling
  | succeed : StatusMove call .handling .success
  | retry : StatusMove call .handling .retrying
  | bury : StatusMove call .handling .dead
  | requeue : StatusMove (.requeue mid processAt) .dead .created

theorem RowStep.move {env : Env} {k : Uuid} {call : Call} {r r' : Row}
    (step : RowStep env k call (some r) (some r')) : StatusMove call r.status r'.status := by
  cases step with
  | same | extend => exact .stay
  | claim pending => exact .claim pending
  | succeed handling | batchSucceed handling => rw [handling]; exact .succeed
  | failRetry handling | releaseShutdown handling | reclaimExpired handling => rw [handling]; exact .retry
  | failDead handling => rw [handling]; exact .bury
  | requeue dead => rw [dead]; exact .requeue

theorem StatusMove.success_kept {call : Call} {next : Status} (move : StatusMove call .success next) :
    next = .success := by
  cases move with
  | stay => rfl
  | claim pending => simp [Status.pending] at pending

theorem StatusMove.dead_left {call : Call} {next : Status} (move : StatusMove call .dead next)
    (left : next ≠ .dead) : next = .created ∧ ∃ id processAt, call = .requeue id processAt := by
  cases move with
  | stay => exact absurd rfl left
  | claim pending => simp [Status.pending] at pending
  | requeue => exact ⟨rfl,_,_,rfl⟩

/-- In every reachable table the columns of every row agree with its status, and one more
call moves a row only along the edges of the status machine. -/
theorem row_representation (trace : List (Env × Call)) :
    (∀ r ∈ (execute (Store.empty : Store cfg) trace).messages.rows, WellFormed r) ∧
    ∀ env call k r r', (execute (Store.empty : Store cfg) trace).row k = some r →
      (exec (execute (Store.empty : Store cfg) trace) env call).1.row k = some r' →
      StatusMove call r.status r'.status ∧
      (r.status = .success → r'.status = .success) ∧
      (r.status = .dead → r'.status ≠ .dead →
        r'.status = .created ∧ ∃ id processAt, call = .requeue id processAt) := by
  refine ⟨fun r member => (execute_sound trace r.id r (Store.row_of_mem member)).1,?_⟩
  intro env call k r r' found found'
  have step := exec_row (execute (Store.empty : Store cfg) trace) env call k
  rw [found, found'] at step
  refine ⟨step.move,?_,?_⟩
  · intro success
    exact (success ▸ step.move).success_kept
  · intro dead left
    exact (dead ▸ step.move).dead_left left

def fetchAll (workerID : String) : Call := .claim ⟨workerID, 10, 30 * Duration.second, []⟩

theorem row_representation_claimed :
    (claimSet 6 "w" 30 (enqueueRow (Env.quiet 5 7) 0 (plainParams "mail" 3))).status = .handling ∧
    WellFormed (claimSet 6 "w" 30 (enqueueRow (Env.quiet 5 7) 0 (plainParams "mail" 3))) := by
  have found : (execute (Store.empty : Store ⟨false, .full⟩)
      [(Env.quiet 5 7, .enqueue (plainParams "mail" 3)), (Env.quiet 6 0, fetchAll "w")]).row 7 =
      some (claimSet 6 "w" 30 (enqueueRow (Env.quiet 5 7) 0 (plainParams "mail" 3))) := rfl
  exact ⟨rfl,(row_representation _).1 _ (Store.row_mem found)⟩

/-! ### Conservation -/

theorem RowStep.identity {env : Env} {k : Uuid} {call : Call} {r r' : Row}
    (step : RowStep env k call (some r) (some r')) : r'.identity = r.identity := by
  cases step <;> rfl

/-- The only way out of the table. -/
theorem RowStep.removed {env : Env} {k : Uuid} {call : Call} {r : Row}
    (step : RowStep env k call (some r) none) :
    ∃ before limit t, call = .purgeTerminal before limit ∧ r.status.terminal = true ∧
      r.completedAt = some t ∧ t < before := by
  cases step with
  | purgeTerminal terminal completed past => exact ⟨_,_,_,rfl,terminal,completed,past⟩

/-- A purge in `trace` took the message away while it was terminal and old enough. -/
def PurgedIn (s : Store cfg) (trace : List (Env × Call)) (k : Uuid) (who : Identity) : Prop :=
  ∃ earlier env before limit later r t, trace = earlier ++ (env, .purgeTerminal before limit) :: later ∧
    (execute s earlier).row k = some r ∧ r.identity = who ∧ r.status.terminal = true ∧
    r.completedAt = some t ∧ t < before ∧
    (exec (execute s earlier) env (.purgeTerminal before limit)).1.row k = none

theorem execute_conserves (s : Store cfg) (trace : List (Env × Call)) (k : Uuid) (r : Row)
    (present : s.row k = some r) :
    (∃ r', (execute s trace).row k = some r' ∧ r'.identity = r.identity) ∨
      PurgedIn s trace k r.identity := by
  induction trace generalizing s r with
  | nil => exact Or.inl ⟨r,present,rfl⟩
  | cons label rest ih =>
    obtain ⟨env,call⟩ := label
    have step := exec_row s env call k
    rw [present] at step
    cases after : (exec s env call).1.row k with
    | none =>
      rw [after] at step
      obtain ⟨before,limit,t,rfl,terminal,completed,past⟩ := step.removed
      exact Or.inr ⟨[],env,before,limit,rest,r,t,rfl,present,rfl,terminal,completed,past,after⟩
    | some r' =>
      rw [after] at step
      have same := step.identity
      rcases ih _ r' after with kept | purged
      · obtain ⟨r'',found,eq⟩ := kept
        exact Or.inl ⟨r'',found,eq.trans same⟩
      · obtain ⟨earlier,env',before,limit,later,r'',t,rfl,found,eq,terminal,completed,past,gone⟩ := purged
        exact Or.inr ⟨(env,call) :: earlier,env',before,limit,later,r'',t,rfl,found,eq.trans same,
          terminal,completed,past,gone⟩

/-- The bulk calls choose their rows by a query or a list. -/
def bulk : Call → Bool
  | .enqueueBatch _ | .claim _ | .batchSucceed _ | .reclaimExpired _ | .purgeTerminal _ _ => true
  | _ => false

/-- The row that a call is about; an enqueue is about the row it inserts. -/
def names (env : Env) : Call → Option Uuid
  | .enqueue _ => some (env.newID 0)
  | .succeed mid _ _ | .releaseShutdown mid _ _ _ | .extend mid _ _ | .requeue mid _ => mid.parse
  | .fail p => p.messageID.parse
  | _ => none

theorem RowStep.frame {env : Env} {k : Uuid} {call : Call} {before after : Option Row}
    (step : RowStep env k call before after) (single : bulk call = false) (other : names env call ≠ some k) :
    after = before := by
  cases step with
  | same => rfl
  | enqueue named => exact absurd (congrArg some named.symm) other
  | succeed | releaseShutdown | extend | requeue => exact absurd rfl other
  | failRetry _ parsed | failDead _ parsed => simp [names, parsed, MessageID.parse] at other
  | enqueueBatch | claim | batchSucceed | reclaimExpired | purgeTerminal => cases single

/-- No message is lost or altered: from any reachable table on, a row stays with the
columns it was inserted with until a purge takes it away as a terminal row; and a call
that is not a bulk one touches at most the row it names. -/
theorem messages_conserved (earlier trace : List (Env × Call)) :
    (∀ k r, (execute (Store.empty : Store cfg) earlier).row k = some r →
      (∃ r', (execute (Store.empty : Store cfg) (earlier ++ trace)).row k = some r' ∧
        r'.identity = r.identity) ∨
      PurgedIn (execute (Store.empty : Store cfg) earlier) trace k r.identity) ∧
    ∀ env call k, bulk call = false → names env call ≠ some k →
      (exec (execute (Store.empty : Store cfg) earlier) env call).1.row k =
        (execute (Store.empty : Store cfg) earlier).row k := by
  constructor
  · intro k r present
    rw [execute_append]
    exact execute_conserves _ trace k r present
  · intro env call k single other
    exact (exec_row _ env call k).frame single other

theorem messages_conserved_claimed :
    (∃ r', (execute (Store.empty : Store ⟨false, .full⟩)
        ([(Env.quiet 5 7, .enqueue (plainParams "mail" 3))] ++ [(Env.quiet 6 0, fetchAll "w")])).row 7 =
          some r' ∧
      r'.identity = (enqueueRow (Env.quiet 5 7) 0 (plainParams "mail" 3)).identity) ∨
    PurgedIn (execute (Store.empty : Store ⟨false, .full⟩)
      [(Env.quiet 5 7, .enqueue (plainParams "mail" 3))]) [(Env.quiet 6 0, fetchAll "w")] 7
      (enqueueRow (Env.quiet 5 7) 0 (plainParams "mail" 3)).identity :=
  (messages_conserved _ _).1 7 _ rfl

end Tickr.Postgres
