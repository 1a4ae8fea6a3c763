import Tickr.MysqlRows

/-! Whole runs of the MySQL adapter: arbitrary calls with arbitrary arguments, in any order,
each in its own environment. -/
namespace Tickr.Mysql

variable {cfg : Config}

def execute (s : Store cfg) : List (Env × Call) → Store cfg
  | [] => s
  | (env, call) :: rest => execute (exec s env call).1 rest

/-- A row property that every row step keeps, and that a fresh row has, holds of every row
in every reachable table. -/
theorem execute_rows (property : Row → Prop)
    (fresh : ∀ env i p, property (enqueueRow cfg env i p))
    (preserved : ∀ env k call r r', property r → RowStep cfg env k call (some r) (some r') → property r')
    (s : Store cfg) (trace : List (Env × Call)) (initial : ∀ k r, s.row k = some r → property r) :
    ∀ k r, (execute s trace).row k = some r → property r := by
  induction trace generalizing s with
  | nil => exact initial
  | cons label rest ih =>
    obtain ⟨env,call⟩ := label
    apply ih _
    intro k r' found
    have step := exec_row s env call k
    rw [found] at step
    cases before : s.row k with
    | some r => exact preserved env k call r r' (initial k r before) (before ▸ step)
    | none =>
      rw [before] at step
      cases step with
      | enqueue | enqueueBatch => exact fresh ..

/-! ### Pending rows -/

/-- The status of a pending row says no more than its counter: it is CREATED exactly at
attempt zero. Nobody holds it. -/
structure Countable (r : Row) : Prop where
  attempted : r.status = .handling → 1 ≤ r.attempt
  counter : 0 ≤ r.attempt
  untried : r.status.pending = true → (r.status = .created ↔ r.attempt = 0)
  unclaimed : r.status.pending = true → r.claimedBy = none ∧ r.claimedUntil = none

theorem enqueueRow_countable (env : Env) (i : Nat) (p : EnqueueParams) : Countable (enqueueRow cfg env i p) := by
  constructor <;> simp [enqueueRow, insertedRow]

theorem RowStep.countable {env : Env} {k : Uuid} {call : Call} {r r' : Row} (countable : Countable r)
    (step : RowStep cfg env k call (some r) (some r')) : Countable r' := by
  have counter := countable.counter
  have attempted := countable.attempted
  have holding {id : MessageID} {workerID : String} (held : holdsClaim cfg id workerID r = true) :
      r.status = .handling := (holdsClaim_iff.mp held).2.1
  cases step with
  | same => exact countable
  | claim pending =>
    constructor <;> simp [claimSet, Status.pending] <;> omega
  | succeed held =>
    constructor <;> simp [succeedSet, Status.pending, counter]
  | batchSucceed _ _ held =>
    constructor <;> simp [succeedSet, Status.pending, counter]
  | failRetry _ _ held =>
    have tried := attempted (holding held)
    constructor <;> simp [failRetrySet] <;> omega
  | failDead _ _ held =>
    constructor <;> simp [failDeadSet, Status.pending, counter]
  | releaseShutdown held =>
    have tried := attempted (holding held)
    by_cases again : 1 < r.attempt
    · constructor <;> simp [releaseShutdownSet, again]
    · constructor <;> simp [releaseShutdownSet, again]
      omega
  | extend held =>
    have handling := holding held
    constructor <;> simp [extendSet, handling, Status.pending, counter, attempted]
  | requeue dead => constructor <;> simp [requeueSet]
  | reclaimExpired handling =>
    have tried := attempted handling
    constructor <;> simp [reclaimSet] <;> omega

theorem execute_countable (trace : List (Env × Call)) (k : Uuid) (r : Row)
    (found : (execute (Store.empty : Store cfg) trace).row k = some r) : Countable r :=
  execute_rows Countable enqueueRow_countable (fun _ _ _ _ _ countable step => step.countable countable)
    Store.empty trace (fun _ _ impossible => by cases impossible) k r found

end Tickr.Mysql
