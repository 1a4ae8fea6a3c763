import Mathlib.Data.List.Dedup
import Mathlib.Data.List.Infix
import Tickr.MysqlRows
import Tickr.PostgresEnqueue
import Tickr.Transactions

/-! Enqueue and EnqueueBatch inside a transaction of the caller. The adapters ask the
wrapper that they are given for a handle of their own driver, and where it holds another
one they go to the pool without a word: the rows are committed whatever becomes of the
caller's transaction. -/
namespace Tickr

open KeyedTable Transactions

/-- What a `tickr.Tx` may wrap: a pgx.Tx or a *sql.Tx on the database of the store, a
*sql.Tx of another database system, or something else. -/
inductive Handle where
  | pgxTx
  | sqlTx
  | foreignSqlTx
  | other
  deriving DecidableEq, Repr

structure Tx where
  inner : Option Handle

def makeTx (inner : Handle) : Tx := ⟨some inner⟩

def Tx.isZero (tx : Tx) : Bool := tx.inner.isNone

def Postgres.querier (tx : Tx) : Route :=
  if tx.isZero then .pool
  else match tx.inner with
    | some .pgxTx => .transaction
    | _ => .pool

/-- Every *sql.Tx passes for one of the adapter's own; another system does not take the
SQL of this one. -/
def Mysql.execer (tx : Tx) : Route :=
  if tx.isZero then .pool
  else match tx.inner with
    | some .sqlTx => .transaction
    | some .foreignSqlTx => .refused
    | _ => .pool

inductive OutboxRequest where
  | enqueue (p : EnqueueParams)
  | enqueueBatch (ps : List EnqueueParams)

/-- An empty batch issues no statement. -/
def OutboxRequest.issues : OutboxRequest → Bool
  | .enqueueBatch [] => false
  | _ => true

/-- A statement of a call that fails for a reason of its own: the INSERT, the look-up of a
duplicate, or pg_notify. -/
inductive Fault where
  | insert
  | lookup
  | notify
  deriving DecidableEq, Repr

/-- A call inside a transaction. An error that the server raises aborts the transaction;
`aborts` is false for one that the driver raises by itself. -/
structure OutboxCall where
  env : Env
  request : OutboxRequest
  fault : Option Fault
  aborts : Bool

namespace Postgres

variable {cfg : Config}

/-- The loop over a batch returns early when it finds neither a row nor an explanation. -/
def returnsEarly : StoreError → Bool
  | .noRows _ => true
  | _ => false

def isStatementError : StoreError → Bool
  | .sql _ => true
  | _ => false

/-- Store, event types to notify of and error, when no statement fails for a reason of its own. -/
def requested (s : Store cfg) (env : Env) : OutboxRequest → Store cfg × List String × Option StoreError
  | .enqueue p =>
    let r := enqueue s env p
    (r.1, if r.2.2 = none then [p.eventType] else [], r.2.2)
  | .enqueueBatch ps =>
    let r := enqueueBatch s env ps
    (r.1,
      if s.messages.rows.length < r.1.messages.rows.length && !r.2.2.any returnsEarly then
        (ps.head?.map EnqueueParams.eventType).toList
      else [], r.2.2)

def outboxCall (notifierDisabled : Bool) (s : Store cfg) (c : OutboxCall) : Result (Store cfg) String StoreError :=
  let r := requested s c.env c.request
  let notes := if notifierDisabled then [] else r.2.1
  if c.fault = some .insert ∧ c.request.issues then ⟨s, [], some (.sql "enqueue"), c.aborts⟩
  else if c.fault = some .lookup ∧ r.2.2.any isDuplicate then
    ⟨r.1, [], some (.sql "fetch by idempotency key"), c.aborts⟩
  else if c.fault = some .notify ∧ notes ≠ [] then ⟨r.1, [], some (.sql "pg_notify"), c.aborts⟩
  else ⟨r.1, notes, r.2.2, r.2.2.any isStatementError && c.aborts⟩

theorem requested_appends (s : Store cfg) (env : Env) (request : OutboxRequest) :
    s.messages.rows <+: (requested s env request).1.messages.rows := by
  cases request with
  | enqueue p =>
    simp only [requested]
    rcases enqueue_cases s env p with same | ⟨messages,_,inserted,same⟩
    · rw [same]
    · rw [same, (Table.insert_inserted inserted).1]
      exact List.prefix_append _ _
  | enqueueBatch ps =>
    simp only [requested]
    rcases enqueueBatch_cases s env ps with ⟨_,batch⟩ | batch | ⟨final,out,_,inserted,batch⟩
    · rw [batch]
    · rw [batch]
    · rw [batch, batchInsertSQL_rows inserted]
      exact List.prefix_append _ _

theorem outboxCall_appends (notifierDisabled : Bool) (s : Store cfg) (c : OutboxCall) :
    s.messages.rows <+: (outboxCall notifierDisabled s c).store.messages.rows := by
  have appends := requested_appends s c.env c.request
  simp only [outboxCall]
  generalize (if notifierDisabled then [] else (requested s c.env c.request).2.1) = notes
  split
  · exact List.prefix_rfl
  · split
    · exact appends
    · split <;> exact appends

/-- The adapter as a library beside any other calls on the store. PostgreSQL delivers equal
notifications of one transaction once. -/
def outbox (cfg : Config) (notifierDisabled : Bool) :
    Library (Store cfg) Row String StoreError OutboxCall (Env × Call) where
  rows s := s.messages.rows
  call := outboxCall notifierDisabled
  appends := outboxCall_appends notifierDisabled
  act s other := (exec s other.1 other.2).1
  rebase s pending := (s.messages.insertAll pending).map fun messages => { s with messages }
  rebased {s pending next} rebased := by
    obtain ⟨messages,inserted,rfl⟩ := Option.map_eq_some_iff.mp rebased
    exact Table.insertAll_rows inserted
  coalesce := List.dedup
  coalesced := List.mem_dedup
  closed := .sql "transaction"

end Postgres

namespace Mysql

variable {cfg : Config}

def outboxCall (s : Store cfg) (c : Env × OutboxRequest) : Result (Store cfg) Empty StoreError :=
  match c.2 with
  | .enqueue p => let r := enqueue s c.1 0 p; ⟨r.1, [], r.2.2, false⟩
  | .enqueueBatch ps => let r := enqueueBatch s c.1 0 ps; ⟨r.1, [], r.2.2, false⟩

theorem enqueue_appends (s : Store cfg) (env : Env) (i : Nat) (p : EnqueueParams) :
    s.messages.rows <+: (enqueue s env i p).1.messages.rows := by
  rcases enqueue_cases s env i p with ⟨messages,inserted,same⟩ | ⟨_,_,same⟩
  · rw [same, (Table.insert_inserted inserted).1]
    exact List.prefix_append _ _
  · rw [same]

theorem enqueueBatch_appends (s : Store cfg) (env : Env) (i : Nat) (ps : List EnqueueParams) :
    s.messages.rows <+: (enqueueBatch s env i ps).1.messages.rows := by
  induction ps generalizing s i with
  | nil => exact List.prefix_rfl
  | cons p rest ih =>
    rw [enqueueBatch_store]
    exact (enqueue_appends s env i p).trans (ih _ _)

/-- A statement that fails leaves the transaction as it was, and there are no notifications. -/
def outbox (cfg : Config) : Library (Store cfg) Row Empty StoreError (Env × OutboxRequest) (Env × Call) where
  rows s := s.messages.rows
  call := outboxCall
  appends s c := by
    obtain ⟨env,request⟩ := c
    cases request with
    | enqueue p => exact enqueue_appends s env 0 p
    | enqueueBatch ps => exact enqueueBatch_appends s env 0 ps
  act s other := (exec s other.1 other.2).1
  rebase s pending := (s.messages.insertAll pending).map fun messages => { s with messages }
  rebased {s pending next} rebased := by
    obtain ⟨messages,inserted,rfl⟩ := Option.map_eq_some_iff.mp rebased
    exact Table.insertAll_rows inserted
  coalesce := id
  coalesced := Iff.rfl
  closed := .sql "transaction"

end Mysql

/-! ### Which handles are respected -/

theorem Postgres.outbox_effective (cfg : Config) (notifierDisabled : Bool) :
    ∃ s c, (outbox cfg notifierDisabled).rows ((outbox cfg notifierDisabled).call s c).store ≠
      (outbox cfg notifierDisabled).rows s := by
  let p := plainParams "mail" 3
  refine ⟨Store.empty,⟨Env.quiet 0 0,.enqueue p,none,false⟩,?_⟩
  change (enqueue (Store.empty : Store cfg) (Env.quiet 0 0) p).1.messages.rows ≠ []
  obtain ⟨messages,inserted,rows⟩ := @insert_empty _ _ _ Row.id (idemIndex cfg) _ _
    (enqueueRow (Env.quiet 0 0) 0 p)
  have stored : (Store.empty : Store cfg).messages.insert (enqueueRow (Env.quiet 0 0) 0 p) = .inserted messages :=
    inserted
  have straight : partitionedLookup (Store.empty : Store cfg) (Env.quiet 0 0) p = none := by
    simp [partitionedLookup, p, plainParams]
  have fits : fitsColumns p = true := show fitsColumns (plainParams "mail" 3) = true by decide
  simp [enqueue, straight, fits, stored, rows]

theorem Mysql.outbox_effective (cfg : Config) :
    ∃ s c, (outbox cfg).rows ((outbox cfg).call s c).store ≠ (outbox cfg).rows s := by
  let p := plainParams "mail" 3
  refine ⟨Store.empty,(Env.quiet 0 0,.enqueue p),?_⟩
  change (enqueue (Store.empty : Store cfg) (Env.quiet 0 0) 0 p).1.messages.rows ≠ []
  obtain ⟨messages,inserted,rows⟩ := @insert_empty _ _ _ Row.id (idemIndex cfg) _ _
    (enqueueRow cfg (Env.quiet 0 0) 0 p)
  have stored : (Store.empty : Store cfg).messages.insert (enqueueRow cfg (Env.quiet 0 0) 0 p) = .inserted messages :=
    inserted
  have fits : fitsColumns cfg p = true := fitsColumns_plain cfg (by decide) (by decide) (by decide)
  simp [enqueue, fits, stored, rows]

/-- The calls of an adapter are part of the caller's transaction exactly if the Tx wraps a
handle of the adapter's own driver. -/
theorem outbox_transactional_iff (pg : Postgres.Config) (notifierDisabled : Bool) (my : Mysql.Config)
    (handle : Handle) :
    (Transactional (Postgres.outbox pg notifierDisabled) (Postgres.querier (makeTx handle)) ↔ handle = .pgxTx) ∧
    (Transactional (Mysql.outbox my) (Mysql.execer (makeTx handle)) ↔
      handle = .sqlTx ∨ handle = .foreignSqlTx) := by
  rw [transactional_iff (Postgres.outbox_effective pg notifierDisabled),
    transactional_iff (Mysql.outbox_effective my)]
  cases handle <;> decide

/-- The PostgreSQL store is given a *sql.Tx and enqueues one message. -/
def misroutedCall : OutboxCall := ⟨Env.quiet 5 7, .enqueue (plainParams "mail" 3), none, false⟩

def misrouted : Session (Postgres.Store ⟨false, .full⟩) Row String :=
  ((Session.start Postgres.Store.empty).call (Postgres.outbox ⟨false, .full⟩ false)
    (Postgres.querier (makeTx .sqlTx)) misroutedCall).1

/-- The caller rolls back, and the message and its notification are there. -/
theorem outbox_misrouted :
    (misrouted.rollback.committed.row 7).isSome = true ∧ misrouted.rollback.delivered = ["mail"] ∧
    ¬Transactional (Postgres.outbox ⟨false, .full⟩ false) (Postgres.querier (makeTx .sqlTx)) := by
  have stays : (misrouted.rollback.committed.row 7).isSome = true := by decide +kernel
  refine ⟨stays,by decide +kernel,fun transactional => ?_⟩
  have undone : misrouted.rollback.committed = Postgres.Store.empty :=
    (transactional Postgres.Store.empty [.call misroutedCall] misrouted (by simp [Label.ends]) rfl).rolledBack.1
  rw [undone] at stays
  cases stays

end Tickr
