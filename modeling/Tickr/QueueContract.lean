import Mathlib.Data.List.Induction
import Tickr.MysqlTally
import Tickr.PostgresEnqueue
import Tickr.PostgresTally

/-! What a storage adapter is for: a queue of messages with a status and an attempt number,
each moving along the edges of one life cycle. Columns, shards, leases and clocks are left
behind; both SQL adapters are instances of it. -/
namespace Tickr

open KeyedTable

/-- What a producer hands in and a handler is handed. -/
structure Content where
  eventType : String
  payload : Payload
  headers : Headers
  idempotencyKey : String
  maxAttempts : Int
  deriving DecidableEq, Repr

def EnqueueParams.content (p : EnqueueParams) : Content :=
  ⟨p.eventType, p.payload.getD [], p.headers, p.idempotencyKey, if p.maxAttempts ≤ 0 then 10 else p.maxAttempts⟩

def InboundMessage.content (m : InboundMessage) : Content :=
  ⟨m.type, m.payload, m.headers, m.idempotencyKey, m.maxAttempts⟩

def Row.content (r : Row) : Content :=
  ⟨r.eventType, r.payload, r.headers, r.idempotencyKey.getD "", r.maxAttempts⟩

/-- A message as the queue knows it. -/
structure Entry where
  content : Content
  status : Status
  attempt : Int
  deriving DecidableEq, Repr

def Row.entry (r : Row) : Entry := ⟨r.content, r.status, r.attempt⟩

/-- What one call may do to one message. -/
inductive EntryMove (env : Env) (id : Uuid) : Call → Option Entry → Option Entry → Prop where
  | same : EntryMove env id call entry entry
  | enqueue : id = env.newID 0 → EntryMove env id (.enqueue p) none (some ⟨p.content, .created, 0⟩)
  | enqueueBatch : id = env.newID i → ps[i]? = some p →
      EntryMove env id (.enqueueBatch ps) none (some ⟨p.content, .created, 0⟩)
  | claim : e.status.pending = true →
      EntryMove env id (.claim p) (some e) (some { e with status := .handling, attempt := e.attempt + 1 })
  | succeed : e.status = .handling →
      EntryMove env id (.succeed (.uuid id) attempt workerID) (some e) (some { e with status := .success })
  | batchSucceed : e.status = .handling → p ∈ params → p.messageID = .uuid id →
      EntryMove env id (.batchSucceed params) (some e) (some { e with status := .success })
  | fail : e.status = .handling → p.messageID = .uuid id → status = (if p.dead then .dead else .retrying) →
      EntryMove env id (.fail p) (some e) (some { e with status })
  | releaseShutdown : e.status = .handling → status.pending = true → count = max (e.attempt - 1) 0 →
      EntryMove env id (.releaseShutdown (.uuid id) attempt workerID reason) (some e)
        (some { e with status, attempt := count })
  | requeue : e.status = .dead →
      EntryMove env id (.requeue (.uuid id) processAt) (some e) (some { e with status := .created, attempt := 0 })
  | reclaimExpired : e.status = .handling →
      EntryMove env id (.reclaimExpired limit) (some e) (some { e with status := .retrying })
  | purgeTerminal : e.status.terminal = true → EntryMove env id (.purgeTerminal before limit) (some e) none

/-- An implementation of the storage interface, down to the rows that it keeps. -/
structure Adapter (σ : Type) where
  row : σ → Uuid → Option Row
  exec : σ → Env → Call → σ × Reply

def postgresAdapter (cfg : Postgres.Config) : Adapter (Postgres.Store cfg) := ⟨Postgres.Store.row, Postgres.exec⟩

def mysqlAdapter (cfg : Mysql.Config) : Adapter (Mysql.Store cfg) := ⟨Mysql.Store.row, Mysql.exec⟩

section
variable {σ : Type} (a : Adapter σ)

def Adapter.entry (s : σ) (id : Uuid) : Option Entry := (a.row s id).map Row.entry

/-- One call, as the queue sees it. -/
structure Adapter.Meets (s : σ) (env : Env) (call : Call) : Prop where
  moves : ∀ id, EntryMove env id call (a.entry s id) (a.entry (a.exec s env call).1 id)
  /-- A claim returns the messages that it moves, once each and as they are afterwards. -/
  handsOut : ∀ msgs, (a.exec s env call).2 = .messages msgs →
    (msgs.map InboundMessage.id).Nodup ∧
    (∀ m ∈ msgs, ∃ id e, m.id = .uuid id ∧ a.entry (a.exec s env call).1 id = some e ∧ e.status = .handling ∧
      m.content = e.content ∧ m.attempt = e.attempt) ∧
    ∀ id, (∃ m ∈ msgs, m.id = .uuid id) ↔ a.entry (a.exec s env call).1 id ≠ a.entry s id
  /-- An Enqueue without an error returns the message that it has added. -/
  adds : ∀ p m, call = .enqueue p → (a.exec s env call).2 = .message (some m) none →
    ∃ id, m.id = .uuid id ∧ m.content = p.content ∧ a.entry s id = none ∧
      a.entry (a.exec s env call).1 id = some ⟨p.content, .created, 0⟩
  /-- One with an error adds nothing, and a message that it returns was there before. -/
  refuses : ∀ p m err, call = .enqueue p → (a.exec s env call).2 = .message m (some err) →
    (∀ id, a.entry (a.exec s env call).1 id = a.entry s id) ∧
    ∀ found, m = some found → ∃ id e, found.id = .uuid id ∧ a.entry s id = some e ∧ found.content = e.content

end

/-! ### Rows as entries -/

@[simp] theorem content_inbound (r : Row) (status : Option Status) : (r.inbound status).content = r.content := rfl

theorem insertedRow_entry (id : Uuid) (shard : Int) (now clock : Time) (p : EnqueueParams) :
    (insertedRow id shard now clock p).entry = ⟨p.content, .created, 0⟩ := by
  have key : (nullif p.idempotencyKey).getD "" = p.idempotencyKey := by
    unfold nullif
    split <;> simp [*]
  simp only [Row.entry, Row.content, insertedRow, key, EnqueueParams.content]

section
variable {row row' : Uuid → Option Row} {set : Row → Row} {scan : Row → InboundMessage}
  {chosen : List Uuid} {msgs : List InboundMessage}

theorem Handout.entry_at (handout : Handout row row' set scan chosen msgs) {id : Uuid} {r : Row}
    (found : row id = some r) : row' id = some (if id ∈ chosen then set r else r) := by
  rw [handout.after, found, Option.map_some, when, handout.keyed id r found]
  simp only [decide_eq_true_eq]

/-- A claim, whatever its SET clause does beside the status and the counter. -/
theorem Handout.handsOut (handout : Handout row row' set scan chosen msgs)
    (scanned : ∀ r, (scan (set r)).id = .uuid r.id ∧ (scan (set r)).content = r.content ∧
      (scan (set r)).attempt = r.attempt + 1)
    (taken : ∀ r, (set r).entry = ⟨r.content, .handling, r.attempt + 1⟩) :
    (∀ m ∈ msgs, ∃ id e, m.id = .uuid id ∧ (row' id).map Row.entry = some e ∧ e.status = .handling ∧
      m.content = e.content ∧ m.attempt = e.attempt) ∧
    ∀ id, (∃ m ∈ msgs, m.id = .uuid id) ↔ (row' id).map Row.entry ≠ (row id).map Row.entry := by
  constructor
  · intro m member
    obtain ⟨id,listed,r,found,rfl⟩ := (handout.returned m).mp member
    obtain ⟨named,content,attempt⟩ := scanned r
    refine ⟨id,_,by rw [named, handout.keyed id r found],by rw [handout.entry_at found, if_pos listed]; rfl,?_⟩
    rw [taken]
    exact ⟨rfl,content,attempt⟩
  · intro id
    constructor
    · rintro ⟨m,member,named⟩ same
      obtain ⟨id',listed,r,found,rfl⟩ := (handout.returned m).mp member
      rw [(scanned r).1, handout.keyed id' r found] at named
      cases named
      rw [handout.entry_at found, if_pos listed, found, Option.map_some, Option.map_some, taken] at same
      have counter := congrArg Entry.attempt (Option.some.inj same)
      change r.attempt + 1 = r.attempt at counter
      omega
    · intro changed
      cases found : row id with
      | none => exact absurd (by rw [handout.after, found]; rfl) changed
      | some r =>
        rw [found, handout.entry_at found] at changed
        by_cases listed : id ∈ chosen
        · exact ⟨_,(handout.returned _).mpr ⟨id,listed,r,found,rfl⟩,by rw [(scanned r).1, handout.keyed id r found]⟩
        · exact absurd (by rw [if_neg listed]) changed

end

/-- What an Enqueue of either adapter does: it inserts its row and returns it, or it fails and
changes nothing, returning a row that is there if it returns one. -/
inductive EnqueueResult (row row' : Uuid → Option Row) (scan : Row → InboundMessage) (inserted : Row) :
    Option InboundMessage → Option StoreError → Prop where
  | added : row inserted.id = none → row' inserted.id = some inserted →
      EnqueueResult row row' scan inserted (some (scan inserted)) none
  | refused : row' = row → (∀ found, m = some found → ∃ r, row r.id = some r ∧ found = scan r) →
      EnqueueResult row row' scan inserted m (some err)

section
variable {row row' : Uuid → Option Row} {scan : Row → InboundMessage} {inserted : Row} {p : EnqueueParams}
  (scanned : ∀ r, (scan r).id = .uuid r.id ∧ (scan r).content = r.content)
include scanned

theorem EnqueueResult.adds {m : InboundMessage} (enqueued : EnqueueResult row row' scan inserted (some m) none)
    (fresh : inserted.entry = ⟨p.content, .created, 0⟩) :
    ∃ id, m.id = .uuid id ∧ m.content = p.content ∧ (row id).map Row.entry = none ∧
      (row' id).map Row.entry = some ⟨p.content, .created, 0⟩ := by
  cases enqueued with
  | added absent present =>
    obtain ⟨named,content⟩ := scanned inserted
    refine ⟨inserted.id,named,content.trans (congrArg Entry.content fresh),?_,?_⟩
    · rw [absent, Option.map_none]
    · rw [present, Option.map_some, fresh]

theorem EnqueueResult.refuses {m : Option InboundMessage} {err : StoreError}
    (enqueued : EnqueueResult row row' scan inserted m (some err)) :
    (∀ id, (row' id).map Row.entry = (row id).map Row.entry) ∧
    ∀ found, m = some found → ∃ id e, found.id = .uuid id ∧ (row id).map Row.entry = some e ∧
      found.content = e.content := by
  cases enqueued with
  | refused same known =>
    refine ⟨fun id => by rw [same],fun found is => ?_⟩
    obtain ⟨r,present,rfl⟩ := known found is
    exact ⟨r.id,r.entry,(scanned r).1,by rw [present, Option.map_some],(scanned r).2⟩

end

/-! ### The PostgreSQL adapter -/

theorem Postgres.RowStep.entry {env : Env} {id : Uuid} {call : Call} {before after : Option Row}
    (step : Postgres.RowStep env id call before after) :
    EntryMove env id call (before.map Row.entry) (after.map Row.entry) := by
  cases step with
  | same => exact .same
  | enqueue named =>
    rw [Option.map_some, Postgres.enqueueRow, insertedRow_entry]
    exact .enqueue named
  | enqueueBatch named at_ =>
    rw [Option.map_some, Postgres.enqueueRow, insertedRow_entry]
    exact .enqueueBatch named at_
  | claim pending => exact .claim pending
  | succeed handling => exact .succeed handling
  | batchSucceed handling member named => exact .batchSucceed handling member named
  | failRetry handling named _ retried => exact EntryMove.fail handling named (by rw [retried]; rfl)
  | failDead handling named _ dead => exact EntryMove.fail handling named (by rw [dead]; rfl)
  | releaseShutdown handling =>
    have pending : Status.retrying.pending = true := rfl
    exact EntryMove.releaseShutdown handling pending (Int.max_comm ..)
  | extend => exact .same
  | requeue dead => exact .requeue dead
  | reclaimExpired handling => exact .reclaimExpired handling
  | purgeTerminal terminal => exact .purgeTerminal terminal

theorem Postgres.enqueue_enqueued {cfg : Postgres.Config} (s : Postgres.Store cfg) (env : Env) (p : EnqueueParams) :
    EnqueueResult s.row (Postgres.enqueue s env p).1.row Postgres.scanMessage (Postgres.enqueueRow env 0 p)
      (Postgres.enqueue s env p).2.1 (Postgres.enqueue s env p).2.2 := by
  have existing {r : Row} (found : Postgres.findByIdempotency s env p.eventType p.idempotencyKey = some r) :
      ∀ m, some (Postgres.scanMessage r) = some m → ∃ r, s.row r.id = some r ∧ m = Postgres.scanMessage r :=
    fun _ same => ⟨r,Postgres.Store.row_of_mem (Postgres.findByIdempotency_mem found).1,(Option.some.inj same).symm⟩
  unfold Postgres.enqueue
  cases looked : Postgres.partitionedLookup s env p with
  | some r =>
    refine .refused rfl (existing ?_)
    unfold Postgres.partitionedLookup at looked
    split at looked
    · exact looked
    · cases looked
  | none =>
    dsimp only
    split
    · cases inserted : s.messages.insert (Postgres.enqueueRow env 0 p) with
      | inserted messages =>
        refine .added (Postgres.insert_absent inserted) ?_
        exact (Postgres.insert_row inserted _).trans (if_pos rfl)
      | duplicateKey => exact .refused rfl fun _ none => nomatch none
      | conflict =>
        dsimp only
        split
        · exact .refused rfl fun _ none => nomatch none
        · split
          · exact .refused rfl (existing ‹_›)
          · exact .refused rfl fun _ none => nomatch none
    · exact .refused rfl fun _ none => nomatch none

theorem postgresAdapter_meets {cfg : Postgres.Config} (s : Postgres.Store cfg) (env : Env) (call : Call) :
    (postgresAdapter cfg).Meets s env call where
  moves id := (Postgres.exec_row s env call id).entry
  handsOut msgs replied := by
    cases call with
    | claim p =>
      cases replied
      obtain ⟨_,_,spec⟩ := Postgres.claim_spec s env p
      obtain ⟨_,_,handout⟩ := Postgres.claim_handout s env p
      exact ⟨spec.nodup,handout.handsOut (fun _ => ⟨rfl,rfl,rfl⟩) fun _ => rfl⟩
    | _ => cases replied
  adds p m is replied := by
    subst is
    have enqueued := Postgres.enqueue_enqueued s env p
    obtain ⟨message,error⟩ := Reply.message.inj replied
    rw [message, error] at enqueued
    exact enqueued.adds (fun _ => ⟨rfl,rfl⟩) (insertedRow_entry ..)
  refuses p m err is replied := by
    subst is
    have enqueued := Postgres.enqueue_enqueued s env p
    obtain ⟨message,error⟩ := Reply.message.inj replied
    rw [message, error] at enqueued
    exact enqueued.refuses fun _ => ⟨rfl,rfl⟩

/-! ### The MySQL adapter -/

theorem Mysql.RowStep.entry {cfg : Mysql.Config} {env : Env} {id : Uuid} {call : Call} {before after : Option Row}
    (step : Mysql.RowStep cfg env id call before after) :
    EntryMove env id call (before.map Row.entry) (after.map Row.entry) := by
  have holding {mid : MessageID} {workerID : String} {r : Row} (held : Mysql.holdsClaim cfg mid workerID r = true) :
      r.entry.status = .handling := (Mysql.holdsClaim_iff.mp held).2.1
  cases step with
  | same => exact .same
  | enqueue named =>
    rw [Option.map_some, Mysql.enqueueRow, insertedRow_entry]
    exact .enqueue named
  | enqueueBatch named at_ =>
    rw [Option.map_some, Mysql.enqueueRow, insertedRow_entry]
    exact .enqueueBatch named at_
  | claim pending => exact .claim pending
  | succeed held => exact .succeed (holding held)
  | batchSucceed member named held => exact .batchSucceed (Mysql.holdsAttempt_iff.mp held).2.1 member named
  | failRetry named retried held => exact EntryMove.fail (holding held) named (by rw [retried]; rfl)
  | failDead named dead held => exact EntryMove.fail (holding held) named (by rw [dead]; rfl)
  | @releaseShutdown workerID r _ _ held =>
    refine EntryMove.releaseShutdown (holding held) ?_ rfl
    simp only [Mysql.releaseShutdownSet]
    split <;> rfl
  | extend => exact .same
  | requeue dead => exact .requeue dead
  | reclaimExpired handling => exact .reclaimExpired handling
  | purgeTerminal terminal => exact .purgeTerminal terminal

theorem Mysql.enqueue_enqueued {cfg : Mysql.Config} (s : Mysql.Store cfg) (env : Env) (p : EnqueueParams) :
    EnqueueResult s.row (Mysql.enqueue s env 0 p).1.row Mysql.scanMessage (Mysql.enqueueRow cfg env 0 p)
      (Mysql.enqueue s env 0 p).2.1 (Mysql.enqueue s env 0 p).2.2 := by
  have existing {r : Row} (found : Mysql.findByIdempotency s env p.eventType p.idempotencyKey = some r) :
      ∀ m, some (Mysql.scanMessage r) = some m → ∃ r, s.row r.id = some r ∧ m = Mysql.scanMessage r :=
    fun _ same => ⟨r,Mysql.Store.row_of_mem (env.scan.mem_visit.mp (List.mem_of_find?_eq_some found)),
      (Option.some.inj same).symm⟩
  unfold Mysql.enqueue
  dsimp only
  split
  · split
    · rename_i messages inserted
      refine .added (Table.find?_eq_none.mpr (Table.insert_inserted inserted).2) ?_
      exact (Table.find?_insert inserted _).trans (if_pos rfl)
    all_goals
      split
      · exact .refused rfl fun _ none => nomatch none
      · split
        · exact .refused rfl (existing ‹_›)
        · exact .refused rfl fun _ none => nomatch none
  · exact .refused rfl fun _ none => nomatch none

theorem mysqlAdapter_meets {cfg : Mysql.Config} (s : Mysql.Store cfg) (env : Env) (call : Call) :
    (mysqlAdapter cfg).Meets s env call where
  moves id := (Mysql.exec_row s env call id).entry
  handsOut msgs replied := by
    cases call with
    | claim p =>
      cases replied
      obtain ⟨_,spec⟩ := Mysql.claim_spec s env p
      obtain ⟨_,handout⟩ := Mysql.claim_handout s env p
      exact ⟨spec.nodup,handout.handsOut (fun _ => ⟨rfl,rfl,rfl⟩) fun _ => rfl⟩
    | _ => cases replied
  adds p m is replied := by
    subst is
    have enqueued := Mysql.enqueue_enqueued s env p
    obtain ⟨message,error⟩ := Reply.message.inj replied
    rw [message, error] at enqueued
    exact enqueued.adds (fun _ => ⟨rfl,rfl⟩) (insertedRow_entry ..)
  refuses p m err is replied := by
    subst is
    have enqueued := Mysql.enqueue_enqueued s env p
    obtain ⟨message,error⟩ := Reply.message.inj replied
    rw [message, error] at enqueued
    exact enqueued.refuses fun _ => ⟨rfl,rfl⟩

/-- From any table on and in any environment, every call of either adapter does what the queue
allows it to do, and answers with what it did. -/
theorem adapters_meet_contract (pg : Postgres.Config) (my : Mysql.Config) :
    (∀ s env call, (postgresAdapter pg).Meets s env call) ∧ ∀ s env call, (mysqlAdapter my).Meets s env call :=
  ⟨postgresAdapter_meets,mysqlAdapter_meets⟩

/-! ### Whole runs of the queue -/

/-- An adapter that meets the contract. -/
structure Queue (σ : Type) extends Adapter σ where
  meets : ∀ s env call, toAdapter.Meets s env call

def postgresQueue (cfg : Postgres.Config) : Queue (Postgres.Store cfg) := ⟨postgresAdapter cfg, postgresAdapter_meets⟩

def mysqlQueue (cfg : Mysql.Config) : Queue (Mysql.Store cfg) := ⟨mysqlAdapter cfg, mysqlAdapter_meets⟩

section
variable {σ : Type} (q : Queue σ)

def Queue.execute (s : σ) : List (Env × Call) → σ
  | [] => s
  | (env, call) :: rest => Queue.execute (q.exec s env call).1 rest

variable {q}

/-- What the allowed moves of a message keep, holds of it after a run. -/
theorem Queue.execute_entry (property : Option Entry → Prop) (allowed : Env → Call → Prop) {id : Uuid}
    (preserved : ∀ env call before after, property before → allowed env call →
      EntryMove env id call before after → property after)
    {s : σ} {trace : List (Env × Call)} (all : ∀ step ∈ trace, allowed step.1 step.2) (initial : property (q.entry s id)) :
    property (q.entry (q.execute s trace) id) := by
  induction trace generalizing s with
  | nil => exact initial
  | cons step rest ih =>
    obtain ⟨now,later⟩ := List.forall_mem_cons.mp all
    exact ih later (preserved step.1 step.2 _ _ initial now ((q.meets s step.1 step.2).moves id))

/-- The call generates other ids than this one. -/
def Env.Avoids (env : Env) (id : Uuid) : Prop := ∀ i, env.newID i ≠ id

/-- The call gives the attempt of the message back, or starts it anew. -/
def Call.rewinds (id : Uuid) : Call → Bool
  | .releaseShutdown mid _ _ _ | .requeue mid _ => mid = .uuid id
  | _ => false

def Call.requeues (id : Uuid) : Call → Bool
  | .requeue mid _ => mid = .uuid id
  | _ => false

/-- The step is an Enqueue of `p` under the id, or an EnqueueBatch with `p` among its elements. -/
def Enqueues (id : Uuid) (p : EnqueueParams) (step : Env × Call) : Prop :=
  (step.2 = .enqueue p ∧ step.1.newID 0 = id) ∨
    ∃ ps i, step.2 = .enqueueBatch ps ∧ ps[i]? = some p ∧ step.1.newID i = id

/-- A message is there with the content it had before, or it has just been enqueued. -/
theorem EntryMove.origin {env : Env} {id : Uuid} {call : Call} {before : Option Entry} {e : Entry}
    (move : EntryMove env id call before (some e)) :
    (∃ e', before = some e' ∧ e.content = e'.content) ∨
      before = none ∧ ∃ p, Enqueues id p (env,call) ∧ e = ⟨p.content, .created, 0⟩ := by
  cases move with
  | same => exact Or.inl ⟨e,rfl,rfl⟩
  | enqueue named => exact Or.inr ⟨rfl,_,Or.inl ⟨rfl,named.symm⟩,rfl⟩
  | enqueueBatch named listed => exact Or.inr ⟨rfl,_,Or.inr ⟨_,_,rfl,listed,named.symm⟩,rfl⟩
  | claim | succeed | batchSucceed | fail | releaseShutdown | requeue | reclaimExpired => exact Or.inl ⟨_,rfl,rfl⟩

theorem EntryMove.content {env : Env} {id : Uuid} {call : Call} {before after : Option Entry} {c : Content}
    (move : EntryMove env id call before after) (avoids : env.Avoids id) (same : ∀ e, before = some e → e.content = c) :
    ∀ e, after = some e → e.content = c := by
  rintro e rfl
  rcases move.origin with ⟨e',present,kept⟩ | ⟨_,p,⟨_,named⟩ | ⟨_,i,_,_,named⟩,_⟩
  · exact kept.trans (same e' present)
  · exact absurd named (avoids 0)
  · exact absurd named (avoids i)

/-- The attempt number only goes up, except where it is given back. -/
theorem EntryMove.attempt {env : Env} {id : Uuid} {call : Call} {before after : Option Entry} {n : Int}
    (move : EntryMove env id call before after) (avoids : env.Avoids id) (onward : call.rewinds id = false)
    (least : ∀ e, before = some e → n ≤ e.attempt) : ∀ e, after = some e → n ≤ e.attempt := by
  intro e' present
  cases move with
  | same => exact least e' present
  | enqueue named => exact absurd named.symm (avoids _)
  | enqueueBatch named => exact absurd named.symm (avoids _)
  | purgeTerminal => cases present
  | claim =>
    cases present
    have before := least _ rfl
    exact Int.le_add_one before
  | succeed | batchSucceed | fail | reclaimExpired =>
    cases present
    have before := least _ rfl
    exact before
  | releaseShutdown | requeue => simp [Call.rewinds] at onward

/-- Nothing but a Requeue leads out of DEAD, and nothing out of SUCCESS. -/
theorem EntryMove.finished {env : Env} {id : Uuid} {call : Call} {before after : Option Entry} {e : Entry}
    (move : EntryMove env id call before after) (avoids : env.Avoids id) (terminal : e.status.terminal = true)
    (left : e.status = .success ∨ call.requeues id = false) (is : before = some e ∨ before = none) :
    after = some e ∨ after = none := by
  have idle := Status.terminal_idle terminal
  cases move with
  | same => exact is
  | enqueue named => exact absurd named.symm (avoids _)
  | enqueueBatch named => exact absurd named.symm (avoids _)
  | purgeTerminal => exact Or.inr rfl
  | claim pending =>
    rcases is with is | is
    · cases is
      rw [Status.pending_open pending] at terminal
      cases terminal
    · cases is
  | succeed handling | batchSucceed handling | fail handling | releaseShutdown handling | reclaimExpired handling =>
    rcases is with is | is
    · cases is
      exact absurd handling idle
    · cases is
  | requeue dead =>
    rcases is with is | is
    · cases is
      rcases left with success | onward
      · rw [dead] at success
        cases success
      · simp [Call.requeues] at onward
    · cases is

/-- A claim takes a message from a state with one attempt less. -/
theorem Queue.claim_before {s : σ} {env : Env} {p : ClaimParams} {msgs : List InboundMessage} {m : InboundMessage}
    {id : Uuid} (replied : (q.exec s env (.claim p)).2 = .messages msgs) (member : m ∈ msgs) (named : m.id = .uuid id) :
    ∃ e, q.entry s id = some e ∧ e.status.pending = true ∧ m.content = e.content ∧ m.attempt = e.attempt + 1 := by
  obtain ⟨_,shown,changed⟩ := (q.meets s env (.claim p)).handsOut msgs replied
  obtain ⟨id',e',named',present,_,content,attempt⟩ := shown m member
  cases named.symm.trans named'
  have moved := (changed id).mp ⟨m,member,named⟩
  have move := (q.meets s env (.claim p)).moves id
  rw [present] at move moved
  generalize q.entry s id = before at move moved
  cases move with
  | same => exact absurd rfl moved
  | claim pending => exact ⟨_,rfl,pending,content,attempt⟩

theorem Queue.claim_after {s : σ} {env : Env} {p : ClaimParams} {msgs : List InboundMessage} {m : InboundMessage}
    {id : Uuid} (replied : (q.exec s env (.claim p)).2 = .messages msgs) (member : m ∈ msgs) (named : m.id = .uuid id) :
    ∃ e, q.entry (q.exec s env (.claim p)).1 id = some e ∧ m.content = e.content ∧ m.attempt = e.attempt := by
  obtain ⟨id',e,named',present,_,content,attempt⟩ := ((q.meets s env (.claim p)).handsOut msgs replied).2.1 m member
  cases named.symm.trans named'
  exact ⟨e,present,content,attempt⟩

/-- A message that a claim returns has the content that it had before any calls that leave its
id alone. -/
theorem Queue.handed_content {s : σ} {id : Uuid} {content : Content}
    (before : ∀ e, q.entry s id = some e → e.content = content) {between : List (Env × Call)}
    (fresh : ∀ step ∈ between, step.1.Avoids id) {env : Env} {p : ClaimParams} {msgs : List InboundMessage}
    (claimed : (q.exec (q.execute s between) env (.claim p)).2 = .messages msgs) {m : InboundMessage}
    (member : m ∈ msgs) (named : m.id = .uuid id) : m.content = content := by
  have kept : ∀ e, q.entry (q.execute s between) id = some e → e.content = content :=
    Queue.execute_entry (fun entry => ∀ e, entry = some e → e.content = content) (fun env _ => env.Avoids id)
      (fun _ _ _ _ holds avoids move => move.content avoids holds) fresh before
  obtain ⟨e,found,_,same,_⟩ := q.claim_before claimed member named
  exact same.trans (kept e found)

/-- A message that is not there is not handed out, unless it is inserted. -/
theorem Queue.absent_unclaimed {s : σ} {id : Uuid} (absent : q.entry s id = none) {between : List (Env × Call)}
    (fresh : ∀ step ∈ between, step.1.Avoids id) {env : Env} {p : ClaimParams} {msgs : List InboundMessage}
    (claimed : (q.exec (q.execute s between) env (.claim p)).2 = .messages msgs) {m : InboundMessage}
    (member : m ∈ msgs) : m.id ≠ .uuid id := by
  intro named
  have kept : q.entry (q.execute s between) id = none := by
    refine Queue.execute_entry (fun entry => entry = none) (fun env _ => env.Avoids id) ?_ fresh absent
    rintro env call _ after rfl avoids move
    cases move with
    | same => rfl
    | enqueue named => exact absurd named.symm (avoids _)
    | enqueueBatch named => exact absurd named.symm (avoids _)
  obtain ⟨e,found,_⟩ := q.claim_before claimed member named
  rw [kept] at found
  cases found

theorem Queue.execute_append (s : σ) (first second : List (Env × Call)) :
    q.execute s (first ++ second) = q.execute (q.execute s first) second := by
  induction first generalizing s with
  | nil => rfl
  | cons step rest ih => exact ih (q.exec s step.1 step.2).1

/-- Attempt numbers tell the claims of a message apart: one that comes later hands it out under
a higher number, unless the message has been released or requeued in between. -/
theorem later_claim_higher_attempt (q : Queue σ) (s : σ) (env : Env) (p : ClaimParams) (msgs : List InboundMessage)
    (claimed : (q.exec s env (.claim p)).2 = .messages msgs) (m : InboundMessage) (member : m ∈ msgs)
    (id : Uuid) (named : m.id = .uuid id) (between : List (Env × Call)) (fresh : ∀ step ∈ between, step.1.Avoids id)
    (onward : ∀ step ∈ between, step.2.rewinds id = false)
    (env' : Env) (p' : ClaimParams) (msgs' : List InboundMessage)
    (claimed' : (q.exec (q.execute (q.exec s env (.claim p)).1 between) env' (.claim p')).2 = .messages msgs')
    (m' : InboundMessage) (member' : m' ∈ msgs') (same : m'.id = .uuid id) :
    m.attempt < m'.attempt ∧ m'.content = m.content := by
  obtain ⟨e,after,content,attempt⟩ := q.claim_after claimed member named
  obtain ⟨e',before,_,content',attempt'⟩ := q.claim_before claimed' member' same
  have kept := Queue.execute_entry
    (fun entry => (∀ e', entry = some e' → e.attempt ≤ e'.attempt) ∧ ∀ e', entry = some e' → e'.content = e.content)
    (fun env call => env.Avoids id ∧ call.rewinds id = false)
    (fun _ _ _ _ holds allowed move =>
      ⟨move.attempt allowed.1 allowed.2 holds.1,move.content allowed.1 holds.2⟩)
    (fun step member => ⟨fresh step member,onward step member⟩)
    (⟨fun e' found => by cases after.symm.trans found; exact Int.le_refl _,
      fun e' found => by cases after.symm.trans found; rfl⟩ : _ ∧ ∀ e', q.entry _ id = some e' → _)
  have least := kept.1 e' before
  have constant := kept.2 e' before
  constructor
  · omega
  · rw [content', constant, content]

/-- A finished message stays as it is, whatever is called, until a purge takes it away; only a
dead one can be requeued. -/
theorem finished_until_requeued (q : Queue σ) (s : σ) (id : Uuid) (e : Entry) (present : q.entry s id = some e)
    (finished : e.status.terminal = true) (trace : List (Env × Call)) (fresh : ∀ step ∈ trace, step.1.Avoids id)
    (left : e.status = .success ∨ ∀ step ∈ trace, step.2.requeues id = false) :
    q.entry (q.execute s trace) id = some e ∨ q.entry (q.execute s trace) id = none := by
  refine Queue.execute_entry (fun entry => entry = some e ∨ entry = none)
    (fun env call => env.Avoids id ∧ (e.status = .success ∨ call.requeues id = false))
    (fun _ _ _ _ is allowed move => move.finished allowed.1 finished allowed.2 is) ?_ (Or.inl present)
  exact fun step member => ⟨fresh step member,left.imp_right fun onward => onward step member⟩

end

/-! ### One message -/

/-- A store with one message under id 7, and a claim of its type. -/
def mailed : Mysql.Store .binary :=
  ((mysqlQueue .binary).exec Mysql.Store.empty (Env.quiet 5 7) (.enqueue (plainParams "mail" 3))).1

def fetchMail (workerID : String) : ClaimParams := ⟨workerID, 10, 30 * Duration.second, ["mail"]⟩

def mail (attempt : Int) : InboundMessage := ⟨.uuid 7, "mail", [], [], "", attempt, 3, 5, 0, "", none⟩

theorem Env.quiet_avoids {time : Time} {first id : Nat} (later : id < first) : (Env.quiet time first).Avoids id :=
  fun i => Nat.ne_of_gt (Nat.lt_add_right i later)

/-- The first attempt fails. -/
def failedFirst : List (Env × Call) := [(Env.quiet 7 8, .fail ⟨.uuid 7, 1, "w", "boom", 8, false⟩)]

theorem later_claim_higher_attempt_retried :
    ∃ msgs m, ((mysqlQueue .binary).exec ((mysqlQueue .binary).execute
        ((mysqlQueue .binary).exec mailed (Env.quiet 6 8) (.claim (fetchMail "w"))).1 failedFirst) (Env.quiet 8 8)
        (.claim (fetchMail "v"))).2 = .messages msgs ∧ m ∈ msgs ∧
      (mail 1).attempt < m.attempt ∧ m.content = (mail 1).content :=
  have fresh : ∀ step ∈ failedFirst, step.1.Avoids 7 := by
    simp only [failedFirst, List.forall_mem_cons]
    exact ⟨Env.quiet_avoids (by decide),by simp⟩
  ⟨_,_,rfl,List.mem_cons_self,later_claim_higher_attempt (mysqlQueue .binary) mailed (Env.quiet 6 8) (fetchMail "w")
    [mail 1] rfl (mail 1) List.mem_cons_self 7 rfl failedFirst fresh (by decide) (Env.quiet 8 8) (fetchMail "v") _ rfl _
    List.mem_cons_self rfl⟩

/-- Handled, and then requeued in vain and purged. -/
def finishedMail : Mysql.Store .binary :=
  (mysqlQueue .binary).execute mailed
    [(Env.quiet 6 8, .claim (fetchMail "w")), (Env.quiet 7 8, .succeed (.uuid 7) 1 "w")]

def requeuedInVain : List (Env × Call) :=
  [(Env.quiet 8 8, .requeue (.uuid 7) (some 8)), (Env.quiet 9 8, .purgeTerminal 8 10)]

theorem finished_until_requeued_success :
    (mysqlQueue .binary).entry finishedMail 7 = some ⟨(mail 1).content, .success, 1⟩ ∧
    ((mysqlQueue .binary).entry ((mysqlQueue .binary).execute finishedMail requeuedInVain) 7 =
        some ⟨(mail 1).content, .success, 1⟩ ∨
      (mysqlQueue .binary).entry ((mysqlQueue .binary).execute finishedMail requeuedInVain) 7 = none) :=
  have present : (mysqlQueue .binary).entry finishedMail 7 = some ⟨(mail 1).content, .success, 1⟩ := rfl
  have fresh : ∀ step ∈ requeuedInVain, step.1.Avoids 7 := by
    simp only [requeuedInVain, List.forall_mem_cons]
    exact ⟨Env.quiet_avoids (by decide),Env.quiet_avoids (by decide),by simp⟩
  ⟨present,finished_until_requeued (mysqlQueue .binary) finishedMail 7 _ present rfl requeuedInVain fresh (Or.inl rfl)⟩

end Tickr
