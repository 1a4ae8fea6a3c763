import Tickr.Binary64
import Tickr.Storage

/-! The PostgreSQL adapter. Every SQL statement is a function on the tables with the
column list of its SET clause; every method of the adapter is the composition of its
statements. A statement is atomic, and none of them fails here except by its own
constraints. -/
namespace Tickr.Postgres

open KeyedTable

inductive HistoryPolicy where
  | full
  | off
  deriving DecidableEq, Repr

structure Config where
  partitioned : Bool
  historyPolicy : HistoryPolicy
  deriving DecidableEq, Repr

/-- The idempotency index: partial on non-null keys, and widened by the partition key
under the partitioned schema. -/
def idemIndex (cfg : Config) (row : Row) : Option (String × String × Option Time) :=
  row.idempotencyKey.map fun key =>
    (row.eventType, key, if cfg.partitioned then some row.createdAt else none)

abbrev Messages (cfg : Config) := Table Row.id (idemIndex cfg)

structure Store (cfg : Config) where
  messages : Messages cfg
  history : List HistoryRow

variable {cfg : Config}

def Store.empty : Store cfg := ⟨KeyedTable.empty, []⟩

/-- The row of one message, if it is in the table. -/
def Store.row (s : Store cfg) (id : Uuid) : Option Row := s.messages.find? id

def maxSeq (history : List HistoryRow) (id : Uuid) : Nat :=
  (history.filter (fun h => h.messageID = id)).foldl (fun highest h => max highest h.seq) 0

/-! ### Enqueue -/

def scanMessage (row : Row) : InboundMessage := row.inbound (some row.status)

def enqueueRow (env : Env) (i : Nat) (p : EnqueueParams) : Row :=
  insertedRow (env.newID i) (env.pickShard i) (env.now 0) (env.clock 0) p

/-- TEXT and JSONB take every text without a NUL. -/
def fitsText (text : String) : Bool := text.toList.all (· ≠ '\x00')

/-- What the columns take of a request: a payload that is not NULL, a limit within INT and
texts without a NUL. -/
def fitsColumns (p : EnqueueParams) : Bool :=
  p.payload.isSome && fitsInt4 p.maxAttempts && fitsText p.eventType && fitsText p.idempotencyKey &&
    p.headers.all fun header => fitsText header.1 && fitsText header.2

def findByIdempotency (s : Store cfg) (env : Env) (eventType key : String) : Option Row :=
  (env.scan.visit s.messages.rows).find? fun row =>
    row.eventType = eventType && row.idempotencyKey = some key

/-- The partitioned index cannot cover (event_type, idempotency_key) alone, so that mode
looks the key up before it inserts. -/
def partitionedLookup (s : Store cfg) (env : Env) (p : EnqueueParams) : Option Row :=
  if cfg.partitioned && p.idempotencyKey != "" then
    findByIdempotency s env p.eventType p.idempotencyKey
  else none

/-- The statement that refuses a request which does not fit: the look-up of the partitioned
mode has the type and the key among its arguments. -/
def refusedBy (cfg : Config) (p : EnqueueParams) : String :=
  if cfg.partitioned && p.idempotencyKey != "" && !(fitsText p.eventType && fitsText p.idempotencyKey) then
    "fetch by idempotency key"
  else "enqueue"

theorem refusedBy_whole (whole : cfg.partitioned = false) (p : EnqueueParams) : refusedBy cfg p = "enqueue" := by
  simp [refusedBy, whole]

def enqueue (s : Store cfg) (env : Env) (p : EnqueueParams) :
    Store cfg × Option InboundMessage × Option StoreError :=
  match partitionedLookup s env p with
  | some existing => (s, some (scanMessage existing), some (duplicateOf existing p))
  | none =>
    let row := enqueueRow env 0 p
    if fitsColumns p then
      match s.messages.insert row with
      | .inserted messages => ({ s with messages }, some (scanMessage row), none)
      | .duplicateKey => (s, none, some (.sql "enqueue"))
      | .conflict =>
        if p.idempotencyKey = "" then (s, none, some (.noRows "enqueue"))
        else match findByIdempotency s env p.eventType p.idempotencyKey with
          | some existing => (s, some (scanMessage existing), some (duplicateOf existing p))
          | none => (s, none, some (.noRows "fetch by idempotency key"))
    else (s, none, some (.sql (refusedBy cfg p)))

/-- `batchInsertSQL`: one statement, so a repeated primary key undoes all of it. The
second component is what RETURNING yields. -/
def batchInsertSQL (messages : Messages cfg) : List Row → Option (Messages cfg × List Row)
  | [] => some (messages, [])
  | row :: rest =>
    match messages.insert row with
    | .conflict => batchInsertSQL messages rest
    | .duplicateKey => none
    | .inserted next => (batchInsertSQL next rest).map fun result => (result.1, row :: result.2)

/-- The loop of `EnqueueBatch` that puts the output into input order. -/
def collectBatch (s : Store cfg) (env : Env) (inserted : List Row) :
    List (Uuid × EnqueueParams) → Option StoreError →
      List (Option InboundMessage) × Option StoreError
  | [], firstDup => ([], firstDup)
  | (id, p) :: rest, firstDup =>
    match inserted.find? (fun row => row.id = id) with
    | some row =>
      let later := collectBatch s env inserted rest firstDup
      (some (scanMessage row) :: later.1, later.2)
    | none =>
      if p.idempotencyKey = "" then
        (none :: rest.map (fun _ => none), some (.noRows "enqueue batch item"))
      else match findByIdempotency s env p.eventType p.idempotencyKey with
        | none => (none :: rest.map (fun _ => none), some (.noRows "fetch by idempotency key"))
        | some existing =>
          let later := collectBatch s env inserted rest (firstDup.or (some (duplicateOf existing p)))
          (some (scanMessage existing) :: later.1, later.2)

def batchRows (env : Env) (ps : List EnqueueParams) : List Row :=
  ps.mapIdx fun i p => enqueueRow env i p

def enqueueBatch (s : Store cfg) (env : Env) (ps : List EnqueueParams) :
    Store cfg × List (Option InboundMessage) × Option StoreError :=
  if ps = [] then (s, [], none)
  else
    let rows := batchRows env ps
    if ps.all fitsColumns then
      match batchInsertSQL s.messages rows with
      | none => (s, [], some (.sql "enqueue batch"))
      | some (messages, inserted) =>
        let after : Store cfg := { s with messages }
        (after, collectBatch after env inserted (ps.mapIdx fun i p => (env.newID i, p)) none)
    else (s, [], some (.sql "enqueue batch"))

/-! ### History -/

/-- `appendHistorySQL`. -/
def appendHistorySQL (history : List HistoryRow) (now : Time) (id : Uuid) (fromStatus : Option Status)
    (toStatus : Status) (attempt : Int) (error workerID : String) : List HistoryRow :=
  history ++ [⟨id, maxSeq history id + 1, fromStatus, toStatus, attempt, nullif error,
    nullif workerID, now⟩]

def appendHistoryBatch (history : List HistoryRow) (now : Time) (msgs : List InboundMessage)
    (toStatus : Status) (error workerID : String) : List HistoryRow :=
  msgs.foldl (fun history m =>
    match m.id.parse with
    | none => history
    | some id => appendHistorySQL history now id none toStatus m.attempt error workerID) history

/-! ### Claim -/

def eligible (env : Env) (statement : Nat) (eventTypes : Option (List String)) (shard : Option Int)
    (row : Row) : Bool :=
  row.status.pending && shard.all (fun s => row.shard = s) && row.processAt ≤ env.now statement &&
    eventTypes.all (fun types => row.eventType ∈ types) && !env.locked statement row.id

def claimSet (now : Time) (workerID : String) (leaseSec : Int) (row : Row) : Row :=
  { row with
    status := .handling
    attempt := row.attempt + 1
    claimedBy := some workerID
    claimedUntil := some (now + leaseSec * Duration.second)
    updatedAt := now }

def claimChosen (messages : Messages cfg) (env : Env) (statement : Nat)
    (eventTypes : Option (List String)) (batch : Nat) (shard : Option Int) : List Uuid :=
  (((messages.rows.filter (eligible env statement eventTypes shard)).insertionSort claimOrder).take
    batch).map Row.id

/-- The claim CTE. The order of the rows that RETURNING yields is that of the scan. -/
def claimSQL (messages : Messages cfg) (env : Env) (statement : Nat)
    (eventTypes : Option (List String)) (batch : Nat) (workerID : String) (leaseSec : Int)
    (shard : Option Int) : Messages cfg × List InboundMessage :=
  let chosen := claimChosen messages env statement eventTypes batch shard
  let after := messages.update (fun row => row.id ∈ chosen)
    ⟨claimSet (env.now statement) workerID leaseSec, fun _ => rfl, fun _ => rfl⟩
  (after, (after.select env.scan chosen).map scanMessage)

def claimBatch (p : ClaimParams) : Nat := if p.batch ≤ 0 then 1 else p.batch.toNat

/-- `int(d.Seconds())`. The whole seconds and the nanoseconds are converted to float64 apart
and then added, so the sum may round up to the next second. -/
def wholeSeconds (d : Duration) : Int :=
  d.sign * Binary64.floor (Binary64.add (Binary64.ofNat (d.natAbs / 1000000000))
    (Binary64.div (Binary64.ofNat (d.natAbs % 1000000000)) (Binary64.ofNat 1000000000)))

/-- In whole seconds, with 30 for a zero lease. -/
def claimLeaseSec (p : ClaimParams) : Int :=
  if p.lease = 0 then 30 else wholeSeconds p.lease

def claimTypes (p : ClaimParams) : Option (List String) :=
  if p.eventTypes = [] then none else some p.eventTypes

/-- Both passes of `Claim`: one random shard, then all shards if that gave nothing. -/
def claimPasses (messages : Messages cfg) (env : Env) (p : ClaimParams) :
    Messages cfg × List InboundMessage :=
  let first := claimSQL messages env 0 (claimTypes p) (claimBatch p) p.workerID (claimLeaseSec p)
    (some (env.pickShard 0))
  if first.2 = [] then
    claimSQL first.1 env 1 (claimTypes p) (claimBatch p) p.workerID (claimLeaseSec p) none
  else first

def claim (s : Store cfg) (env : Env) (p : ClaimParams) : Store cfg × List InboundMessage :=
  let result := claimPasses s.messages env p
  let history := if cfg.historyPolicy = .off then s.history
    else appendHistoryBatch s.history (env.now 2) result.2 .handling "" p.workerID
  (⟨result.1, history⟩, result.2)

/-! ### Succeed, Fail, ReleaseShutdown, Extend -/

/-- WHERE id = $1 AND status = 'HANDLING' AND attempt = $2. -/
def holds (id : Uuid) (attempt : Int) (row : Row) : Bool :=
  row.id = id && row.status = .handling && row.attempt = attempt

def succeedSet (now : Time) (row : Row) : Row :=
  { row with
    status := .success
    claimedUntil := none
    claimedBy := none
    lastError := none
    completedAt := some now
    updatedAt := now }

def failRetrySet (now : Time) (error : String) (nextRetryAt : Time) (row : Row) : Row :=
  { row with
    status := .retrying
    claimedUntil := none
    claimedBy := none
    lastError := some error
    processAt := nextRetryAt
    updatedAt := now }

def failDeadSet (now : Time) (error : String) (row : Row) : Row :=
  { row with
    status := .dead
    claimedUntil := none
    claimedBy := none
    lastError := some error
    completedAt := some now
    updatedAt := now }

def releaseShutdownSet (now : Time) (reason : String) (row : Row) : Row :=
  { row with
    status := .retrying
    claimedUntil := none
    claimedBy := none
    attempt := max 0 (row.attempt - 1)
    processAt := now
    lastError := some reason
    updatedAt := now }

def succeedNoHistorySQL (messages : Messages cfg) (now : Time) (id : Uuid) (attempt : Int) :
    Messages cfg :=
  messages.update (holds id attempt) ⟨succeedSet now, fun _ => rfl, fun _ => rfl⟩

def failRetryNoHistorySQL (messages : Messages cfg) (now : Time) (id : Uuid) (attempt : Int)
    (error : String) (nextRetryAt : Time) : Messages cfg :=
  messages.update (holds id attempt) ⟨failRetrySet now error nextRetryAt, fun _ => rfl, fun _ => rfl⟩

def failDeadNoHistorySQL (messages : Messages cfg) (now : Time) (id : Uuid) (attempt : Int)
    (error : String) : Messages cfg :=
  messages.update (holds id attempt) ⟨failDeadSet now error, fun _ => rfl, fun _ => rfl⟩

def releaseShutdownNoHistorySQL (messages : Messages cfg) (now : Time) (id : Uuid) (attempt : Int)
    (reason : String) : Messages cfg :=
  messages.update (holds id attempt) ⟨releaseShutdownSet now reason, fun _ => rfl, fun _ => rfl⟩

/-- The `upd` CTE: the rows that the guarded UPDATE transitions, as its RETURNING sees
them after `set`. -/
def updated (s : Store cfg) (id : Uuid) (attempt : Int) (set : Row → Row) : List Row :=
  (s.messages.rows.filter (holds id attempt)).map set

def succeedSQL (s : Store cfg) (now : Time) (id : Uuid) (attempt : Int) (workerID : String) : Store cfg where
  messages := succeedNoHistorySQL s.messages now id attempt
  history := s.history ++ (updated s id attempt (succeedSet now)).map fun u =>
    ⟨u.id, maxSeq s.history id + 1, some .handling, .success, u.attempt, none, nullif workerID, now⟩

/-- The HANDLING to FAILED row is written whether or not the lease is still held. -/
def failedEntry (s : Store cfg) (now : Time) (id : Uuid) (attempt : Int) (error workerID : String) :
    HistoryRow :=
  ⟨id, maxSeq s.history id + 1, some .handling, .failed, attempt, nullif error, nullif workerID, now⟩

def failRetrySQL (s : Store cfg) (now : Time) (id : Uuid) (attempt : Int) (error : String)
    (nextRetryAt : Time) (workerID : String) : Store cfg where
  messages := failRetryNoHistorySQL s.messages now id attempt error nextRetryAt
  history := s.history ++ failedEntry s now id attempt error workerID ::
    (updated s id attempt (failRetrySet now error nextRetryAt)).map fun u =>
      ⟨id, (failedEntry s now id attempt error workerID).seq + 1, some .failed, .retrying, u.attempt,
        nullif error, nullif workerID, now⟩

def failDeadSQL (s : Store cfg) (now : Time) (id : Uuid) (attempt : Int) (error workerID : String) :
    Store cfg where
  messages := failDeadNoHistorySQL s.messages now id attempt error
  history := s.history ++ failedEntry s now id attempt error workerID ::
    (updated s id attempt (failDeadSet now error)).map fun u =>
      ⟨id, (failedEntry s now id attempt error workerID).seq + 1, some .failed, .dead, u.attempt,
        nullif error, nullif workerID, now⟩

def releaseShutdownSQL (s : Store cfg) (now : Time) (id : Uuid) (attempt : Int)
    (reason workerID : String) : Store cfg where
  messages := releaseShutdownNoHistorySQL s.messages now id attempt reason
  history := s.history ++ (updated s id attempt (releaseShutdownSet now reason)).map fun u =>
    ⟨u.id, maxSeq s.history id + 1, some .handling, .retrying, u.attempt, nullif reason,
      nullif workerID, now⟩

/-- One acknowledgement under the history policy, for `Succeed` and `BatchSucceed`. -/
def succeedStatement (s : Store cfg) (now : Time) (id : Uuid) (attempt : Int) (workerID : String) :
    Store cfg :=
  if cfg.historyPolicy = .off then { s with messages := succeedNoHistorySQL s.messages now id attempt }
  else succeedSQL s now id attempt workerID

def succeed (s : Store cfg) (env : Env) (id : MessageID) (attempt : Int) (workerID : String) :
    Store cfg × Option StoreError :=
  match id.parse with
  | none => (s, some (.badID "succeed"))
  | some mid => (succeedStatement s (env.now 0) mid attempt workerID, none)

def queued (params : List BatchSucceedParam) : List (Uuid × BatchSucceedParam) :=
  params.filterMap fun p => p.messageID.parse.map fun mid => (mid, p)

/-- One transaction. Malformed ids are not queued, but `Exec` is still called once for
every parameter; the surplus call errors and the transaction rolls back. -/
def batchSucceed (s : Store cfg) (env : Env) (params : List BatchSucceedParam) :
    Store cfg × Option StoreError :=
  if (queued params).length < params.length then (s, some (.sql "batch succeed exec"))
  else ((queued params).foldl (fun s q => succeedStatement s (env.now 0) q.1 q.2.attempt q.2.workerID) s,
    none)

def failStatement (s : Store cfg) (now : Time) (mid : Uuid) (p : FailParams) : Store cfg :=
  if cfg.historyPolicy = .off then
    if p.dead then { s with messages := failDeadNoHistorySQL s.messages now mid p.attempt p.err }
    else { s with messages := failRetryNoHistorySQL s.messages now mid p.attempt p.err p.nextRetryAt }
  else if p.dead then failDeadSQL s now mid p.attempt p.err p.workerID
  else failRetrySQL s now mid p.attempt p.err p.nextRetryAt p.workerID

def fail (s : Store cfg) (env : Env) (p : FailParams) : Store cfg × Option StoreError :=
  match p.messageID.parse with
  | none => (s, some (.badID "fail"))
  | some mid => (failStatement s (env.now 0) mid p, none)

def releaseStatement (s : Store cfg) (now : Time) (mid : Uuid) (attempt : Int)
    (workerID reason : String) : Store cfg :=
  if cfg.historyPolicy = .off then
    { s with messages := releaseShutdownNoHistorySQL s.messages now mid attempt reason }
  else releaseShutdownSQL s now mid attempt reason workerID

def releaseShutdown (s : Store cfg) (env : Env) (id : MessageID) (attempt : Int)
    (workerID reason : String) : Store cfg × Option StoreError :=
  match id.parse with
  | none => (s, some (.badID "release"))
  | some mid => (releaseStatement s (env.now 0) mid attempt workerID reason, none)

/-- WHERE id = $1 AND status = 'HANDLING' AND claimed_by = $2. -/
def owns (id : Uuid) (workerID : String) (row : Row) : Bool :=
  row.id = id && row.status = .handling && row.claimedBy = some workerID

def extendSet (now until_ : Time) (row : Row) : Row :=
  { row with claimedUntil := some until_, updatedAt := now }

def extendSQL (messages : Messages cfg) (now : Time) (id : Uuid) (workerID : String) (until_ : Time) :
    Messages cfg :=
  messages.update (owns id workerID) ⟨extendSet now until_, fun _ => rfl, fun _ => rfl⟩

def extend (s : Store cfg) (env : Env) (id : MessageID) (workerID : String) (until_ : Time) :
    Store cfg × Except StoreError Bool :=
  match id.parse with
  | none => (s, .error (.badID "extend"))
  | some mid =>
    ({ s with messages := extendSQL s.messages (env.now 0) mid workerID until_ },
      .ok (s.messages.rows.any (owns mid workerID)))

/-! ### Requeue, ReclaimExpired, PurgeTerminal -/

def isDead (id : Uuid) (row : Row) : Bool := row.id = id && row.status = .dead

def requeueSet (now processAt : Time) (row : Row) : Row :=
  { row with
    status := .created
    attempt := 0
    processAt := processAt
    completedAt := none
    lastError := none
    updatedAt := now }

def requeueSQL (messages : Messages cfg) (now : Time) (id : Uuid) (processAt : Time) : Messages cfg :=
  messages.update (isDead id) ⟨requeueSet now processAt, fun _ => rfl, fun _ => rfl⟩

def requeue (s : Store cfg) (env : Env) (id : MessageID) (processAt : Option Time) :
    Store cfg × Option StoreError :=
  match id.parse with
  | none => (s, some (.badID "requeue"))
  | some mid =>
    if s.messages.rows.any (isDead mid) then
      (⟨requeueSQL s.messages (env.now 0) mid (processAt.getD (env.clock 0)),
        appendHistorySQL s.history (env.now 1) mid (some .dead) .created 0 "manual requeue" ""⟩, none)
    else (s, some .notDead)

def expired (env : Env) (row : Row) : Bool :=
  row.status = .handling && row.claimedUntil.any (fun t => t < env.now 0) && !env.locked 0 row.id

def reclaimSet (now : Time) (row : Row) : Row :=
  { row with
    status := .retrying
    claimedUntil := none
    claimedBy := none
    lastError := some (row.lastError.getD "" ++ " [lease expired]")
    processAt := now
    updatedAt := now }

def reclaimChosen (messages : Messages cfg) (env : Env) (limit : Nat) : List Uuid :=
  (((env.scan.visit messages.rows).filter (expired env)).take limit).map Row.id

def reclaimSQL (messages : Messages cfg) (env : Env) (limit : Nat) : Messages cfg :=
  messages.update (fun row => row.id ∈ reclaimChosen messages env limit)
    ⟨reclaimSet (env.now 0), fun _ => rfl, fun _ => rfl⟩

def reclaimExpired (s : Store cfg) (env : Env) (limit : Int) : Store cfg × Nat :=
  ({ s with messages := reclaimSQL s.messages env (limitOr 500 limit) },
    (reclaimChosen s.messages env (limitOr 500 limit)).length)

/-- ORDER BY completed_at, with ties in scan order. -/
def completedOrder (a b : Row) : Prop := a.completedAt.getD 0 ≤ b.completedAt.getD 0

instance : DecidableRel completedOrder := fun _ _ => inferInstanceAs (Decidable (_ ≤ _))

def purgeChosen (messages : Messages cfg) (env : Env) (before : Time) (limit : Nat) : List Uuid :=
  ((((env.scan.visit messages.rows).filter (purgeable before)).insertionSort completedOrder).take
    limit).map Row.id

def purgeSQL (messages : Messages cfg) (env : Env) (before : Time) (limit : Nat) : Messages cfg :=
  messages.delete (fun row => row.id ∈ purgeChosen messages env before limit)

def purgeTerminal (s : Store cfg) (env : Env) (before : Time) (limit : Int) : Store cfg × Nat :=
  ({ s with messages := purgeSQL s.messages env before (limitOr 5000 limit) },
    (purgeChosen s.messages env before (limitOr 5000 limit)).length)

/-- ORDER BY at. -/
def historyOrder (a b : HistoryRow) : Prop := a.time ≤ b.time

instance : DecidableRel historyOrder := fun _ _ => inferInstanceAs (Decidable (_ ≤ _))

def purgeHistoryChosen (history : List HistoryRow) (scan : Scan HistoryRow) (before : Time) (limit : Nat) :
    List (Uuid × Nat) :=
  ((((scan.visit history).filter fun h => h.time < before).insertionSort historyOrder).take limit).map
    fun h => (h.messageID, h.seq)

/-- `PurgeHistory` of the optional HistoryPurger interface, with the rows it affects. -/
def purgeHistory (s : Store cfg) (scan : Scan HistoryRow) (before : Time) (limit : Int) : Store cfg × Nat :=
  let chosen := purgeHistoryChosen s.history scan before (limitOr 5000 limit)
  ({ s with history := s.history.filter fun h => !decide ((h.messageID, h.seq) ∈ chosen) },
    (s.history.filter fun h => decide ((h.messageID, h.seq) ∈ chosen)).length)

/-! ### The adapter as an implementation of the storage interface -/

def exec (s : Store cfg) (env : Env) : Call → Store cfg × Reply
  | .enqueue p => let r := enqueue s env p; (r.1, .message r.2.1 r.2.2)
  | .enqueueBatch ps => let r := enqueueBatch s env ps; (r.1, .batch r.2.1 r.2.2)
  | .claim p => let r := claim s env p; (r.1, .messages r.2)
  | .succeed id attempt workerID => let r := succeed s env id attempt workerID; (r.1, .unit r.2)
  | .batchSucceed params => let r := batchSucceed s env params; (r.1, .unit r.2)
  | .fail p => let r := fail s env p; (r.1, .unit r.2)
  | .releaseShutdown id attempt workerID reason =>
    let r := releaseShutdown s env id attempt workerID reason; (r.1, .unit r.2)
  | .extend id workerID until_ => let r := extend s env id workerID until_; (r.1, .extended r.2)
  | .requeue id processAt => let r := requeue s env id processAt; (r.1, .unit r.2)
  | .reclaimExpired limit => let r := reclaimExpired s env limit; (r.1, .count r.2)
  | .purgeTerminal before limit => let r := purgeTerminal s env before limit; (r.1, .count r.2)

end Tickr.Postgres
