import Tickr.Storage

/-! The MySQL adapter. Its completion writes are transactions of one guarded UPDATE and one
history INSERT; the guards of the single calls compare the claimant, that of the batch
compares the attempt. Columns hold wall-clock values without a zone: the driver writes in
UTC, CURRENT_TIMESTAMP yields the session's own time. Texts compare under the collation
of the tables. -/
namespace Tickr.Mysql

open KeyedTable

/-- What the schema and the session settle: the comparison key of a text, which texts the
character set of the tables has, and the distance of the session's time zone from UTC. A Go
string may be any bytes; all that is asked of the character set is ASCII. -/
structure Config where
  collate : String → String
  encodes : String → Bool
  ascii : ∀ text, (text.toList.all fun c => c.val < 128) = true → encodes text = true
  offset : Duration

/-- Texts compare as they are, and the session is in UTC. -/
def Config.binary : Config := ⟨id, fun _ => true, fun _ _ => rfl, 0⟩

def Config.same (cfg : Config) (a b : String) : Bool := cfg.collate a = cfg.collate b

/-- The unique key on (event_type, idempotency_key); a null key is distinct from any other. -/
def idemIndex (cfg : Config) (row : Row) : Option (String × String) :=
  row.idempotencyKey.map fun key => (cfg.collate row.eventType, cfg.collate key)

abbrev Messages (cfg : Config) := Table Row.id (idemIndex cfg)

/-- A row of `tickr_history`. The id is whatever text the caller passed. -/
structure HistoryRow where
  messageID : MessageID
  seq : Nat
  fromStatus : Status
  toStatus : Status
  attempt : Int
  error : Option String
  workerID : String
  time : Time
  deriving DecidableEq, Repr

structure Store (cfg : Config) where
  messages : Messages cfg
  history : List HistoryRow

variable {cfg : Config}

def Store.empty : Store cfg := ⟨KeyedTable.empty, []⟩

def Store.row (s : Store cfg) (id : Uuid) : Option Row := s.messages.find? id

/-- CURRENT_TIMESTAMP(6). -/
def timestamp (cfg : Config) (env : Env) (statement : Nat) : Time := env.now statement + cfg.offset

/-- The status column is read but not copied. -/
def scanMessage (row : Row) : InboundMessage := row.inbound none

/-! ### Enqueue -/

/-- VARCHAR(255) counts characters; strict mode refuses a longer text. -/
def fitsVarchar (cfg : Config) (text : String) : Bool := cfg.encodes text && text.length ≤ 255

/-- What the columns take of a request: a payload that is not NULL, a limit within INT and
texts within VARCHAR(255). The headers are JSON of the encoder's making. -/
def fitsColumns (cfg : Config) (p : EnqueueParams) : Bool :=
  p.payload.isSome && fitsInt4 p.maxAttempts && fitsVarchar cfg p.eventType && fitsVarchar cfg p.idempotencyKey

theorem fitsVarchar_ascii (cfg : Config) {text : String} (ascii : (text.toList.all fun c => c.val < 128) = true)
    (short : text.length ≤ 255) : fitsVarchar cfg text = true := by
  simp [fitsVarchar, cfg.ascii text ascii, short]

theorem fitsColumns_plain (cfg : Config) {kind : String} {limit : Int}
    (ascii : (kind.toList.all fun c => c.val < 128) = true) (short : kind.length ≤ 255)
    (fits : fitsInt4 limit = true) : fitsColumns cfg (plainParams kind limit) = true := by
  have keyless : fitsVarchar cfg "" = true := fitsVarchar_ascii cfg (by decide) (by decide)
  simp [fitsColumns, plainParams, fits, fitsVarchar_ascii cfg ascii short, keyless]

def enqueueRow (cfg : Config) (env : Env) (i : Nat) (p : EnqueueParams) : Row :=
  insertedRow (env.newID i) (env.pickShard i) (timestamp cfg env i) (env.clock i) p

def findByIdempotency (s : Store cfg) (env : Env) (eventType key : String) : Option Row :=
  (env.scan.visit s.messages.rows).find? fun row =>
    cfg.same row.eventType eventType && row.idempotencyKey.any (cfg.same key)

/-- The `i`-th insert of a call. Both unique constraints report errno 1062. -/
def enqueue (s : Store cfg) (env : Env) (i : Nat) (p : EnqueueParams) :
    Store cfg × Option InboundMessage × Option StoreError :=
  let row := enqueueRow cfg env i p
  if fitsColumns cfg p then
    match s.messages.insert row with
    | .inserted messages => ({ s with messages }, some (scanMessage row), none)
    | .duplicateKey | .conflict =>
      if p.idempotencyKey = "" then (s, none, some (.sql "enqueue"))
      else match findByIdempotency s env p.eventType p.idempotencyKey with
        | some existing => (s, some (scanMessage existing), some (duplicateOf existing p))
        | none => (s, none, some (.noRows "fetch by idempotency key"))
  else (s, none, some (.sql "enqueue"))

/-- One insert after the other; a failed item leaves a gap and the rest goes on. -/
def enqueueBatch (s : Store cfg) (env : Env) :
    Nat → List EnqueueParams → Store cfg × List (Option InboundMessage) × Option StoreError
  | _, [] => (s, [], none)
  | i, p :: rest =>
    let first := enqueue s env i p
    let later := enqueueBatch first.1 env (i + 1) rest
    match first.2.2 with
    | some err =>
      if isDuplicate err then (later.1, first.2.1 :: later.2.1, later.2.2)
      else (later.1, none :: later.2.1, some err)
    | none => (later.1, first.2.1 :: later.2.1, later.2.2)

/-! ### History -/

def maxSeq (history : List HistoryRow) (id : MessageID) : Nat :=
  (history.filter (fun h => h.messageID = id)).foldl (fun highest h => max highest h.seq) 0

/-- CHAR(36), which holds the text of a UUID. -/
def fitsID (cfg : Config) : MessageID → Bool
  | .uuid _ => true
  | .malformed text => cfg.encodes text && text.length ≤ 36

/-- TEXT counts bytes. -/
def fitsText (cfg : Config) (text : String) : Bool := cfg.encodes text && text.utf8ByteSize ≤ 65535

def fitsHistory (cfg : Config) (id : MessageID) (attempt : Int) (errStr workerID : String) : Bool :=
  fitsID cfg id && -2147483648 ≤ attempt && fitsInt4 attempt && fitsText cfg errStr && fitsVarchar cfg workerID

/-- The error of the INSERT is dropped, and the transaction goes on without the row. -/
def appendHistory (cfg : Config) (history : List HistoryRow) (now : Time) (id : MessageID)
    (fromStatus toStatus : Status) (attempt : Int) (errStr workerID : String) : List HistoryRow :=
  if fitsHistory cfg id attempt errStr workerID then
    history ++ [⟨id, maxSeq history id + 1, fromStatus, toStatus, attempt, nullif errStr, workerID, now⟩]
  else history

/-! ### Claim -/

def eligible (cfg : Config) (env : Env) (pass : Nat) (eventTypes : List String) (shard : Option Int)
    (row : Row) : Bool :=
  row.status.pending && shard.all (fun s => row.shard = s) && eventTypes.any (cfg.same row.eventType) &&
    row.processAt ≤ env.clock pass && !env.locked pass row.id

/-- One SELECT ... FOR UPDATE SKIP LOCKED. -/
def selectClaimIDs (messages : Messages cfg) (env : Env) (pass : Nat) (eventTypes : List String)
    (batch : Nat) (shard : Option Int) : List Uuid :=
  (((messages.rows.filter (eligible cfg env pass eventTypes shard)).insertionSort claimOrder).take
    batch).map Row.id

def claimIDs (messages : Messages cfg) (env : Env) (p : ClaimParams) : List Uuid :=
  let first := selectClaimIDs messages env 0 p.eventTypes (limitOr 100 p.batch) (some (env.pickShard 0))
  if first = [] then selectClaimIDs messages env 1 p.eventTypes (limitOr 100 p.batch) none else first

def claimSet (now : Time) (workerID : String) (until_ : Time) (row : Row) : Row :=
  { row with
    status := .handling
    attempt := row.attempt + 1
    claimedBy := some workerID
    claimedUntil := some until_
    updatedAt := now }

def claim (s : Store cfg) (env : Env) (p : ClaimParams) : Store cfg × List InboundMessage :=
  if p.eventTypes = [] then (s, [])
  else
    let ids := claimIDs s.messages env p
    if ids = [] then (s, [])
    else
      let messages := s.messages.update (fun row => row.id ∈ ids)
        ⟨claimSet (timestamp cfg env 2) p.workerID (env.clock 2 + p.lease), fun _ => rfl, fun _ => rfl⟩
      let out := (messages.select env.scan ids).map scanMessage
      let history := out.foldl (fun history m =>
        appendHistory cfg history (timestamp cfg env 3) m.id .handling .handling m.attempt "" p.workerID) s.history
      (⟨messages, history⟩, out)

/-! ### Succeed, Fail, ReleaseShutdown, Extend -/

/-- WHERE id=? AND status='HANDLING' AND attempt=?. -/
def holdsAttempt (id : MessageID) (attempt : Int) (row : Row) : Bool :=
  id = .uuid row.id && row.status = .handling && row.attempt = attempt

/-- WHERE id=? AND status='HANDLING' AND claimed_by=?. -/
def holdsClaim (cfg : Config) (id : MessageID) (workerID : String) (row : Row) : Bool :=
  id = .uuid row.id && row.status = .handling && row.claimedBy.any (cfg.same workerID)

/-- Claimant, lease and last error stay on the row. -/
def succeedSet (now : Time) (row : Row) : Row :=
  { row with
    status := .success
    completedAt := some now
    updatedAt := now }

def failDeadSet (now : Time) (error : String) (row : Row) : Row :=
  { row with
    status := .dead
    completedAt := some now
    lastError := some error
    updatedAt := now }

def failRetrySet (now : Time) (error : String) (nextRetryAt : Time) (row : Row) : Row :=
  { row with
    status := .retrying
    processAt := nextRetryAt
    lastError := some error
    claimedBy := none
    claimedUntil := none
    updatedAt := now }

/-- Assignments are evaluated from left to right, so the status still sees the old counter. -/
def releaseShutdownSet (now : Time) (row : Row) : Row :=
  { row with
    status := if row.attempt > 1 then .retrying else .created
    attempt := max (row.attempt - 1) 0
    claimedBy := none
    claimedUntil := none
    updatedAt := now }

def batchSucceed (s : Store cfg) (env : Env) (params : List BatchSucceedParam) : Store cfg :=
  params.foldl (fun s p =>
    ⟨s.messages.update (holdsAttempt p.messageID p.attempt)
        ⟨succeedSet (timestamp cfg env 0), fun _ => rfl, fun _ => rfl⟩,
      appendHistory cfg s.history (timestamp cfg env 0) p.messageID .handling .success p.attempt "" p.workerID⟩) s

def succeed (s : Store cfg) (env : Env) (id : MessageID) (attempt : Int) (workerID : String) : Store cfg where
  messages := s.messages.update (holdsClaim cfg id workerID)
    ⟨succeedSet (timestamp cfg env 0), fun _ => rfl, fun _ => rfl⟩
  history := appendHistory cfg s.history (timestamp cfg env 1) id .handling .success attempt "" workerID

/-- Strict mode refuses a value only where the UPDATE finds a row to put it in. -/
def refuses (s : Store cfg) (guard : Row → Bool) (fits : Bool) : Bool := s.messages.rows.any guard && !fits

/-- The UPDATE is an error. The driver writes the zero time as a date that strict mode refuses. -/
def failRefused (s : Store cfg) (p : FailParams) : Bool :=
  refuses s (holdsClaim cfg p.messageID p.workerID) (fitsText cfg p.err && (p.dead || p.nextRetryAt ≠ Time.zero))

def fail (s : Store cfg) (env : Env) (p : FailParams) : Store cfg × Option StoreError :=
  if failRefused s p then (s, some (.sql (if p.dead then "fail->dead" else "fail->retry")))
  else if p.dead then
    (⟨s.messages.update (holdsClaim cfg p.messageID p.workerID)
        ⟨failDeadSet (timestamp cfg env 0) p.err, fun _ => rfl, fun _ => rfl⟩,
      appendHistory cfg s.history (timestamp cfg env 1) p.messageID .handling .dead p.attempt p.err p.workerID⟩, none)
  else
    (⟨s.messages.update (holdsClaim cfg p.messageID p.workerID)
        ⟨failRetrySet (timestamp cfg env 0) p.err p.nextRetryAt, fun _ => rfl, fun _ => rfl⟩,
      appendHistory cfg s.history (timestamp cfg env 1) p.messageID .handling .retrying p.attempt p.err p.workerID⟩, none)

def releaseShutdown (s : Store cfg) (env : Env) (id : MessageID) (attempt : Int)
    (workerID reason : String) : Store cfg where
  messages := s.messages.update (holdsClaim cfg id workerID)
    ⟨releaseShutdownSet (timestamp cfg env 0), fun _ => rfl, fun _ => rfl⟩
  history := appendHistory cfg s.history (timestamp cfg env 1) id .handling .retrying attempt reason workerID

def extendSet (now until_ : Time) (row : Row) : Row :=
  { row with claimedUntil := some until_, updatedAt := now }

/-- RowsAffected counts the rows that came out different. -/
def extend (s : Store cfg) (env : Env) (id : MessageID) (workerID : String) (until_ : Time) :
    Store cfg × Bool :=
  (⟨s.messages.update (holdsClaim cfg id workerID)
      ⟨extendSet (timestamp cfg env 0) until_, fun _ => rfl, fun _ => rfl⟩, s.history⟩,
    s.messages.rows.any fun row => holdsClaim cfg id workerID row && extendSet (timestamp cfg env 0) until_ row ≠ row)

/-! ### Requeue, ReclaimExpired, PurgeTerminal -/

def isDead (id : MessageID) (row : Row) : Bool := id = .uuid row.id && row.status = .dead

def requeueSet (now processAt : Time) (row : Row) : Row :=
  { row with
    status := .created
    attempt := 0
    claimedBy := none
    claimedUntil := none
    completedAt := none
    processAt := processAt
    lastError := none
    updatedAt := now }

/-- The UPDATE is an error, for the zero time as in a Fail. -/
def requeueRefused (s : Store cfg) (id : MessageID) (processAt : Option Time) : Bool :=
  refuses s (isDead id) processAt.isSome

def requeue (s : Store cfg) (env : Env) (id : MessageID) (processAt : Option Time) :
    Store cfg × Option StoreError :=
  if requeueRefused s id processAt then (s, some (.sql "requeue"))
  else
    (⟨s.messages.update (isDead id)
        ⟨requeueSet (timestamp cfg env 0) (processAt.getD Time.zero), fun _ => rfl, fun _ => rfl⟩,
      appendHistory cfg s.history (timestamp cfg env 1) id .dead .created 0 "admin requeue" ""⟩, none)

def expired (cfg : Config) (env : Env) (row : Row) : Bool :=
  row.status = .handling && row.claimedUntil.any (fun t => t < timestamp cfg env 0)

def reclaimSet (now : Time) (row : Row) : Row :=
  { row with
    status := .retrying
    processAt := now
    claimedBy := none
    claimedUntil := none
    lastError := some (row.lastError.getD "lease expired")
    updatedAt := now }

def reclaimChosen (messages : Messages cfg) (env : Env) (limit : Nat) : List Uuid :=
  (((env.scan.visit messages.rows).filter (expired cfg env)).take limit).map Row.id

def reclaimExpired (s : Store cfg) (env : Env) (limit : Int) : Store cfg × Nat :=
  let ids := reclaimChosen s.messages env (limitOr 500 limit)
  (⟨s.messages.update (fun row => row.id ∈ ids)
      ⟨reclaimSet (timestamp cfg env 0), fun _ => rfl, fun _ => rfl⟩, s.history⟩, ids.length)

def purgeChosen (messages : Messages cfg) (env : Env) (before : Time) (limit : Nat) : List Uuid :=
  (((env.scan.visit messages.rows).filter (purgeable before)).take limit).map Row.id

def purgeTerminal (s : Store cfg) (env : Env) (before : Time) (limit : Int) : Store cfg × Nat :=
  let ids := purgeChosen s.messages env before (limitOr 5000 limit)
  ({ s with messages := s.messages.delete (fun row => row.id ∈ ids) }, ids.length)

/-! ### The adapter as an implementation of the storage interface -/

def exec (s : Store cfg) (env : Env) : Call → Store cfg × Reply
  | .enqueue p => let r := enqueue s env 0 p; (r.1, .message r.2.1 r.2.2)
  | .enqueueBatch ps => let r := enqueueBatch s env 0 ps; (r.1, .batch r.2.1 r.2.2)
  | .claim p => let r := claim s env p; (r.1, .messages r.2)
  | .succeed id attempt workerID => (succeed s env id attempt workerID, .unit none)
  | .batchSucceed params => (batchSucceed s env params, .unit none)
  | .fail p => let r := fail s env p; (r.1, .unit r.2)
  | .releaseShutdown id attempt workerID reason =>
    (releaseShutdown s env id attempt workerID reason, .unit none)
  | .extend id workerID until_ => let r := extend s env id workerID until_; (r.1, .extended (.ok r.2))
  | .requeue id processAt => let r := requeue s env id processAt; (r.1, .unit r.2)
  | .reclaimExpired limit => let r := reclaimExpired s env limit; (r.1, .count r.2)
  | .purgeTerminal before limit => let r := purgeTerminal s env before limit; (r.1, .count r.2)

end Tickr.Mysql
