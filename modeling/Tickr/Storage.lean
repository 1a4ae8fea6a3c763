import Tickr.KeyedTable
import Tickr.Message

/-! The storage interface: one constructor for each call that reads or writes the message
table, and what a call takes from outside its arguments. -/
namespace Tickr

/-- `payload = none` is the nil slice, `processAt = none` the zero time. -/
structure EnqueueParams where
  eventType : String
  payload : Option Payload
  headers : Headers
  idempotencyKey : String
  maxAttempts : Int
  processAt : Option Time
  deriving DecidableEq, Repr

structure ClaimParams where
  workerID : String
  batch : Int
  lease : Duration
  eventTypes : List String
  deriving DecidableEq, Repr

structure FailParams where
  messageID : MessageID
  attempt : Int
  workerID : String
  err : String
  nextRetryAt : Time
  dead : Bool
  deriving DecidableEq, Repr

structure BatchSucceedParam where
  messageID : MessageID
  attempt : Int
  workerID : String
  deriving DecidableEq, Repr

structure ErrDuplicate where
  existingID : MessageID
  eventType : String
  key : String
  deriving DecidableEq, Repr

inductive StoreError where
  | badID (operation : String)
  | sql (operation : String)
  | noRows (operation : String)
  | duplicate (err : ErrDuplicate)
  | notDead
  deriving DecidableEq, Repr

def isDuplicate : StoreError → Bool
  | .duplicate _ => true
  | _ => false

inductive Call where
  | enqueue (p : EnqueueParams)
  | enqueueBatch (ps : List EnqueueParams)
  | claim (p : ClaimParams)
  | succeed (id : MessageID) (attempt : Int) (workerID : String)
  | batchSucceed (params : List BatchSucceedParam)
  | fail (p : FailParams)
  | releaseShutdown (id : MessageID) (attempt : Int) (workerID reason : String)
  | extend (id : MessageID) (workerID : String) (until_ : Time)
  | requeue (id : MessageID) (processAt : Option Time)
  | reclaimExpired (limit : Int)
  | purgeTerminal (before : Time) (limit : Int)
  deriving DecidableEq, Repr

/-- The calls that do not report on a claim. -/
inductive Operation where
  | enqueue (p : EnqueueParams)
  | enqueueBatch (ps : List EnqueueParams)
  | claim (p : ClaimParams)
  | extend (id : MessageID) (workerID : String) (until_ : Time)
  | requeue (id : MessageID) (processAt : Option Time)
  | reclaimExpired (limit : Int)
  | purgeTerminal (before : Time) (limit : Int)
  deriving DecidableEq, Repr

def Operation.call : Operation → Call
  | .enqueue p => .enqueue p
  | .enqueueBatch ps => .enqueueBatch ps
  | .claim p => .claim p
  | .extend id workerID until_ => .extend id workerID until_
  | .requeue id processAt => .requeue id processAt
  | .reclaimExpired limit => .reclaimExpired limit
  | .purgeTerminal before limit => .purgeTerminal before limit

/-- The completion writes, up to the claim that they report on. -/
inductive Completion where
  | succeed
  | batchSucceed
  | fail (err : String) (nextRetryAt : Time) (dead : Bool)
  | releaseShutdown (reason : String)
  deriving DecidableEq, Repr

def Completion.call (id : MessageID) (attempt : Int) (workerID : String) : Completion → Call
  | .succeed => .succeed id attempt workerID
  | .batchSucceed => .batchSucceed [⟨id, attempt, workerID⟩]
  | .fail err nextRetryAt dead => .fail ⟨id, attempt, workerID, err, nextRetryAt, dead⟩
  | .releaseShutdown reason => .releaseShutdown id attempt workerID reason

inductive Reply where
  | unit (err : Option StoreError)
  | message (msg : Option InboundMessage) (err : Option StoreError)
  | messages (msgs : List InboundMessage)
  | batch (msgs : List (Option InboundMessage)) (err : Option StoreError)
  | extended (result : Except StoreError Bool)
  | count (n : Nat)

/-- What one call takes from the database and its own process. The statements of a call
are numbered: each has its own `now()` and its own set of rows that other transactions
hold locked, so a later statement of the call may see a later database. The readings of
the process clock and the generated ids and shards are numbered too. -/
structure Env where
  now : Nat → Time
  clock : Nat → Time
  newID : Nat → Uuid
  pickShard : Nat → Int
  locked : Nat → Uuid → Bool
  scan : KeyedTable.Scan Row

/-- An undisturbed call at one instant, generating ids from `first` on. -/
def Env.quiet (time : Time) (first : Uuid) : Env where
  now := fun _ => time
  clock := fun _ => time
  newID := fun i => first + i
  pickShard := fun _ => 0
  locked := fun _ _ => false
  scan := KeyedTable.Scan.physical Row

/-- The same call with all its statements at `now`. -/
def Env.stamped (now : Time) (env : Env) : Env := { env with now := fun _ => now }

/-- The ids that a call inserts rows under, if it inserts them. -/
def generated (env : Env) : Operation → List Uuid
  | .enqueue _ => [env.newID 0]
  | .enqueueBatch ps => (List.range ps.length).map env.newID
  | _ => []

/-- A keyless message of type `kind` that is due at once. -/
def plainParams (kind : String) (maxAttempts : Int) : EnqueueParams :=
  ⟨kind, some [], [], "", maxAttempts, some 0⟩

/-! ### What both SQL adapters do alike -/

def nullif (text : String) : Option String := if text = "" then none else some text

/-- The row of an INSERT at the database time `now` and the process time `clock`. A nil
payload is sent as NULL, which no adapter gets into its table. -/
def insertedRow (id : Uuid) (shard : Int) (now clock : Time) (p : EnqueueParams) : Row where
  id := id
  eventType := p.eventType
  payload := p.payload.getD []
  headers := p.headers
  idempotencyKey := nullif p.idempotencyKey
  status := .created
  attempt := 0
  maxAttempts := if p.maxAttempts ≤ 0 then 10 else p.maxAttempts
  processAt := p.processAt.getD clock
  shard := shard
  claimedUntil := none
  claimedBy := none
  lastError := none
  createdAt := now
  updatedAt := now
  completedAt := none

def fitsInt4 (n : Int) : Bool := n ≤ 2147483647

def duplicateOf (existing : Row) (p : EnqueueParams) : StoreError :=
  .duplicate ⟨.uuid existing.id, p.eventType, p.idempotencyKey⟩

/-- ORDER BY process_at, id. -/
def claimOrder (a b : Row) : Prop := a.processAt < b.processAt ∨ a.processAt = b.processAt ∧ a.id ≤ b.id

instance : DecidableRel claimOrder := fun _ _ => inferInstanceAs (Decidable (_ ∨ _ ∧ _))

def limitOr (default : Nat) (limit : Int) : Nat := if limit ≤ 0 then default else limit.toNat

theorem limitOr_pos {default : Nat} (positive : 0 < default) (limit : Int) : 0 < limitOr default limit := by
  unfold limitOr
  split <;> omega

/-- status IN ('SUCCESS','DEAD') AND completed_at < $1; a null completed_at never compares. -/
def purgeable (before : Time) (row : Row) : Bool :=
  row.status.terminal && row.completedAt.any (fun t => t < before)

theorem purgeable_iff {before : Time} {r : Row} : purgeable before r = true ↔
    r.status.terminal = true ∧ ∃ t, r.completedAt = some t ∧ t < before := by
  simp [purgeable, Option.any_eq_true]

/-! ### Counting the attempts of one message -/

def Reply.returns (id : Uuid) : Reply → Bool
  | .messages msgs => msgs.any fun m => m.id = .uuid id
  | _ => false

/-- The claims that returned the message and the releases that changed it. -/
structure Tally where
  claims : Nat
  releases : Nat
  deriving DecidableEq, Repr

/-- Both are counted from the insertion of the row or its last effective Requeue. -/
def Tally.count (t : Tally) (id : Uuid) (call : Call) (reply : Reply) (changed : Bool) : Tally :=
  match call with
  | .claim _ => if reply.returns id then { t with claims := t.claims + 1 } else t
  | .releaseShutdown _ _ _ _ => if changed then { t with releases := t.releases + 1 } else t
  | .requeue _ _ | .enqueue _ | .enqueueBatch _ => if changed then ⟨0, 0⟩ else t
  | _ => t

theorem Tally.count_unchanged {t : Tally} {id : Uuid} {call : Call} {reply : Reply}
    (other : ∀ p, call ≠ .claim p) : t.count id call reply false = t := by
  cases call with
  | claim p => exact absurd rfl (other p)
  | _ => rfl

end Tickr
