import Mathlib.Algebra.Group.Int.Defs
import Mathlib.Tactic.Common

/-! Messages and their stored rows. Times and durations are integers in nanoseconds, at
the resolution of the database; column widths are not modelled except where an INSERT
meets them. -/
namespace Tickr

abbrev Uuid := Nat
abbrev Time := Int
abbrev Duration := Int
abbrev Payload := List UInt8
/-- The entries of a header map. Its texts are valid UTF-8, as `json.Marshal` keeps no others: it
writes U+FFFD for every byte that is part of no character. -/
abbrev Headers := List (String × String)

def Duration.millisecond : Duration := 1000000
def Duration.second : Duration := 1000 * Duration.millisecond
def Duration.minute : Duration := 60 * Duration.second
def Duration.hour : Duration := 3600 * Duration.second
def Duration.day : Duration := 24 * Duration.hour

def int64 (n : Int) : Prop := -2 ^ 63 ≤ n ∧ n < 2 ^ 63

/-- The zero value, January 1 of the year 1. -/
def Time.zero : Time := -62135596800 * Duration.second

/-- The text of an id, up to the UUID that it parses to. -/
inductive MessageID where
  | uuid (id : Uuid)
  | malformed (text : String)
  deriving DecidableEq, Repr

def MessageID.parse : MessageID → Option Uuid
  | .uuid id => some id
  | .malformed _ => none

@[simp] theorem MessageID.parse_eq_some {id : MessageID} {u : Uuid} :
    id.parse = some u ↔ id = .uuid u := by
  cases id <;> simp [MessageID.parse]

inductive Status where
  | created
  | handling
  | success
  | failed
  | retrying
  | dead
  deriving DecidableEq, Repr

def Status.terminal (s : Status) : Bool := s = .success || s = .dead

/-- The two states that a claim may take a row from. -/
def Status.pending (s : Status) : Bool := s = .created || s = .retrying

theorem Status.pending_iff {s : Status} : s.pending = true ↔ s = .created ∨ s = .retrying := by
  simp [Status.pending]

theorem Status.pending_idle {s : Status} (pending : s.pending = true) : s ≠ .handling := by
  rintro rfl
  cases pending

theorem Status.pending_open {s : Status} (pending : s.pending = true) : s.terminal = false := by
  rcases Status.pending_iff.mp pending with rfl | rfl <;> rfl

theorem Status.terminal_idle {s : Status} (terminal : s.terminal = true) : s ≠ .handling := by
  rintro rfl
  cases terminal

/-- What a producer supplies. `payload = none` is the nil slice, `scheduledAt = none` the
zero time. -/
structure Message where
  type : String
  payload : Option Payload
  headers : Headers
  idempotencyKey : String
  scheduledAt : Option Time
  maxAttempts : Int
  deriving DecidableEq, Repr

/-- The read side. `status = none` is the empty text. -/
structure InboundMessage where
  id : MessageID
  type : String
  payload : Payload
  headers : Headers
  idempotencyKey : String
  attempt : Int
  maxAttempts : Int
  enqueuedAt : Time
  scheduledAt : Time
  lastError : String
  status : Option Status
  deriving DecidableEq, Repr

/-- A row of `tickr_messages`. -/
structure Row where
  id : Uuid
  eventType : String
  payload : Payload
  headers : Headers
  idempotencyKey : Option String
  status : Status
  attempt : Int
  maxAttempts : Int
  processAt : Time
  shard : Int
  claimedUntil : Option Time
  claimedBy : Option String
  lastError : Option String
  createdAt : Time
  updatedAt : Time
  completedAt : Option Time
  deriving DecidableEq, Repr

theorem moved_of_status {r r' : Row} (moved : r'.status ≠ r.status) : decide (some r ≠ some r') = true := by
  rw [decide_eq_true_eq]
  intro same
  exact moved (congrArg Row.status (Option.some.inj same)).symm

/-- A row of `tickr_history`. -/
structure HistoryRow where
  messageID : Uuid
  seq : Nat
  fromStatus : Option Status
  toStatus : Status
  attempt : Int
  error : Option String
  workerID : Option String
  time : Time
  deriving DecidableEq, Repr

/-- A scanned row, under the status that the adapter reports. -/
def Row.inbound (row : Row) (status : Option Status) : InboundMessage where
  id := .uuid row.id
  type := row.eventType
  payload := row.payload
  headers := row.headers
  idempotencyKey := row.idempotencyKey.getD ""
  attempt := row.attempt
  maxAttempts := row.maxAttempts
  enqueuedAt := row.createdAt
  scheduledAt := row.processAt
  lastError := row.lastError.getD ""
  status := status

/-- The columns that only an INSERT writes. -/
structure Identity where
  id : Uuid
  eventType : String
  payload : Payload
  headers : Headers
  idempotencyKey : Option String
  maxAttempts : Int
  shard : Int
  createdAt : Time
  deriving DecidableEq, Repr

def Row.identity (row : Row) : Identity :=
  ⟨row.id, row.eventType, row.payload, row.headers, row.idempotencyKey, row.maxAttempts,
    row.shard, row.createdAt⟩

end Tickr
