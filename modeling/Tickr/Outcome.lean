import Tickr.Errors
import Tickr.Storage

/-! From what a handler returned to the write that ends the attempt. -/
namespace Tickr

/-! ### Registrations -/

/-- The options that decide between retry and dead letter, and how messages are grouped.
The retry policy is an interface; what it computes enters `commitOutcome` as a value. -/
structure HandlerConfig where
  maxAttempts : Int
  maxInflight : Int
  maxBatchSize : Int
  deadLetterIf : Option (GoError → Bool)

inductive HandlerOption where
  | withMaxAttempts (n : Int)
  | withMaxInflight (n : Int)
  | withMaxBatchSize (n : Int)
  | withDeadLetterIf (pred : GoError → Bool)

def HandlerOption.apply (cfg : HandlerConfig) : HandlerOption → HandlerConfig
  | .withMaxAttempts n => { cfg with maxAttempts := n }
  | .withMaxInflight n => { cfg with maxInflight := n }
  | .withMaxBatchSize n => { cfg with maxBatchSize := n }
  | .withDeadLetterIf pred => { cfg with deadLetterIf := some pred }

structure Registration where
  batch : Bool
  cfg : HandlerConfig

/-- One registration for each event type, none under the empty one. -/
structure Registry where
  entries : List (String × Registration)
  distinct : (entries.map Prod.fst).Nodup
  named : ∀ entry ∈ entries, entry.1 ≠ ""

def newRegistry : Registry := ⟨[], List.nodup_nil, by simp⟩

inductive RegisterError where
  | emptyType
  | alreadyRegistered (eventType : String)
  deriving DecidableEq, Repr

/-- `On` and `OnBatch` with a non-nil handler. -/
def Registry.register (r : Registry) (eventType : String) (batch : Bool) (opts : List HandlerOption) :
    Except RegisterError Registry :=
  if empty : eventType = "" then .error .emptyType
  else if taken : eventType ∈ r.entries.map Prod.fst then .error (.alreadyRegistered eventType)
  else .ok
    { entries := r.entries ++ [(eventType, ⟨batch, opts.foldl HandlerOption.apply ⟨10, 0, 0, none⟩⟩)]
      distinct := by
        rw [List.map_append]
        exact r.distinct.append (List.nodup_singleton _) (by simpa using taken)
      named := by
        intro entry member
        rcases List.mem_append.mp member with old | new
        · exact r.named entry old
        · rw [List.mem_singleton.mp new]
          exact empty }

def Registry.eventTypes (r : Registry) : List String := r.entries.map Prod.fst

def Registry.lookup (r : Registry) (eventType : String) : Option Registration :=
  (r.entries.find? fun entry => entry.1 = eventType).map Prod.snd

/-! ### Outcomes -/

inductive Outcome where
  | success
  | retry
  | dead
  | canceled
  deriving DecidableEq, Repr

def resolveOutcome (ctxDone stopping : Bool) : Option GoError → Outcome
  | none => .success
  | some err =>
    if isSkip err then .success
    else if err.isCanceled && ctxDone && stopping then .canceled
    else .retry

def effectiveMaxAttempts (m : InboundMessage) (cfg : HandlerConfig) : Int :=
  if m.maxAttempts ≤ 0 then cfg.maxAttempts else m.maxAttempts

/-- Whether a failed attempt ends in DEAD. -/
def deadAfter (m : InboundMessage) (cfg : HandlerConfig) (err : GoError) (outcome : Outcome) : Bool :=
  outcome = .dead || isDeadLetter err || cfg.deadLetterIf.any (fun pred => pred err) ||
    effectiveMaxAttempts m cfg ≤ m.attempt

/-- `nextDelay` is what the retry policy answers for this attempt and error. -/
def failParams (workerID : String) (m : InboundMessage) (cfg : HandlerConfig) (err : GoError)
    (outcome : Outcome) (clock : Time) (nextDelay : Duration) : FailParams where
  messageID := m.id
  attempt := m.attempt
  workerID := workerID
  err := err.error
  nextRetryAt := if deadAfter m cfg err outcome then Time.zero
    else clock + (extractRetryAfter err).getD nextDelay
  dead := deadAfter m cfg err outcome

/-- The write of one attempt, or the acknowledgement that the flusher will write. -/
inductive Commit where
  | ack (p : BatchSucceedParam)
  | call (c : Call)
  deriving DecidableEq, Repr

/-- `none` is the nil dereference of a failed attempt without an error. -/
def commitOutcome (batchAcker : Bool) (workerID : String) (m : InboundMessage) (cfg : HandlerConfig)
    (err : Option GoError) (clock : Time) (nextDelay : Duration) : Outcome → Option Commit
  | .success =>
    if batchAcker then some (.ack ⟨m.id, m.attempt, workerID⟩)
    else some (.call (.succeed m.id m.attempt workerID))
  | .canceled => some (.call (.releaseShutdown m.id m.attempt workerID "worker shutdown"))
  | outcome => err.map fun err => .call (.fail (failParams workerID m cfg err outcome clock nextDelay))

theorem resolveOutcome_success {ctxDone stopping : Bool} {err : Option GoError} :
    resolveOutcome ctxDone stopping err = .success ↔ ∀ e, err = some e → isSkip e = true := by
  cases err with
  | none => simp [resolveOutcome]
  | some e =>
    cases skipped : isSkip e with
    | true => simp [resolveOutcome, skipped]
    | false =>
      simp only [resolveOutcome, skipped, Bool.false_eq_true, if_false, Option.some.injEq, forall_eq', iff_false]
      split <;> simp

theorem resolveOutcome_canceled {ctxDone stopping : Bool} {err : Option GoError} :
    resolveOutcome ctxDone stopping err = .canceled ↔
      ∃ e, err = some e ∧ isSkip e = false ∧ e.isCanceled = true ∧ ctxDone = true ∧ stopping = true := by
  cases err with
  | none => simp [resolveOutcome]
  | some e => cases skipped : isSkip e <;> simp [resolveOutcome, skipped, and_assoc]

theorem resolveOutcome_ne_dead {ctxDone stopping : Bool} {err : Option GoError} :
    resolveOutcome ctxDone stopping err ≠ .dead := by
  cases err with
  | none => simp [resolveOutcome]
  | some e =>
    simp only [resolveOutcome]
    split
    · simp
    · split <;> simp

/-- What ends an attempt, one constructor for each write. -/
inductive Committed (workerID : String) (m : InboundMessage) (cfg : HandlerConfig) (clock : Time)
    (nextDelay : Duration) : Outcome → Commit → Prop where
  | ack : Committed workerID m cfg clock nextDelay .success (.ack ⟨m.id, m.attempt, workerID⟩)
  | succeed : Committed workerID m cfg clock nextDelay .success (.call (.succeed m.id m.attempt workerID))
  | release : Committed workerID m cfg clock nextDelay .canceled
      (.call (.releaseShutdown m.id m.attempt workerID "worker shutdown"))
  | fail : outcome ≠ .success → outcome ≠ .canceled → Committed workerID m cfg clock nextDelay outcome
      (.call (.fail (failParams workerID m cfg err outcome clock nextDelay)))

theorem commitOutcome_committed {batchAcker : Bool} {workerID : String} {m : InboundMessage}
    {cfg : HandlerConfig} {err : Option GoError} {clock : Time} {nextDelay : Duration} {outcome : Outcome}
    {commit : Commit}
    (committed : commitOutcome batchAcker workerID m cfg err clock nextDelay outcome = some commit) :
    Committed workerID m cfg clock nextDelay outcome commit := by
  cases outcome with
  | success =>
    cases batchAcker <;> cases committed
    · exact .succeed
    · exact .ack
  | canceled => cases committed; exact .release
  | retry | dead =>
    obtain ⟨failure,_,rfl⟩ := Option.map_eq_some_iff.mp committed
    exact .fail (by decide) (by decide)

/-- A resolved attempt always has a write. -/
theorem commitOutcome_isSome {batchAcker ctxDone stopping : Bool} {workerID : String} {m : InboundMessage}
    {cfg : HandlerConfig} {err : Option GoError} {clock : Time} {nextDelay : Duration} :
    (commitOutcome batchAcker workerID m cfg err clock nextDelay
      (resolveOutcome ctxDone stopping err)).isSome = true := by
  cases err with
  | none => cases batchAcker <;> rfl
  | some e => cases resolveOutcome ctxDone stopping (some e) <;> cases batchAcker <;> rfl

/-- An attempt that goes back to the queue was below its limit. -/
theorem deadAfter_eq_false {m : InboundMessage} {cfg : HandlerConfig} {err : GoError} {outcome : Outcome}
    (alive : deadAfter m cfg err outcome = false) : m.attempt < effectiveMaxAttempts m cfg := by
  simp only [deadAfter, Bool.or_eq_false_iff, decide_eq_false_iff_not] at alive
  omega

end Tickr
