import Tickr.Outcome
import Tickr.PostgresRuns

/-! The producer side, and the attempt limit that a message carries from the producer
through the table to the engine. -/
namespace Tickr

/-- `injectHeaders` is the tracer's. -/
structure ClientConfig where
  defaultMaxAttempts : Int
  injectHeaders : Headers → Headers

/-- A client has a default limit of its own for messages that set none. -/
structure Client where
  defaultMaxAttempts : Int
  injectHeaders : Headers → Headers
  positive : 0 < defaultMaxAttempts

def newClient (cfg : ClientConfig) : Client :=
  if unset : cfg.defaultMaxAttempts ≤ 0 then ⟨10, cfg.injectHeaders, by decide⟩
  else ⟨cfg.defaultMaxAttempts, cfg.injectHeaders, by omega⟩

inductive ClientError where
  | typeRequired
  | batchTypeRequired (item : Nat)
  deriving DecidableEq, Repr

def ClientError.error : ClientError → String
  | .typeRequired => "tickr: Message.Type required"
  | .batchTypeRequired item => "tickr: batch item " ++ toString item ++ ": Message.Type required"

def Client.params (c : Client) (clock : Time) (msg : Message) : EnqueueParams where
  eventType := msg.type
  payload := msg.payload
  headers := c.injectHeaders msg.headers
  idempotencyKey := msg.idempotencyKey
  maxAttempts := if msg.maxAttempts ≤ 0 then c.defaultMaxAttempts else msg.maxAttempts
  processAt := some (msg.scheduledAt.getD clock)

def Client.enqueue (c : Client) (clock : Time) (msg : Message) : Except ClientError Call :=
  if msg.type = "" then .error .typeRequired else .ok (.enqueue (c.params clock msg))

/-- What `Enqueue` makes of the storage's answer; a duplicate still has a usable id. -/
def Client.enqueueResult (out : Option InboundMessage) (err : Option StoreError) :
    Option MessageID × Option StoreError :=
  if err.all isDuplicate then (out.map InboundMessage.id, err) else (none, err)

/-- `none` is the empty batch, which does not reach the storage. -/
def Client.enqueueBatch (c : Client) (clock : Nat → Time) (msgs : List Message) :
    Except ClientError (Option Call) :=
  if msgs = [] then .ok none
  else match msgs.findIdx? (fun msg => msg.type = "") with
    | some item => .error (.batchTypeRequired item)
    | none => .ok (some (.enqueueBatch (msgs.mapIdx fun i msg => c.params (clock i) msg)))

/-! ### The attempt limit -/

open Postgres

variable {cfg : Postgres.Config}

/-- `call` is how the client enqueues `msg`, alone or in a batch, and `r` is the row it
inserts for it. -/
inductive Produced (c : Client) (s : Store cfg) (env : Env) (msg : Message) : Call → Row → Prop where
  | single (clock : Time) : c.enqueue clock msg = .ok call →
      (exec s env call).1.row (env.newID 0) = some (enqueueRow env 0 (c.params clock msg)) →
      Produced c s env msg call (enqueueRow env 0 (c.params clock msg))
  | batch (clock : Nat → Time) (msgs : List Message) (i : Nat) :
      c.enqueueBatch clock msgs = .ok (some call) → msgs[i]? = some msg →
      (exec s env call).1.row (env.newID i) = some (enqueueRow env i (c.params (clock i) msg)) →
      Produced c s env msg call (enqueueRow env i (c.params (clock i) msg))

section
variable {c : Client} {s : Store cfg} {env : Env} {msg : Message} {call : Call} {r : Row}

theorem Produced.row (produced : Produced c s env msg call r) :
    (∃ i clock, r = enqueueRow env i (c.params clock msg)) ∧ (exec s env call).1.row r.id = some r := by
  cases produced with
  | single clock _ present => exact ⟨⟨0,clock,rfl⟩,present⟩
  | batch clock msgs i _ _ present => exact ⟨⟨i,clock i,rfl⟩,present⟩

theorem Produced.present (produced : Produced c s env msg call r) : (exec s env call).1.row r.id = some r :=
  produced.row.2

theorem Produced.pending (produced : Produced c s env msg call r) : r.status.pending = true := by
  obtain ⟨⟨i,clock,rfl⟩,_⟩ := produced.row
  rfl

theorem Produced.untried (produced : Produced c s env msg call r) : r.attempt = 0 := by
  obtain ⟨⟨i,clock,rfl⟩,_⟩ := produced.row
  rfl

theorem Produced.maxAttempts (produced : Produced c s env msg call r) :
    r.maxAttempts = if msg.maxAttempts ≤ 0 then c.defaultMaxAttempts else msg.maxAttempts := by
  obtain ⟨⟨i,clock,rfl⟩,_⟩ := produced.row
  have positive := c.positive
  simp only [enqueueRow, insertedRow, Client.params]
  split
  · omega
  · rfl

end

/-- Some Claim returns `m` while the row of `r` is still in the table. -/
def HandedFrom (after : Store cfg) (r : Row) (m : InboundMessage) : Prop :=
  ∃ trace env p r', (execute after trace).row r.id = some r' ∧ r'.identity = r.identity ∧
    m ∈ (claim (execute after trace) env p).2 ∧ m.id = .uuid r.id

theorem HandedFrom.maxAttempts {after : Store cfg} {r : Row} {m : InboundMessage}
    (handed : HandedFrom after r m) : m.maxAttempts = r.maxAttempts := by
  obtain ⟨trace,env,p,r',found,same,returned,named⟩ := handed
  obtain ⟨_,_,spec⟩ := claim_spec (execute after trace) env p
  obtain ⟨k,_,r'',found',rfl⟩ := (spec.returned m).mp returned
  obtain rfl : k = r.id := (Store.row_id found').symm.trans (MessageID.uuid.inj named)
  cases found.symm.trans found'
  exact congrArg Identity.maxAttempts same

/-- A claim of everything that is due in the shard of `r` at `time`. -/
def claimDue (s : Store cfg) (r : Row) (time : Time) : Env × ClaimParams :=
  ({ Env.quiet time 0 with pickShard := fun _ => r.shard }, ⟨"", s.messages.rows.length, 0, []⟩)

theorem claimDue_takes {s : Store cfg} {k : Uuid} {r : Row} (found : s.row k = some r)
    (pending : r.status.pending = true) :
    (claim s (claimDue s r r.processAt).1 (claimDue s r r.processAt).2).1.row k =
        some (claimSet r.processAt "" 30 r) ∧
      scanMessage (claimSet r.processAt "" 30 r) ∈
        (claim s (claimDue s r r.processAt).1 (claimDue s r r.processAt).2).2 := by
  obtain rfl := Store.row_id found
  have member := Store.row_mem found
  have some_ : 0 < s.messages.rows.length := List.length_pos_of_mem member
  refine claim_takes member ?_ ?_
  · exact eligible_iff.mpr ⟨pending,fun _ same => (Option.some.inj same),le_refl _,
      (fun _ impossible => nomatch impossible),rfl⟩
  · rw [claimBatch, if_neg (by simp only [claimDue]; omega)]
    exact le_of_eq (Int.toNat_natCast _).symm

/-- A claim that runs into lease expiry and reclaim leaves the message pending, one
attempt further. -/
theorem attempt_spent {s : Store cfg} {k : Uuid} {r : Row} (found : s.row k = some r)
    (pending : r.status.pending = true) :
    ∃ trace r', (execute s trace).row k = some r' ∧ r'.identity = r.identity ∧
      r'.status.pending = true ∧ r'.attempt = r.attempt + 1 := by
  let due := r.processAt + 30 * Duration.second + 1
  obtain ⟨claimed,_⟩ := claimDue_takes found pending
  generalize (claimDue s r r.processAt).1 = env, (claimDue s r r.processAt).2 = p at claimed
  have some_ : 0 < (claim s env p).1.messages.rows.length := List.length_pos_of_mem (Store.row_mem claimed)
  have lapsed : expired (Env.quiet due 0) (claimSet r.processAt "" 30 r) = true :=
    expired_iff.mpr ⟨rfl,⟨_,rfl,Int.lt_add_one_of_le (le_refl _)⟩,rfl⟩
  have reclaimed := reclaim_takes (Store.row_mem claimed) lapsed
    (show _ ≤ limitOr 500 ((claim s env p).1.messages.rows.length : Int) by
      rw [limitOr, if_neg (by omega)]
      exact le_of_eq (Int.toNat_natCast _).symm)
  refine ⟨[(env,.claim p),(Env.quiet due 0,.reclaimExpired (claim s env p).1.messages.rows.length)],
    reclaimSet due (claimSet r.processAt "" 30 r),?_,rfl,rfl,rfl⟩
  obtain rfl : r.id = k := Store.row_id found
  exact reclaimed

theorem attempts_spent {s : Store cfg} {k : Uuid} {r : Row} (found : s.row k = some r)
    (pending : r.status.pending = true) (n : Nat) :
    ∃ trace r', (execute s trace).row k = some r' ∧ r'.identity = r.identity ∧
      r'.status.pending = true ∧ r'.attempt = r.attempt + n := by
  induction n with
  | zero => exact ⟨[],r,found,rfl,pending,by simp⟩
  | succ n ih =>
    obtain ⟨earlier,middle,at_,same,still,reached⟩ := ih
    obtain ⟨later,r',at',same',still',spent⟩ := attempt_spent at_ still
    refine ⟨earlier ++ later,r',?_,same'.trans same,still',by rw [spent, reached]; omega⟩
    rw [execute_append]
    exact at'

/-- Some Claim hands the message out under any attempt number to come. -/
theorem handed_attempt {s : Store cfg} {r : Row} (found : s.row r.id = some r)
    (pending : r.status.pending = true) (n : Nat) :
    ∃ m, HandedFrom s r m ∧ m.attempt = r.attempt + 1 + n := by
  obtain ⟨trace,r',at_,same,still,reached⟩ := attempts_spent found pending n
  obtain ⟨_,returned⟩ := claimDue_takes at_ still
  have named : (scanMessage (claimSet r'.processAt "" 30 r')).id = .uuid r.id :=
    congrArg MessageID.uuid (show r'.id = r.id from Store.row_id at_)
  refine ⟨_,⟨trace,_,_,r',at_,same,returned,named⟩,?_⟩
  show r'.attempt + 1 = _
  omega

/-- Nothing about `err` or the moment decides the attempt, except the limit. -/
structure Plain (handler : HandlerConfig) (ctxDone stopping : Bool) (err : GoError) : Prop where
  noDeadLetter : isDeadLetter err = false
  noSkip : isSkip err = false
  noPredicate : handler.deadLetterIf.any (fun pred => pred err) = false
  noShutdown : (err.isCanceled && ctxDone && stopping) = false

theorem Plain.resolve {handler : HandlerConfig} {ctxDone stopping : Bool} {err : GoError}
    (plain : Plain handler ctxDone stopping err) : resolveOutcome ctxDone stopping (some err) = .retry := by
  simp [resolveOutcome, plain.noSkip, plain.noShutdown]

theorem Plain.dead {handler : HandlerConfig} {ctxDone stopping : Bool} {err : GoError}
    (plain : Plain handler ctxDone stopping err) (m : InboundMessage) :
    deadAfter m handler err .retry = true ↔ effectiveMaxAttempts m handler ≤ m.attempt := by
  simp [deadAfter, plain.noDeadLetter, plain.noPredicate]

/-- A message that sets no limit of its own is dead-lettered at the client's default, so
the limit of its handler is inherited exactly when the two agree. -/
theorem retry_budget_inherited (config : ClientConfig) (handler : HandlerConfig)
    (positive : 1 ≤ handler.maxAttempts) (s : Store cfg) (env : Env) (msg : Message) (call : Call) (r : Row)
    (produced : Produced (newClient config) s env msg call r) (unset : msg.maxAttempts = 0)
    (ctxDone stopping : Bool) (err : GoError) (plain : Plain handler ctxDone stopping err)
    (batchAcker : Bool) (workerID : String) (clock : Time) (nextDelay : Duration) :
    (∀ m, HandedFrom (exec s env call).1 r m → ∃ p,
        commitOutcome batchAcker workerID m handler (some err) clock nextDelay
          (resolveOutcome ctxDone stopping (some err)) = some (.call (.fail p)) ∧
        (p.dead = true ↔ handler.maxAttempts ≤ m.attempt)) ↔
      (newClient config).defaultMaxAttempts = handler.maxAttempts := by
  have limit : r.maxAttempts = (newClient config).defaultMaxAttempts := by
    rw [produced.maxAttempts, if_pos (by omega)]
  have own := (newClient config).positive
  have dead (m : InboundMessage) (handed : HandedFrom (exec s env call).1 r m) :
      deadAfter m handler err .retry = true ↔ (newClient config).defaultMaxAttempts ≤ m.attempt := by
    rw [plain.dead, effectiveMaxAttempts, handed.maxAttempts, limit, if_neg (by omega)]
  rw [plain.resolve]
  constructor
  · intro inherited
    have bound (attempt : Int) (counted : 1 ≤ attempt) :
        (newClient config).defaultMaxAttempts ≤ attempt ↔ handler.maxAttempts ≤ attempt := by
      obtain ⟨m,handed,reached⟩ := handed_attempt produced.present
        produced.pending (attempt - 1).toNat
      have same : m.attempt = attempt := by rw [reached, produced.untried]; omega
      obtain ⟨p,committed,decided⟩ := inherited m handed
      cases committed
      exact same ▸ (dead m handed).symm.trans decided
    have := (bound handler.maxAttempts positive).mpr (le_refl _)
    have := (bound (newClient config).defaultMaxAttempts own).mp (le_refl _)
    omega
  · intro same m handed
    exact ⟨_,rfl,same ▸ dead m handed⟩

def limitOf (n : Int) : HandlerConfig := ⟨n, 0, 0, none⟩

def letter : Message := ⟨"mail", some [], [], "", none, 0⟩

theorem retry_budget_inherited_five :
    (newClient ⟨5, id⟩).defaultMaxAttempts = (limitOf 5).maxAttempts ∧
    ∀ m, HandedFrom (exec (Store.empty : Store ⟨false, .full⟩) (Env.quiet 5 7)
        (.enqueue ((newClient ⟨5, id⟩).params 5 letter))).1
        (enqueueRow (Env.quiet 5 7) 0 ((newClient ⟨5, id⟩).params 5 letter)) m →
      ∃ p, commitOutcome true "w" m (limitOf 5) (some (.text "boom")) 6 0
          (resolveOutcome false false (some (.text "boom"))) = some (.call (.fail p)) ∧
        (p.dead = true ↔ (limitOf 5).maxAttempts ≤ m.attempt) :=
  ⟨rfl,(retry_budget_inherited ⟨5, id⟩ (limitOf 5) (by decide) Store.empty (Env.quiet 5 7) letter _ _
    (.single 5 rfl rfl) rfl false false (.text "boom") ⟨rfl,rfl,rfl,rfl⟩ true "w" 6 0).mpr rfl⟩

/-- The client fills in 10, so a handler registered with 3 attempts retries the third. -/
theorem retry_budget_lost :
    ∃ call, (newClient ⟨0, id⟩).enqueue 5 letter = .ok call ∧
      ∃ m ∈ (claim (execute (Store.empty : Store ⟨false, .full⟩)
          [(Env.quiet 5 7, call),
           (Env.quiet 6 0, fetchAll "w"), (Env.quiet 7 0, .fail ⟨.uuid 7, 1, "w", "boom", 8, false⟩),
           (Env.quiet 8 0, fetchAll "w"), (Env.quiet 9 0, .fail ⟨.uuid 7, 2, "w", "boom", 10, false⟩)])
          (Env.quiet 10 0) ⟨"w", 10, 30 * Duration.second, []⟩).2,
        m.id = .uuid 7 ∧ m.attempt = 3 ∧
        commitOutcome true "w" m (limitOf 3) (some (.text "boom")) 11 0
          (resolveOutcome false false (some (.text "boom"))) =
          some (.call (.fail ⟨.uuid 7, 3, "w", "boom", 11, false⟩)) :=
  ⟨_,rfl,⟨.uuid 7, "mail", [], [], "", 3, 10, 5, 10, "boom", some .handling⟩,by decide +kernel,
    rfl,rfl,by decide +kernel⟩

end Tickr
