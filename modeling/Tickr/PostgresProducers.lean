import Tickr.PostgresEnqueue
import Tickr.PostgresHistory
import Tickr.Transition

/-! Producers at the granularity of SQL statements. An enqueue is an INSERT and, after a
conflict, a look-up of its own; between the two any statement of any other party may run.
All that the other calls do to the message table is UPDATE and DELETE, so they are
modelled by arbitrary statements of these two kinds. -/
namespace Tickr.Postgres

open KeyedTable

variable {cfg : Config}

/-- A statement that inserts nothing. -/
inductive TableStatement (cfg : Config) where
  | update (guard : Row → Bool) (f : Assign Row.id (idemIndex cfg))
  | delete (guard : Row → Bool)

def TableStatement.apply (messages : Messages cfg) : TableStatement cfg → Messages cfg
  | .update guard f => messages.update guard f
  | .delete guard => messages.delete guard

/-- A producer whose call has not returned yet. -/
inductive Producer where
  | fetch (p : EnqueueParams)
  | collect (inserted : List Row) (rest : List (Uuid × EnqueueParams))
      (out : List (Option InboundMessage)) (firstDup : Option StoreError)
  deriving DecidableEq

inductive Returned where
  | single (p : EnqueueParams) (msg : Option InboundMessage) (err : Option StoreError)
  | batch (out : List (Option InboundMessage)) (err : Option StoreError)
  deriving DecidableEq

/-- The store, the producers between two statements, and what calls have returned. -/
structure Desk (cfg : Config) where
  store : Store cfg
  busy : List Producer
  returned : List Returned

def Desk.start : Desk cfg := ⟨Store.empty, [], []⟩

inductive Statement (cfg : Config) where
  | insert (env : Env) (p : EnqueueParams)
  | insertBatch (env : Env) (ps : List EnqueueParams)
  | next (producer : Nat) (env : Env)
  | other (statement : TableStatement cfg)

def Desk.answer (d : Desk cfg) (result : Returned) : Desk cfg := { d with returned := d.returned ++ [result] }

/-- The INSERT of `Enqueue`. -/
def Desk.insert (d : Desk cfg) (env : Env) (p : EnqueueParams) : Desk cfg :=
  let row := enqueueRow env 0 p
  if fitsColumns p then
    match d.store.messages.insert row with
    | .inserted messages =>
      { d with store := { d.store with messages } }.answer (.single p (some (scanMessage row)) none)
    | .duplicateKey => d.answer (.single p none (some (.sql "enqueue")))
    | .conflict =>
      if p.idempotencyKey = "" then d.answer (.single p none (some (.noRows "enqueue")))
      else { d with busy := d.busy ++ [.fetch p] }
  else d.answer (.single p none (some (.sql "enqueue")))

/-- The INSERT of `EnqueueBatch`. -/
def Desk.insertBatch (d : Desk cfg) (env : Env) (ps : List EnqueueParams) : Desk cfg :=
  if ps = [] then d.answer (.batch [] none)
  else
    let rows := batchRows env ps
    if ps.all fitsColumns then
      match batchInsertSQL d.store.messages rows with
      | none => d.answer (.batch [] (some (.sql "enqueue batch")))
      | some (messages, inserted) =>
        { d with
          store := { d.store with messages }
          busy := d.busy ++ [.collect inserted (ps.mapIdx fun i p => (env.newID i, p)) [] none] }
    else d.answer (.batch [] (some (.sql "enqueue batch")))

/-- What a producer does with the answer to its look-up: it goes on or returns. -/
def Producer.advance (s : Store cfg) (env : Env) : Producer → Producer ⊕ Returned
  | .fetch p =>
    match findByIdempotency s env p.eventType p.idempotencyKey with
    | some existing => .inr (.single p (some (scanMessage existing)) (some (duplicateOf existing p)))
    | none => .inr (.single p none (some (.noRows "fetch by idempotency key")))
  | .collect _ [] out firstDup => .inr (.batch out firstDup)
  | .collect inserted ((id, p) :: rest) out firstDup =>
    match inserted.find? (fun row => row.id = id) with
    | some row => .inl (.collect inserted rest (out ++ [some (scanMessage row)]) firstDup)
    | none =>
      if p.idempotencyKey = "" then
        .inr (.batch (out ++ none :: rest.map fun _ => none) (some (.noRows "enqueue batch item")))
      else match findByIdempotency s env p.eventType p.idempotencyKey with
        | none => .inr (.batch (out ++ none :: rest.map fun _ => none) (some (.noRows "fetch by idempotency key")))
        | some existing =>
          .inl (.collect inserted rest (out ++ [some (scanMessage existing)])
            (firstDup.or (some (duplicateOf existing p))))

def Desk.step (d : Desk cfg) : Statement cfg → Option (Desk cfg)
  | .insert env p => some (d.insert env p)
  | .insertBatch env ps => some (d.insertBatch env ps)
  | .next j env => (d.busy[j]?).map fun producer =>
    match producer.advance d.store env with
    | .inl later => { d with busy := d.busy.set j later }
    | .inr result => { d with busy := d.busy.eraseIdx j }.answer result
  | .other statement => some { d with store := { d.store with messages := statement.apply d.store.messages } }

def producers (cfg : Config) : Transition.System (Desk cfg) (Statement cfg) := ⟨Desk.step⟩

/-! ### The calls as their statements -/

/-- Every call that is not an enqueue acts on the message table by such statements. -/
theorem exec_statements (s : Store cfg) (env : Env) (call : Call)
    (other : ∀ p ps, call ≠ .enqueue p ∧ call ≠ .enqueueBatch ps) :
    ∃ statements : List (TableStatement cfg),
      (exec s env call).1.messages = statements.foldl TableStatement.apply s.messages := by
  have one (guard : Row → Bool) (f : Assign Row.id (idemIndex cfg)) :
      ∃ statements : List (TableStatement cfg),
        s.messages.update guard f = statements.foldl TableStatement.apply s.messages :=
    ⟨[.update guard f],rfl⟩
  cases call with
  | enqueue p => exact absurd rfl (other p []).1
  | enqueueBatch ps => exact absurd rfl (other ⟨"",none,[],"",0,none⟩ ps).2
  | claim p =>
    obtain ⟨statement,shard,passes⟩ := claimPasses_eq s.messages env p
    simp only [exec, claim, passes]
    exact one _ _
  | succeed id attempt workerID =>
    cases id with
    | malformed text => exact ⟨[],rfl⟩
    | uuid mid =>
      simp only [exec, succeed, MessageID.parse, succeedStatement_messages]
      exact one _ _
  | batchSucceed params =>
    simp only [exec, batchSucceed]
    split
    · exact ⟨[],rfl⟩
    · refine ⟨(queued params).map fun q => .update (holds q.1 q.2.attempt)
        ⟨succeedSet (env.now 0),fun _ => rfl,fun _ => rfl⟩,?_⟩
      rw [acks_messages, List.foldl_map]
      rfl
  | fail p =>
    simp only [exec, fail]
    cases p.messageID with
    | malformed text => exact ⟨[],rfl⟩
    | uuid mid =>
      simp only [MessageID.parse, failStatement_messages]
      split <;> exact one _ _
  | releaseShutdown id attempt workerID reason =>
    cases id with
    | malformed text => exact ⟨[],rfl⟩
    | uuid mid =>
      simp only [exec, releaseShutdown, MessageID.parse, releaseStatement_messages]
      exact one _ _
  | extend id workerID until_ =>
    cases id with
    | malformed text => exact ⟨[],rfl⟩
    | uuid mid => exact one _ _
  | requeue id processAt =>
    cases id with
    | malformed text => exact ⟨[],rfl⟩
    | uuid mid =>
      simp only [exec, requeue, MessageID.parse]
      split
      · exact one _ _
      · exact ⟨[],rfl⟩
  | reclaimExpired limit => exact one _ _
  | purgeTerminal before limit => exact ⟨[.delete _],rfl⟩

/-- An undisturbed Enqueue is its INSERT and, if it is still busy then, its look-up. -/
theorem enqueue_as_statements (whole : cfg.partitioned = false) (s : Store cfg) (env : Env) (p : EnqueueParams) :
    ∃ n, (producers cfg).run ⟨s, [], []⟩ (.insert env p :: List.replicate n (.next 0 env)) =
      some ⟨(enqueue s env p).1, [], [.single p (enqueue s env p).2.1 (enqueue s env p).2.2]⟩ := by
  have straight : partitionedLookup s env p = none := by simp [partitionedLookup, whole]
  unfold enqueue
  simp only [straight, Transition.System.run, producers, Desk.step, Option.bind_some, Desk.insert]
  by_cases fits : fitsColumns p = true
  · simp only [fits, if_true]
    cases s.messages.insert (enqueueRow env 0 p) with
    | inserted messages => exact ⟨0,rfl⟩
    | duplicateKey => exact ⟨0,rfl⟩
    | conflict =>
      dsimp only
      split
      · exact ⟨0,rfl⟩
      · refine ⟨1,?_⟩
        cases found : findByIdempotency s env p.eventType p.idempotencyKey <;>
          simp [Transition.System.run, Desk.step, Producer.advance, Desk.answer, found]
  · simp only [fits, refusedBy_whole whole]
    exact ⟨0,rfl⟩

/-- The look-ups of an undisturbed batch, one after the other. -/
theorem collect_as_statements (s : Store cfg) (env : Env) (inserted : List Row)
    (items : List (Uuid × EnqueueParams)) (out : List (Option InboundMessage)) (firstDup : Option StoreError) :
    ∃ n, (producers cfg).run ⟨s, [.collect inserted items out firstDup], []⟩ (List.replicate n (.next 0 env)) =
      some ⟨s, [], [.batch (out ++ (collectBatch s env inserted items firstDup).1)
        (collectBatch s env inserted items firstDup).2]⟩ := by
  have first (producer : Producer) (n : Nat) :
      (producers cfg).run ⟨s, [producer], []⟩ (List.replicate (n + 1) (.next 0 env)) =
        match producer.advance s env with
        | .inl later => (producers cfg).run ⟨s, [later], []⟩ (List.replicate n (.next 0 env))
        | .inr result => (producers cfg).run ⟨s, [], [result]⟩ (List.replicate n (.next 0 env)) := by
    rw [List.replicate_succ]
    simp only [Transition.System.run, producers, Desk.step, List.getElem?_cons_zero, Option.map_some,
      Option.bind_some]
    cases producer.advance s env <;> rfl
  induction items generalizing out firstDup with
  | nil =>
    refine ⟨1,?_⟩
    rw [first]
    simp [Producer.advance, collectBatch, Transition.System.run]
  | cons item rest ih =>
    obtain ⟨id,p⟩ := item
    cases returned : inserted.find? (fun row => row.id = id) with
    | some row =>
      obtain ⟨n,run⟩ := ih (out ++ [some (scanMessage row)]) firstDup
      refine ⟨n + 1,?_⟩
      rw [first]
      simp only [Producer.advance, returned, run, collectBatch]
      simp
    | none =>
      by_cases keyless : p.idempotencyKey = ""
      · refine ⟨1,?_⟩
        rw [first]
        simp [Producer.advance, returned, keyless, collectBatch, Transition.System.run]
      · cases found : findByIdempotency s env p.eventType p.idempotencyKey with
        | none =>
          refine ⟨1,?_⟩
          rw [first]
          simp [Producer.advance, returned, keyless, found, collectBatch, Transition.System.run]
        | some existing =>
          obtain ⟨n,run⟩ := ih (out ++ [some (scanMessage existing)])
            (firstDup.or (some (duplicateOf existing p)))
          refine ⟨n + 1,?_⟩
          rw [first]
          simp only [Producer.advance, returned, keyless, found, run, collectBatch, if_false]
          simp

theorem enqueueBatch_as_statements (s : Store cfg) (env : Env) (ps : List EnqueueParams) :
    ∃ n, (producers cfg).run ⟨s, [], []⟩ (.insertBatch env ps :: List.replicate n (.next 0 env)) =
      some ⟨(enqueueBatch s env ps).1, [], [.batch (enqueueBatch s env ps).2.1 (enqueueBatch s env ps).2.2]⟩ := by
  have begin_ (n : Nat) : (producers cfg).run ⟨s, [], []⟩
      (.insertBatch env ps :: List.replicate n (.next 0 env)) =
        (producers cfg).run ((⟨s, [], []⟩ : Desk cfg).insertBatch env ps) (List.replicate n (.next 0 env)) := rfl
  simp only [begin_, enqueueBatch, Desk.insertBatch]
  split
  · exact ⟨0,rfl⟩
  · split
    · cases batchInsertSQL s.messages (batchRows env ps) with
      | none => exact ⟨0,rfl⟩
      | some result =>
        obtain ⟨n,run⟩ := collect_as_statements ⟨result.1,s.history⟩ env result.2
          (ps.mapIdx fun i p => (env.newID i,p)) [] none
        exact ⟨n,run⟩
    · exact ⟨0,rfl⟩

/-! ### All or duplicate -/

theorem insert_duplicateKey {messages : Messages cfg} {r : Row} (taken : messages.insert r = .duplicateKey) :
    (messages.find? r.id).isSome = true := by
  rw [Option.isSome_iff_ne_none, ne_eq, Table.find?_eq_none, not_not]
  exact Table.insert_duplicateKey taken

section
variable (whole : cfg.partitioned = false)
include whole

end

/-! ### ErrDuplicate names a row that was there -/

def Returned.duplicate : Returned → Option ErrDuplicate
  | .single _ _ (some (.duplicate err)) | .batch _ (some (.duplicate err)) => some err
  | _ => none

def Producer.duplicate : Producer → Option ErrDuplicate
  | .collect _ _ _ (some (.duplicate err)) => some err
  | _ => none

/-- The purger and a batch run between the conflict of a producer and its look-up. -/
def disturbed : List (Statement ⟨false, .full⟩) :=
  [.insert (Env.quiet 5 7) ⟨"mail", some [], [], "a", 0, none⟩, .insert (Env.quiet 6 8) ⟨"mail", some [], [], "a", 3, none⟩,
    .other (.delete (purgeable 9)), .insertBatch (Env.quiet 7 20) [⟨"mail", some [], [], "b", 0, none⟩],
    .next 0 (Env.quiet 8 0)]

end Tickr.Postgres
