import Mathlib.Data.Fintype.EquivFin
import Tickr.Client

/-! Enqueue outside a transaction when one of its statements fails. Each statement commits
by itself, and one that fails leaves nothing behind. The adapter notifies after its INSERT
has committed and hands an error of pg_notify on, so the client reports a failure for a row
that is in the table; the client's own notification after it only logs. -/
namespace Tickr

open KeyedTable Postgres

/-- The statements of one `Enqueue`: the look-up before the INSERT of the partitioned mode,
the INSERT, the pg_notify of the adapter, the look-up of the row that was in the way, and
the pg_notify of the client. -/
inductive EnqueueStatement where
  | lookup
  | insert
  | notifyEnqueue
  | refetch
  | notify
  deriving DecidableEq, Repr

namespace Postgres

variable {cfg : Config}

def notifyEnqueue (notifierDisabled : Bool) (fails : Option EnqueueStatement) : Option StoreError :=
  if notifierDisabled then none
  else if fails = some .notifyEnqueue then some (.sql "pg_notify")
  else none

/-- `Enqueue` with the zero Tx where the statement `fails` fails, if the call comes to it. -/
def enqueueFailing (notifierDisabled : Bool) (s : Store cfg) (env : Env) (p : EnqueueParams)
    (fails : Option EnqueueStatement) : Store cfg × Option InboundMessage × Option StoreError :=
  if cfg.partitioned && p.idempotencyKey != "" && fails = some .lookup then
    (s, none, some (.sql "fetch by idempotency key"))
  else match partitionedLookup s env p with
  | some existing => (s, some (scanMessage existing), some (duplicateOf existing p))
  | none =>
    let row := enqueueRow env 0 p
    if fails = some .insert then (s, none, some (.sql "enqueue"))
    else if fitsColumns p then
      match s.messages.insert row with
      | .inserted messages => ({ s with messages }, some (scanMessage row), notifyEnqueue notifierDisabled fails)
      | .duplicateKey => (s, none, some (.sql "enqueue"))
      | .conflict =>
        if p.idempotencyKey = "" then (s, none, some (.noRows "enqueue"))
        else if fails = some .refetch then (s, none, some (.sql "fetch by idempotency key"))
        else match findByIdempotency s env p.eventType p.idempotencyKey with
          | some existing => (s, some (scanMessage existing), some (duplicateOf existing p))
          | none => (s, none, some (.noRows "fetch by idempotency key"))
    else (s, none, some (.sql (refusedBy cfg p)))

theorem enqueueFailing_none (notifierDisabled : Bool) (s : Store cfg) (env : Env) (p : EnqueueParams) :
    enqueueFailing notifierDisabled s env p none = enqueue s env p := by
  have silent : notifyEnqueue notifierDisabled none = none := by simp [notifyEnqueue]
  unfold enqueueFailing enqueue
  rw [silent, if_neg (by simp)]
  cases partitionedLookup s env p <;> rfl

/-- The adapter's INSERT commits a row. -/
def Inserts (s : Store cfg) (env : Env) (p : EnqueueParams) (messages : Messages cfg) : Prop :=
  partitionedLookup s env p = none ∧ fitsColumns p = true ∧
    s.messages.insert (enqueueRow env 0 p) = .inserted messages

/-- A failing enqueue leaves the store alone, or it comes to its notification with the row
already in the table. -/
theorem enqueueFailing_cases (notifierDisabled : Bool) (s : Store cfg) (env : Env) (p : EnqueueParams)
    (fails : Option EnqueueStatement) :
    (enqueueFailing notifierDisabled s env p fails).1 = s ∨ ∃ messages, Inserts s env p messages ∧
      enqueueFailing notifierDisabled s env p fails =
        ({ s with messages }, some (scanMessage (enqueueRow env 0 p)), notifyEnqueue notifierDisabled fails) := by
  unfold enqueueFailing
  split
  · exact .inl rfl
  · cases looked : partitionedLookup s env p with
    | some existing => exact .inl rfl
    | none =>
      dsimp only
      split
      · exact .inl rfl
      · split
        · rename_i fits
          cases inserted : s.messages.insert (enqueueRow env 0 p) with
          | inserted messages => exact .inr ⟨messages,⟨looked,fits,inserted⟩,rfl⟩
          | duplicateKey => exact .inl rfl
          | conflict =>
            dsimp only
            split
            · exact .inl rfl
            · split
              · exact .inl rfl
              · split <;> exact .inl rfl
        · exact .inl rfl

/-- The INSERT of a call is not held up by a statement after it. -/
theorem enqueueFailing_inserts {s : Store cfg} {env : Env} {p : EnqueueParams} {messages : Messages cfg}
    (inserts : Inserts s env p messages) (notifierDisabled : Bool) {fails : Option EnqueueStatement}
    (looks : fails ≠ some .lookup) (reaches : fails ≠ some .insert) :
    enqueueFailing notifierDisabled s env p fails =
      ({ s with messages }, some (scanMessage (enqueueRow env 0 p)), notifyEnqueue notifierDisabled fails) := by
  obtain ⟨looked,fits,inserted⟩ := inserts
  simp [enqueueFailing, looks, reaches, looked, fits, inserted]

/-- The statements that the call issues if all of them work. -/
def enqueueStatements (notifierDisabled : Bool) (s : Store cfg) (env : Env) (p : EnqueueParams) :
    List EnqueueStatement :=
  (if cfg.partitioned && p.idempotencyKey != "" then [.lookup] else []) ++
    match partitionedLookup s env p with
    | some _ => []
    | none => .insert ::
      if fitsColumns p then
        match s.messages.insert (enqueueRow env 0 p) with
        | .inserted _ => (if notifierDisabled then [] else [.notifyEnqueue]) ++ [.notify]
        | .duplicateKey => []
        | .conflict => if p.idempotencyKey = "" then [] else [.refetch]
      else []

theorem notifyEnqueue_issued {notifierDisabled : Bool} {s : Store cfg} {env : Env} {p : EnqueueParams}
    (issued : .notifyEnqueue ∈ enqueueStatements notifierDisabled s env p) :
    notifierDisabled = false ∧ ∃ messages, Inserts s env p messages := by
  have late : EnqueueStatement.notifyEnqueue ∉
      (if cfg.partitioned && p.idempotencyKey != "" then [EnqueueStatement.lookup] else []) := by
    split <;> simp
  have rest := (List.mem_append.mp issued).resolve_left late
  cases looked : partitionedLookup s env p with
  | some existing => simp [looked] at rest
  | none =>
    by_cases fits : fitsColumns p = true
    · cases inserted : s.messages.insert (enqueueRow env 0 p) with
      | inserted messages =>
        refine ⟨?_,messages,looked,fits,inserted⟩
        simpa [looked, fits, inserted] using rest
      | duplicateKey => simp [looked, fits, inserted] at rest
      | conflict =>
        simp only [looked, fits, inserted] at rest
        split at rest <;> simp at rest
    · simp [looked, fits] at rest

/-- Without a key nothing is in the way of a row under a new id. -/
theorem inserts_keyless {p : EnqueueParams} (keyless : p.idempotencyKey = "")
    (fits : fitsColumns p = true) (s : Store cfg) (time : Time) :
    ∃ id messages, Inserts s (Env.quiet time id) p messages := by
  obtain ⟨id,fresh⟩ := Infinite.exists_notMem_finset (s.messages.rows.map Row.id).toFinset
  have absent : (enqueueRow (Env.quiet time id) 0 p).id ∉ s.messages.rows.map Row.id := by
    simpa [enqueueRow, insertedRow, Env.quiet] using fresh
  cases inserted : s.messages.insert (enqueueRow (Env.quiet time id) 0 p) with
  | inserted messages => exact ⟨id,messages,by simp [partitionedLookup, keyless],fits,inserted⟩
  | duplicateKey => exact absurd (Table.insert_duplicateKey inserted) absent
  | conflict =>
    obtain ⟨entry,named,_⟩ := Table.insert_conflict.mp inserted
    simp [idemIndex, enqueueRow, insertedRow, nullif, keyless] at named

end Postgres

/-! ### The client -/

inductive EnqueueError where
  | client (err : ClientError)
  | storage (err : StoreError)
  deriving DecidableEq, Repr

def EnqueueError.isDuplicate : EnqueueError → Bool
  | .client _ => false
  | .storage err => Tickr.isDuplicate err

/-- What an enqueue leaves behind and returns; `warned` is the log line about the client's
own notification. -/
structure Enqueued (cfg : Postgres.Config) where
  store : Store cfg
  id : Option MessageID
  err : Option EnqueueError
  warned : Bool

variable {cfg : Postgres.Config}

/-- `Client.Enqueue` with the zero Tx over the adapter, which is a Notifier. -/
def Client.enqueueFailing (c : Client) (notifierDisabled : Bool) (s : Store cfg) (env : Env) (clock : Time)
    (msg : Message) (fails : Option EnqueueStatement) : Enqueued cfg :=
  if msg.type = "" then ⟨s, none, some (.client .typeRequired), false⟩
  else
    let (store, out, err) := Postgres.enqueueFailing notifierDisabled s env (c.params clock msg) fails
    let (id, err) := Client.enqueueResult out err
    ⟨store, id, err.map .storage, out.isSome && err.isNone && fails = some .notify⟩

def Client.enqueueStatements (c : Client) (notifierDisabled : Bool) (s : Store cfg) (env : Env) (clock : Time)
    (msg : Message) : List EnqueueStatement :=
  if msg.type = "" then [] else Postgres.enqueueStatements notifierDisabled s env (c.params clock msg)

/-- An error other than a duplicate means that the table is as it was. -/
def Enqueued.Unchanged (before : Store cfg) (result : Enqueued cfg) : Prop :=
  ∀ err, result.err = some err → err.isDuplicate = false → result.store.messages = before.messages

/-- Another try after such an error, with whatever it meets, comes to at most one row. -/
def Enqueued.OneCopy (before : Store cfg) (result : Enqueued cfg)
    (retry : Store cfg → Env → Time → Option EnqueueStatement → Enqueued cfg) : Prop :=
  ∀ err, result.err = some err → err.isDuplicate = false → ∀ env clock fails,
    (retry result.store env clock fails).store.messages.rows.length ≤ before.messages.rows.length + 1

section
variable (c : Client) (notifierDisabled : Bool) (s : Store cfg) (env : Env) (clock : Time) (msg : Message)
  (fails : Option EnqueueStatement)

theorem Client.enqueueFailing_store (typed : msg.type ≠ "") :
    (c.enqueueFailing notifierDisabled s env clock msg fails).store =
      (Postgres.enqueueFailing notifierDisabled s env (c.params clock msg) fails).1 := by
  rw [Client.enqueueFailing, if_neg typed]

theorem Client.enqueueFailing_err (typed : msg.type ≠ "") :
    (c.enqueueFailing notifierDisabled s env clock msg fails).err =
      (Postgres.enqueueFailing notifierDisabled s env (c.params clock msg) fails).2.2.map .storage := by
  rw [Client.enqueueFailing, if_neg typed]
  simp only [Client.enqueueResult]
  split <;> rfl

theorem Client.enqueueFailing_none (typed : msg.type ≠ "") :
    c.enqueue clock msg = .ok (.enqueue (c.params clock msg)) ∧
    (c.enqueueFailing notifierDisabled s env clock msg none).store =
      (exec s env (.enqueue (c.params clock msg))).1 :=
  ⟨if_neg typed,by rw [enqueueFailing_store _ _ _ _ _ _ _ typed, Postgres.enqueueFailing_none]; rfl⟩

/-- One call adds at most one row. -/
theorem Client.enqueueFailing_length :
    (c.enqueueFailing notifierDisabled s env clock msg fails).store.messages.rows.length ≤
      s.messages.rows.length + 1 := by
  by_cases typed : msg.type = ""
  · rw [Client.enqueueFailing, if_pos typed]
    exact Nat.le_succ _
  rw [enqueueFailing_store _ _ _ _ _ _ _ typed]
  rcases enqueueFailing_cases notifierDisabled s env (c.params clock msg) fails with
    same | ⟨messages,⟨_,_,inserted⟩,same⟩
  · rw [same]
    exact Nat.le_succ _
  · rw [same]
    simp [(Table.insert_inserted inserted).1]

variable {notifierDisabled s env clock msg fails}

/-- A call that reports an error over a changed table stumbled over the adapter's notification. -/
theorem Client.enqueueFailing_unchanged (other : fails ≠ some .notifyEnqueue) :
    (c.enqueueFailing notifierDisabled s env clock msg fails).Unchanged s := by
  intro err failed notDuplicate
  by_cases typed : msg.type = ""
  · rw [Client.enqueueFailing, if_pos typed]
  rw [enqueueFailing_err _ _ _ _ _ _ _ typed] at failed
  rw [enqueueFailing_store _ _ _ _ _ _ _ typed]
  rcases enqueueFailing_cases notifierDisabled s env (c.params clock msg) fails with same | ⟨messages,_,same⟩
  · rw [same]
  · simp [same, notifyEnqueue, other] at failed

/-- A notification of the adapter that fails is an error with the row in the table. -/
theorem Client.enqueueFailing_notifyEnqueue
    (issued : .notifyEnqueue ∈ c.enqueueStatements notifierDisabled s env clock msg) :
    msg.type ≠ "" ∧ ∃ messages, Inserts s env (c.params clock msg) messages ∧
      (c.enqueueFailing notifierDisabled s env clock msg (some .notifyEnqueue)).store = { s with messages } ∧
      (c.enqueueFailing notifierDisabled s env clock msg (some .notifyEnqueue)).err =
        some (.storage (.sql "pg_notify")) := by
  have typed : msg.type ≠ "" := by
    intro empty
    simp [Client.enqueueStatements, empty] at issued
  rw [Client.enqueueStatements, if_neg typed] at issued
  obtain ⟨enabled,messages,inserts⟩ := notifyEnqueue_issued issued
  have reply := enqueueFailing_inserts inserts notifierDisabled
    (show some EnqueueStatement.notifyEnqueue ≠ some .lookup by decide) (by decide)
  refine ⟨typed,messages,inserts,?_,?_⟩
  · rw [enqueueFailing_store _ _ _ _ _ _ _ typed, reply]
  · rw [enqueueFailing_err _ _ _ _ _ _ _ typed, reply]
    simp [notifyEnqueue, enabled]

variable (notifierDisabled) in
/-- So the producer's next try adds a second row. -/
theorem Client.enqueueFailing_second (keyless : msg.idempotencyKey = "") (typed : msg.type ≠ "")
    {messages : Messages cfg} (inserts : Inserts s env (c.params clock msg) messages) :
    ∃ env' clock', (c.enqueueFailing notifierDisabled { s with messages } env' clock' msg none).store.messages.rows.length =
      s.messages.rows.length + 2 := by
  obtain ⟨id,copies,again⟩ := inserts_keyless (p := c.params clock msg) keyless
    inserts.2.1 { s with messages } 0
  refine ⟨Env.quiet 0 id,clock,?_⟩
  rw [enqueueFailing_store _ _ _ _ _ _ _ typed, enqueueFailing_inserts again _ (by simp) (by simp)]
  simp [(Table.insert_inserted again.2.2).1, (Table.insert_inserted inserts.2.2).1]

end

/-- With one of its statements failing, an enqueue that reports an error other than a
duplicate has left the table alone exactly when the failing statement is not the adapter's
notification, and for a message without a key that is also when a producer may try again. -/
theorem failed_enqueue_unchanged_iff (c : Client) (notifierDisabled : Bool) (s : Store cfg) (env : Env)
    (clock : Time) (msg : Message) (fails : Option EnqueueStatement)
    (issued : ∀ statement ∈ fails, statement ∈ c.enqueueStatements notifierDisabled s env clock msg) :
    ((c.enqueueFailing notifierDisabled s env clock msg fails).Unchanged s ↔ fails ≠ some .notifyEnqueue) ∧
    (msg.idempotencyKey = "" →
      ((c.enqueueFailing notifierDisabled s env clock msg fails).OneCopy s
          (fun after env' clock' => c.enqueueFailing notifierDisabled after env' clock' msg) ↔
        fails ≠ some .notifyEnqueue)) := by
  refine ⟨⟨?_,c.enqueueFailing_unchanged⟩,fun keyless => ⟨?_,?_⟩⟩
  · rintro unchanged rfl
    obtain ⟨_,messages,inserts,store,err⟩ := c.enqueueFailing_notifyEnqueue (issued _ rfl)
    have same := unchanged _ err rfl
    rw [store] at same
    have grown := congrArg List.length (Table.insert_inserted inserts.2.2).1
    rw [show messages = s.messages from same] at grown
    simp at grown
  · rintro once rfl
    obtain ⟨typed,messages,inserts,store,err⟩ := c.enqueueFailing_notifyEnqueue (issued _ rfl)
    obtain ⟨env',clock',two⟩ := c.enqueueFailing_second notifierDisabled keyless typed inserts
    have bound := once _ err rfl env' clock' none
    rw [store, two] at bound
    omega
  · intro other err failed notDuplicate env' clock' fails'
    have grown := c.enqueueFailing_length notifierDisabled
      (c.enqueueFailing notifierDisabled s env clock msg fails).store env' clock' msg fails'
    rwa [c.enqueueFailing_unchanged other err failed notDuplicate] at grown

theorem failed_enqueue_unchanged_iff_insert :
    EnqueueStatement.insert ∈ (newClient ⟨0, id⟩).enqueueStatements false
        (Store.empty : Store ⟨false, .full⟩) (Env.quiet 5 7) 5 letter ∧
    ((newClient ⟨0, id⟩).enqueueFailing false (Store.empty : Store ⟨false, .full⟩) (Env.quiet 5 7) 5 letter
        (some .insert)).Unchanged Store.empty :=
  have issued : EnqueueStatement.insert ∈ (newClient ⟨0, id⟩).enqueueStatements false
      (Store.empty : Store ⟨false, .full⟩) (Env.quiet 5 7) 5 letter := by decide +kernel
  ⟨issued,((failed_enqueue_unchanged_iff _ _ _ _ _ _ (some .insert)
    (fun _ same => Option.some.inj same ▸ issued)).1).mpr (by decide)⟩

/-- The INSERT commits, pg_notify fails, and the producer that is told so enqueues again. -/
theorem failed_enqueue_enqueued :
    let first := (newClient ⟨0, id⟩).enqueueFailing false (Store.empty : Store ⟨false, .full⟩) (Env.quiet 5 7) 5
      letter (some .notifyEnqueue)
    let second := (newClient ⟨0, id⟩).enqueueFailing false first.store (Env.quiet 6 8) 6 letter none
    first.err = some (.storage (.sql "pg_notify")) ∧ first.store.messages.rows.map Row.id = [7] ∧
      second.err = none ∧ second.store.messages.rows.map Row.id = [7, 8] := by decide +kernel

end Tickr
