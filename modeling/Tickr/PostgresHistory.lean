import Tickr.PostgresRuns

/-! The transition log beside the message table. The log never feeds back: a store that
keeps it and one that does not go through the same message tables. Every statement
numbers its rows after the highest number the message has, so the primary key of the log
is never violated, whatever a purge has removed from it. -/
namespace Tickr.Postgres

open KeyedTable

variable {cfg : Config}

/-- A storage call, or a call of the optional HistoryPurger. -/
inductive Request where
  | call (env : Env) (call : Call)
  | purgeHistory (scan : Scan HistoryRow) (before : Time) (limit : Int)

def perform (s : Store cfg) : Request → Store cfg × Reply
  | .call env call => exec s env call
  | .purgeHistory scan before limit => let r := purgeHistory s scan before limit; (r.1, .count r.2)

def replay (s : Store cfg) : List Request → Store cfg
  | [] => s
  | request :: rest => replay (perform s request).1 rest

/-! ### The message table does not depend on the log -/

def silent (cfg : Config) : Config := { cfg with historyPolicy := .off }

/-- The same message table under HistoryOff, with an empty log. -/
def Store.blind (s : Store cfg) : Store (silent cfg) := ⟨s.messages, []⟩

theorem enqueue_blind (s : Store cfg) (env : Env) (p : EnqueueParams) :
    enqueue s.blind env p = ((enqueue s env p).1.blind, (enqueue s env p).2) := by
  have lookup : partitionedLookup s.blind env p = partitionedLookup s env p := rfl
  have existing : findByIdempotency s.blind env p.eventType p.idempotencyKey =
      findByIdempotency s env p.eventType p.idempotencyKey := rfl
  have insertion : s.blind.messages.insert (enqueueRow env 0 p) =
      s.messages.insert (enqueueRow env 0 p) := rfl
  unfold enqueue
  rw [lookup, existing]
  cases partitionedLookup s env p with
  | some found => rfl
  | none =>
    dsimp only
    rw [insertion]
    split
    · cases s.messages.insert (enqueueRow env 0 p) with
      | inserted | duplicateKey => rfl
      | conflict =>
        dsimp only
        split
        · rfl
        · cases findByIdempotency s env p.eventType p.idempotencyKey <;> rfl
    · rfl

theorem batchInsertSQL_blind (messages : Messages cfg) (rows : List Row) :
    @batchInsertSQL (silent cfg) messages rows = batchInsertSQL messages rows := by
  induction rows generalizing messages with
  | nil => rfl
  | cons row rest ih =>
    have insertion : @Table.insert _ _ _ Row.id (idemIndex (silent cfg)) _ _ messages row =
        messages.insert row := rfl
    simp only [batchInsertSQL]
    rw [insertion]
    cases messages.insert row with
    | conflict => exact ih messages
    | duplicateKey => rfl
    | inserted next => exact congrArg (Option.map fun result => (result.1,row :: result.2)) (ih next)

theorem collectBatch_blind (s : Store cfg) (env : Env) (inserted : List Row)
    (items : List (Uuid × EnqueueParams)) (firstDup : Option StoreError) :
    collectBatch s.blind env inserted items firstDup = collectBatch s env inserted items firstDup := by
  induction items generalizing firstDup with
  | nil => rfl
  | cons item rest ih =>
    simp only [collectBatch, ih]
    rfl

theorem enqueueBatch_blind (s : Store cfg) (env : Env) (ps : List EnqueueParams) :
    enqueueBatch s.blind env ps = ((enqueueBatch s env ps).1.blind, (enqueueBatch s env ps).2) := by
  have insertion : batchInsertSQL s.blind.messages (batchRows env ps) =
      batchInsertSQL s.messages (batchRows env ps) := batchInsertSQL_blind s.messages (batchRows env ps)
  unfold enqueueBatch
  split
  · rfl
  · dsimp only
    split
    · rw [insertion]
      cases batchInsertSQL s.messages (batchRows env ps) with
      | none => rfl
      | some result =>
        exact congrArg (Prod.mk _) (@collectBatch_blind cfg ⟨result.1,s.history⟩ ..)
    · rfl

theorem exec_blind (s : Store cfg) (env : Env) (call : Call) :
    (exec s.blind env call).1.messages = (exec s env call).1.messages ∧
    (exec s.blind env call).2 = (exec s env call).2 := by
  cases call with
  | enqueue p =>
    simp only [exec, enqueue_blind]
    exact ⟨rfl,trivial⟩
  | enqueueBatch ps =>
    simp only [exec, enqueueBatch_blind]
    exact ⟨rfl,trivial⟩
  | claim p => exact ⟨rfl,rfl⟩
  | succeed id attempt workerID =>
    cases id with
    | malformed text => exact ⟨rfl,rfl⟩
    | uuid mid => exact ⟨(succeedStatement_messages s (env.now 0) mid attempt workerID).symm,rfl⟩
  | batchSucceed params =>
    simp only [exec, batchSucceed]
    split
    · exact ⟨rfl,rfl⟩
    · exact ⟨(acks_messages s.blind (env.now 0) (queued params)).trans
        (acks_messages s (env.now 0) (queued params)).symm,rfl⟩
  | fail p =>
    simp only [exec, fail]
    cases p.messageID with
    | malformed text => exact ⟨rfl,rfl⟩
    | uuid mid => exact ⟨(failStatement_messages s.blind (env.now 0) mid p).trans
        (failStatement_messages s (env.now 0) mid p).symm,rfl⟩
  | releaseShutdown id attempt workerID reason =>
    cases id with
    | malformed text => exact ⟨rfl,rfl⟩
    | uuid mid =>
      exact ⟨(releaseStatement_messages s (env.now 0) mid attempt workerID reason).symm,rfl⟩
  | extend id workerID until_ => cases id <;> exact ⟨rfl,rfl⟩
  | requeue id processAt =>
    cases id with
    | malformed text => exact ⟨rfl,rfl⟩
    | uuid mid =>
      have dead : s.blind.messages.rows.any (isDead mid) = s.messages.rows.any (isDead mid) := rfl
      simp only [exec, requeue, MessageID.parse, dead]
      split <;> exact ⟨rfl,rfl⟩
  | reclaimExpired limit => exact ⟨rfl,rfl⟩
  | purgeTerminal before limit => exact ⟨rfl,rfl⟩

/-- Two stores over one message table, of which the second keeps no log, agree on every
call: the table after it and what it returns. -/
theorem exec_silent {s : Store cfg} {t : Store (silent cfg)} (same : t.messages = s.messages) (env : Env)
    (call : Call) : (exec t env call).1.messages = (exec s env call).1.messages ∧
      (exec t env call).2 = (exec s env call).2 := by
  have blind : t.blind = s.blind := congrArg (fun m => (⟨m,[]⟩ : Store (silent cfg))) same
  obtain ⟨left,leftReply⟩ := exec_blind t env call
  obtain ⟨right,rightReply⟩ := exec_blind s env call
  exact ⟨left.symm.trans ((congrArg (fun u => (exec u env call).1.messages) blind).trans right),
    leftReply.symm.trans ((congrArg (fun u => (exec u env call).2) blind).trans rightReply)⟩

/-! ### The numbering of the log -/

/-- The log grows by rows that are each numbered next for their message. -/
inductive Grows (h : List HistoryRow) : List HistoryRow → Prop where
  | refl : Grows h h
  | next : Grows h h' → e.seq = maxSeq h' e.messageID + 1 → Grows h (h' ++ [e])

theorem Grows.trans {h h' h'' : List HistoryRow} (first : Grows h h') (second : Grows h' h'') : Grows h h'' := by
  induction second with
  | refl => exact first
  | next _ numbered ih => exact .next ih numbered

theorem Grows.one {h : List HistoryRow} {e : HistoryRow} (numbered : e.seq = maxSeq h e.messageID + 1) :
    Grows h (h ++ [e]) := .next .refl numbered

theorem foldl_max_bound (entries : List HistoryRow) (least : Nat) :
    least ≤ entries.foldl (fun highest h => max highest h.seq) least ∧
    ∀ e ∈ entries, e.seq ≤ entries.foldl (fun highest h => max highest h.seq) least := by
  induction entries generalizing least with
  | nil => simp
  | cons entry rest ih =>
    obtain ⟨start,bound⟩ := ih (max least entry.seq)
    rw [List.foldl_cons]
    refine ⟨le_trans (le_max_left _ _) start,?_⟩
    intro e member
    rcases List.mem_cons.mp member with rfl | later
    · exact le_trans (le_max_right _ _) start
    · exact bound e later

theorem le_maxSeq {h : List HistoryRow} {e : HistoryRow} (member : e ∈ h) : e.seq ≤ maxSeq h e.messageID :=
  (foldl_max_bound _ 0).2 e (List.mem_filter.mpr ⟨member,by simp⟩)

theorem maxSeq_append (h : List HistoryRow) (e : HistoryRow) (k : Uuid) :
    maxSeq (h ++ [e]) k = if e.messageID = k then max (maxSeq h k) e.seq else maxSeq h k := by
  unfold maxSeq
  rw [List.filter_append]
  by_cases same : e.messageID = k <;> simp [same]

/-- The rows of one message stand in the log in the order of their numbers. -/
def Ordered (h : List HistoryRow) : Prop :=
  h.Pairwise fun a b => a.messageID = b.messageID → a.seq < b.seq

theorem Grows.ordered {h h' : List HistoryRow} (grows : Grows h h') (ordered : Ordered h) : Ordered h' := by
  induction grows with
  | refl => exact ordered
  | next _ numbered ih =>
    refine List.pairwise_append.mpr ⟨ih,List.pairwise_singleton _ _,?_⟩
    intro a member b last same
    obtain rfl := List.mem_singleton.mp last
    have bound := le_maxSeq member
    rw [same] at bound
    omega

/-- The primary key (message_id, seq). -/
def Keyed (h : List HistoryRow) : Prop := (h.map fun e => (e.messageID, e.seq)).Nodup

theorem Ordered.keyed {h : List HistoryRow} (ordered : Ordered h) : Keyed h := by
  refine List.pairwise_map.mpr (ordered.imp ?_)
  intro a b before same
  obtain ⟨id,seq⟩ := Prod.mk.inj same
  exact absurd seq (before id).ne

/-- A statement guarded by id and attempt transitions one row or none. -/
theorem updated_cases (s : Store cfg) (id : Uuid) (attempt : Int) (set : Row → Row) :
    (∃ r, s.row id = some r ∧ holds id attempt r = true ∧ updated s id attempt set = [set r]) ∨
    ((∀ r, s.row id = some r → holds id attempt r = false) ∧ updated s id attempt set = []) := by
  unfold updated
  rw [Table.filter_eq_find? s.messages id (holds id attempt) fun r on => (holds_iff.mp on).1]
  have row : s.messages.find? id = s.row id := rfl
  rw [row]
  cases s.row id with
  | none => exact Or.inr ⟨by simp,rfl⟩
  | some r =>
    cases on : holds id attempt r with
    | true => exact Or.inl ⟨r,rfl,on,by simp [Option.filter_some, on]⟩
    | false => exact Or.inr ⟨by simp [on],by simp [Option.filter_some, on]⟩

/-- The log of a statement with one entry for each row that it transitions. -/
theorem updated_grows (s : Store cfg) {id : Uuid} {attempt : Int} {set : Row → Row} {entry : Row → HistoryRow}
    (kept : ∀ r, (set r).id = r.id)
    (numbered : ∀ u, u.id = id → (entry u).messageID = id ∧ (entry u).seq = maxSeq s.history id + 1) :
    Grows s.history (s.history ++ (updated s id attempt set).map entry) := by
  rcases updated_cases s id attempt set with ⟨r,found,_,one⟩ | ⟨_,none⟩
  · obtain ⟨named,seq⟩ := numbered (set r) ((kept r).trans (Store.row_id found))
    rw [one]
    exact .one (named ▸ seq)
  · rw [none]
    simpa using Grows.refl

/-- A failure is logged before the entry of the row that it transitions, if any. -/
theorem failed_grows (s : Store cfg) (now : Time) (error workerID : String) {id : Uuid} {attempt : Int}
    {set : Row → Row} {entry : Row → HistoryRow}
    (numbered : ∀ u, (entry u).messageID = id ∧
      (entry u).seq = (failedEntry s now id attempt error workerID).seq + 1) :
    Grows s.history
      (s.history ++ failedEntry s now id attempt error workerID :: (updated s id attempt set).map entry) := by
  have first : Grows s.history (s.history ++ [failedEntry s now id attempt error workerID]) := .one rfl
  rcases updated_cases s id attempt set with ⟨r,_,_,one⟩ | ⟨_,none⟩
  · obtain ⟨named,seq⟩ := numbered (set r)
    rw [one, List.map_singleton, List.append_cons]
    refine .next first ?_
    rw [seq, maxSeq_append, named]
    simp [failedEntry]
  · rw [none]
    exact first

theorem succeedStatement_grows (s : Store cfg) (now : Time) (id : Uuid) (attempt : Int) (workerID : String) :
    Grows s.history (succeedStatement s now id attempt workerID).history := by
  unfold succeedStatement
  split
  · exact .refl
  · exact updated_grows s (fun _ => rfl) fun _ named => ⟨named,rfl⟩

theorem failStatement_grows (s : Store cfg) (now : Time) (id : Uuid) (p : FailParams) :
    Grows s.history (failStatement s now id p).history := by
  unfold failStatement
  split
  · split <;> exact .refl
  · split <;> exact failed_grows s now p.err p.workerID fun _ => ⟨rfl,rfl⟩

theorem releaseStatement_grows (s : Store cfg) (now : Time) (id : Uuid) (attempt : Int)
    (workerID reason : String) :
    Grows s.history (releaseStatement s now id attempt workerID reason).history := by
  unfold releaseStatement
  split
  · exact .refl
  · exact updated_grows s (fun _ => rfl) fun _ named => ⟨named,rfl⟩

theorem acks_grows (s : Store cfg) (now : Time) (acks : List (Uuid × BatchSucceedParam)) :
    Grows s.history
      (acks.foldl (fun s q => succeedStatement s now q.1 q.2.attempt q.2.workerID) s).history := by
  induction acks generalizing s with
  | nil => exact .refl
  | cons q rest ih => exact (succeedStatement_grows s now q.1 q.2.attempt q.2.workerID).trans (ih _)

theorem appendHistoryBatch_grows (history : List HistoryRow) (now : Time) (msgs : List InboundMessage)
    (toStatus : Status) (error workerID : String) :
    Grows history (appendHistoryBatch history now msgs toStatus error workerID) := by
  induction msgs generalizing history with
  | nil => exact .refl
  | cons m rest ih =>
    refine Grows.trans ?_ (ih _)
    dsimp only
    cases m.id.parse with
    | none => exact .refl
    | some id => exact .one rfl

theorem enqueue_history (s : Store cfg) (env : Env) (p : EnqueueParams) :
    (enqueue s env p).1.history = s.history := by
  rcases enqueue_cases s env p with same | ⟨messages,_,_,same⟩ <;> rw [same]

theorem enqueueBatch_history (s : Store cfg) (env : Env) (ps : List EnqueueParams) :
    (enqueueBatch s env ps).1.history = s.history := by
  unfold enqueueBatch
  split
  · rfl
  · dsimp only
    split
    · split <;> rfl
    · rfl

theorem extend_history (s : Store cfg) (env : Env) (id : MessageID) (workerID : String) (until_ : Time) :
    (extend s env id workerID until_).1.history = s.history := by
  cases id <;> rfl

theorem exec_grows (s : Store cfg) (env : Env) (call : Call) :
    Grows s.history (exec s env call).1.history := by
  cases call with
  | enqueue p => exact enqueue_history s env p ▸ .refl
  | enqueueBatch ps => exact enqueueBatch_history s env ps ▸ .refl
  | claim p =>
    simp only [exec, claim]
    split
    · exact .refl
    · exact appendHistoryBatch_grows ..
  | succeed id attempt workerID =>
    cases id with
    | malformed text => exact .refl
    | uuid mid => exact succeedStatement_grows ..
  | batchSucceed params =>
    simp only [exec, batchSucceed]
    split
    · exact .refl
    · exact acks_grows ..
  | fail p =>
    simp only [exec, fail]
    cases p.messageID with
    | malformed text => exact .refl
    | uuid mid => exact failStatement_grows ..
  | releaseShutdown id attempt workerID reason =>
    cases id with
    | malformed text => exact .refl
    | uuid mid => exact releaseStatement_grows ..
  | extend id workerID until_ => exact extend_history s env id workerID until_ ▸ .refl
  | requeue id processAt =>
    cases id with
    | malformed text => exact .refl
    | uuid mid =>
      simp only [exec, requeue, MessageID.parse]
      split
      · exact .one rfl
      · exact .refl
  | reclaimExpired limit => exact .refl
  | purgeTerminal before limit => exact .refl

theorem perform_ordered (s : Store cfg) (request : Request) (ordered : Ordered s.history) :
    Ordered (perform s request).1.history := by
  cases request with
  | call env call => exact (exec_grows s env call).ordered ordered
  | purgeHistory scan before limit => exact ordered.sublist List.filter_sublist

theorem replay_ordered (s : Store cfg) (requests : List Request) (ordered : Ordered s.history) :
    Ordered (replay s requests).history := by
  induction requests generalizing s with
  | nil => exact ordered
  | cons request rest ih => exact ih _ (perform_ordered s request ordered)

/-! ### HistoryOff -/

def Request.isRequeue : Request → Bool
  | .call _ (.requeue _ _) => true
  | _ => false

/-- Without the log only a Requeue writes to it. -/
theorem perform_off (off : cfg.historyPolicy = .off) (s : Store cfg) (request : Request)
    (other : request.isRequeue = false) : (perform s request).1.history.Sublist s.history := by
  cases request with
  | purgeHistory scan before limit => exact List.filter_sublist
  | call env call =>
    suffices kept : (perform s (.call env call)).1.history = s.history from kept ▸ List.Sublist.refl _
    cases call with
    | enqueue p => exact enqueue_history s env p
    | enqueueBatch ps => exact enqueueBatch_history s env ps
    | claim p => simp only [perform, exec, claim, off, if_true]
    | succeed id attempt workerID =>
      cases id with
      | malformed text => rfl
      | uuid mid => simp only [perform, exec, succeed, MessageID.parse, succeedStatement, off, if_true]
    | batchSucceed params =>
      simp only [perform, exec, batchSucceed, succeedStatement, off, if_true]
      split
      · rfl
      · generalize queued params = acks
        induction acks generalizing s with
        | nil => rfl
        | cons q rest ih => exact ih _
    | fail p =>
      simp only [perform, exec, fail]
      cases p.messageID with
      | malformed text => rfl
      | uuid mid =>
        simp only [MessageID.parse, failStatement, off, if_true]
        split <;> rfl
    | releaseShutdown id attempt workerID reason =>
      cases id with
      | malformed text => rfl
      | uuid mid => simp only [perform, exec, releaseShutdown, MessageID.parse, releaseStatement, off, if_true]
    | extend id workerID until_ => exact extend_history s env id workerID until_
    | requeue id processAt => cases other
    | reclaimExpired limit => rfl
    | purgeTerminal before limit => rfl

/-! ### The two policies side by side -/

/-- The message tables that a run goes through and what its requests return, as far as
`view` lets a reply be seen. -/
def transcript (view : Request → Reply → Reply) (s : Store cfg) : List Request → List (List Row × Reply)
  | [] => []
  | request :: rest =>
    ((perform s request).1.messages.rows, view request (perform s request).2) ::
      transcript view (perform s request).1 rest

/-- PurgeHistory counts rows of the log itself; every other reply is seen as it is. -/
def beyondLog : Request → Reply → Reply
  | .call _ _, reply => reply
  | .purgeHistory _ _ _, _ => .count 0

theorem perform_silent {s : Store cfg} {t : Store (silent cfg)} (same : t.messages = s.messages)
    (request : Request) : (perform t request).1.messages = (perform s request).1.messages ∧
      beyondLog request (perform t request).2 = beyondLog request (perform s request).2 := by
  cases request with
  | call env call => exact exec_silent same env call
  | purgeHistory scan before limit => exact ⟨same,rfl⟩

theorem transcript_silent {s : Store cfg} {t : Store (silent cfg)} (same : t.messages = s.messages)
    (requests : List Request) : transcript beyondLog t requests = transcript beyondLog s requests := by
  induction requests generalizing s t with
  | nil => rfl
  | cons request rest ih =>
    obtain ⟨tables,replies⟩ := perform_silent same request
    simp only [transcript]
    rw [replies, ih tables, tables]

/-- Under HistoryFull and HistoryOff the same requests go through the same message tables
and return the same, except for the count of PurgeHistory; the key of the log is never
violated; and under HistoryOff nothing but a Requeue adds to the log. -/
theorem history_observes (partitioned : Bool) (requests : List Request) :
    transcript beyondLog (Store.empty : Store ⟨partitioned, .full⟩) requests =
      transcript beyondLog (Store.empty : Store ⟨partitioned, .off⟩) requests ∧
    (∀ policy, Keyed (replay (Store.empty : Store ⟨partitioned, policy⟩) requests).history) ∧
    ∀ request : Request, request.isRequeue = false →
      (perform (replay (Store.empty : Store ⟨partitioned, .off⟩) requests) request).1.history.Sublist
        (replay (Store.empty : Store ⟨partitioned, .off⟩) requests).history := by
  refine ⟨?_,?_,?_⟩
  · exact (@transcript_silent ⟨partitioned,.full⟩ Store.empty Store.empty rfl requests).symm
  · intro policy
    exact (replay_ordered Store.empty requests List.Pairwise.nil).keyed
  · intro request other
    exact perform_off rfl _ request other

theorem history_observes_claim :
    (Request.call (Env.quiet 6 0) (fetchAll "w")).isRequeue = false ∧
    (perform (replay (Store.empty : Store ⟨false, .off⟩)
        [.call (Env.quiet 5 7) (.enqueue (plainParams "mail" 3))]) (.call (Env.quiet 6 0) (fetchAll "w"))).1.history.Sublist
      (replay (Store.empty : Store ⟨false, .off⟩)
        [.call (Env.quiet 5 7) (.enqueue (plainParams "mail" 3))]).history :=
  ⟨rfl,(history_observes false [.call (Env.quiet 5 7) (.enqueue (plainParams "mail" 3))]).2.2 _ rfl⟩

/-- A purge of the log after one claim reports one row or none. -/
theorem purgeHistory_counts_log :
    transcript (fun _ reply => reply) (Store.empty : Store ⟨false, .full⟩)
        [.call (Env.quiet 5 7) (.enqueue (plainParams "mail" 3)), .call (Env.quiet 6 0) (fetchAll "w"),
          .purgeHistory (Scan.physical HistoryRow) 9 0] ≠
      transcript (fun _ reply => reply) (Store.empty : Store ⟨false, .off⟩)
        [.call (Env.quiet 5 7) (.enqueue (plainParams "mail" 3)), .call (Env.quiet 6 0) (fetchAll "w"),
          .purgeHistory (Scan.physical HistoryRow) 9 0] := by
  intro same
  have counted := congrArg (fun entries => entries.map fun entry =>
    match entry.2 with
    | .count n => n
    | _ => 0) same
  exact absurd counted (by decide +kernel)

end Tickr.Postgres
