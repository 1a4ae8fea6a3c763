import Tickr.Postgres

/-! What one call can do to one row. `exec_row` says it once for the whole adapter; every
invariant of a run is derived from it without looking at a statement again. -/
namespace Tickr.Postgres

open KeyedTable

variable {cfg : Config}

/-- The columns of one row before and after one call. -/
inductive RowStep (env : Env) (id : Uuid) : Call → Option Row → Option Row → Prop where
  | same : RowStep env id call row row
  | enqueue : id = env.newID 0 → RowStep env id (.enqueue p) none (some (enqueueRow env 0 p))
  | enqueueBatch : id = env.newID i → ps[i]? = some p →
      RowStep env id (.enqueueBatch ps) none (some (enqueueRow env i p))
  | claim : r.status.pending = true → r.processAt ≤ env.now statement →
      RowStep env id (.claim p) (some r)
        (some (claimSet (env.now statement) p.workerID (claimLeaseSec p) r))
  | succeed : r.status = .handling → r.attempt = attempt →
      RowStep env id (.succeed (.uuid id) attempt workerID) (some r) (some (succeedSet (env.now 0) r))
  | batchSucceed : r.status = .handling → p ∈ params → p.messageID = .uuid id → r.attempt = p.attempt →
      RowStep env id (.batchSucceed params) (some r) (some (succeedSet (env.now 0) r))
  | failRetry : r.status = .handling → p.messageID = .uuid id → r.attempt = p.attempt → p.dead = false →
      RowStep env id (.fail p) (some r) (some (failRetrySet (env.now 0) p.err p.nextRetryAt r))
  | failDead : r.status = .handling → p.messageID = .uuid id → r.attempt = p.attempt → p.dead = true →
      RowStep env id (.fail p) (some r) (some (failDeadSet (env.now 0) p.err r))
  | releaseShutdown : r.status = .handling → r.attempt = attempt →
      RowStep env id (.releaseShutdown (.uuid id) attempt workerID reason) (some r)
        (some (releaseShutdownSet (env.now 0) reason r))
  | extend : r.status = .handling → r.claimedBy = some workerID →
      RowStep env id (.extend (.uuid id) workerID until_) (some r) (some (extendSet (env.now 0) until_ r))
  | requeue : r.status = .dead →
      RowStep env id (.requeue (.uuid id) processAt) (some r)
        (some (requeueSet (env.now 0) (processAt.getD (env.clock 0)) r))
  | reclaimExpired : r.status = .handling → r.claimedUntil = some t → t < env.now 0 →
      RowStep env id (.reclaimExpired limit) (some r) (some (reclaimSet (env.now 0) r))
  | purgeTerminal : r.status.terminal = true → r.completedAt = some t → t < before →
      RowStep env id (.purgeTerminal before limit) (some r) none

theorem Store.row_id {s : Store cfg} {k : Uuid} {r : Row} (found : s.row k = some r) : r.id = k :=
  Table.find?_key found

theorem Store.row_of_mem {s : Store cfg} {r : Row} (member : r ∈ s.messages.rows) : s.row r.id = some r :=
  Table.find?_of_mem member

theorem Store.row_mem {s : Store cfg} {k : Uuid} {r : Row} (found : s.row k = some r) :
    r ∈ s.messages.rows := Table.find?_mem found

@[simp] theorem Store.row_empty (k : Uuid) : (Store.empty : Store cfg).row k = none := rfl

/-! ### Statements guarded by id, status and attempt -/

theorem succeedStatement_messages (s : Store cfg) (now : Time) (id : Uuid) (attempt : Int)
    (workerID : String) : (succeedStatement s now id attempt workerID).messages =
      succeedNoHistorySQL s.messages now id attempt := by
  unfold succeedStatement
  split <;> rfl

theorem failStatement_messages (s : Store cfg) (now : Time) (id : Uuid) (p : FailParams) :
    (failStatement s now id p).messages =
      if p.dead then failDeadNoHistorySQL s.messages now id p.attempt p.err
      else failRetryNoHistorySQL s.messages now id p.attempt p.err p.nextRetryAt := by
  unfold failStatement
  split <;> split <;> rfl

theorem releaseStatement_messages (s : Store cfg) (now : Time) (id : Uuid) (attempt : Int)
    (workerID reason : String) : (releaseStatement s now id attempt workerID reason).messages =
      releaseShutdownNoHistorySQL s.messages now id attempt reason := by
  unfold releaseStatement
  split <;> rfl

theorem succeedStatement_row (s : Store cfg) (now : Time) (id : Uuid) (attempt : Int)
    (workerID : String) (k : Uuid) :
    (succeedStatement s now id attempt workerID).row k =
      (s.row k).map (when (holds id attempt) (succeedSet now)) := by
  rw [Store.row, succeedStatement_messages]
  exact Table.find?_update ..

theorem failStatement_row (s : Store cfg) (now : Time) (id : Uuid) (p : FailParams) (k : Uuid) :
    (failStatement s now id p).row k =
      (s.row k).map (when (holds id p.attempt)
        (if p.dead then failDeadSet now p.err else failRetrySet now p.err p.nextRetryAt)) := by
  rw [Store.row, failStatement_messages]
  split <;> exact Table.find?_update ..

theorem releaseStatement_row (s : Store cfg) (now : Time) (id : Uuid) (attempt : Int)
    (workerID reason : String) (k : Uuid) :
    (releaseStatement s now id attempt workerID reason).row k =
      (s.row k).map (when (holds id attempt) (releaseShutdownSet now reason)) := by
  rw [Store.row, releaseStatement_messages]
  exact Table.find?_update ..

theorem holds_iff {id : Uuid} {attempt : Int} {r : Row} :
    holds id attempt r = true ↔ r.id = id ∧ r.status = .handling ∧ r.attempt = attempt := by
  simp [holds, and_assoc]

theorem acks_messages (s : Store cfg) (now : Time) (acks : List (Uuid × BatchSucceedParam)) :
    (acks.foldl (fun s q => succeedStatement s now q.1 q.2.attempt q.2.workerID) s).messages =
      acks.foldl (fun m q => succeedNoHistorySQL m now q.1 q.2.attempt) s.messages :=
  (List.foldl_hom Store.messages fun s q =>
    (succeedStatement_messages s now q.1 q.2.attempt q.2.workerID).symm).symm

/-- The acknowledgements of a batch, one after the other, on one row: a row that one of
them transitions is terminal for the rest. -/
theorem acks_row (s : Store cfg) (now : Time) (acks : List (Uuid × BatchSucceedParam)) (k : Uuid) :
    ((acks.foldl (fun s q => succeedStatement s now q.1 q.2.attempt q.2.workerID) s).row k) =
      (s.row k).map (when (fun r => acks.any fun q => holds q.1 q.2.attempt r) (succeedSet now)) := by
  have once : acks.foldl (fun m q => succeedNoHistorySQL m now q.1 q.2.attempt) s.messages =
      s.messages.update (fun r => acks.any fun q => holds q.1 q.2.attempt r)
        ⟨succeedSet now, fun _ => rfl, fun _ => rfl⟩ := by
    apply Table.foldl_update fun q : Uuid × BatchSucceedParam => holds q.1 q.2.attempt
    simp [holds, succeedSet]
  rw [Store.row, acks_messages, once]
  exact Table.find?_update ..

theorem mem_queued {params : List BatchSucceedParam} {q : Uuid × BatchSucceedParam} :
    q ∈ queued params ↔ q.2 ∈ params ∧ q.2.messageID = .uuid q.1 := by
  obtain ⟨mid,p⟩ := q
  simp only [queued, List.mem_filterMap, Option.map_eq_some_iff, MessageID.parse_eq_some, Prod.mk.injEq]
  constructor
  · rintro ⟨p',member,mid',parsed,rfl,rfl⟩
    exact ⟨member,parsed⟩
  · rintro ⟨member,parsed⟩
    exact ⟨p,member,mid,parsed,rfl,rfl⟩

/-- A batch without malformed ids has a result for every parameter. -/
theorem queued_length {params : List BatchSucceedParam} :
    (queued params).length < params.length ↔ ¬∀ p ∈ params, p.messageID.parse.isSome = true := by
  have within : (queued params).length ≤ params.length := List.length_filterMap_le _ _
  have all : (queued params).length = params.length ↔ ∀ p ∈ params, p.messageID.parse.isSome = true := by
    simp [queued, List.filterMap_length_eq_length]
  rw [← all]
  omega

theorem queued_cons {p : BatchSucceedParam} {mid : Uuid} (parsed : p.messageID.parse = some mid)
    (rest : List BatchSucceedParam) : queued (p :: rest) = (mid,p) :: queued rest := by
  simp [queued, parsed]

theorem queued_params {params : List BatchSucceedParam} (parsed : ∀ p ∈ params, p.messageID.parse.isSome = true) :
    (queued params).map Prod.snd = params := by
  induction params with
  | nil => rfl
  | cons p rest ih =>
    obtain ⟨first,later⟩ := List.forall_mem_cons.mp parsed
    obtain ⟨mid,named⟩ := Option.isSome_iff_exists.mp first
    rw [queued_cons named, List.map_cons, ih later]

theorem batchSucceed_row (s : Store cfg) (env : Env) (params : List BatchSucceedParam) (k : Uuid) :
    (batchSucceed s env params).1.row k = s.row k ∨
    (batchSucceed s env params).1.row k =
      (s.row k).map (when (fun r => (queued params).any fun q => holds q.1 q.2.attempt r)
        (succeedSet (env.now 0))) := by
  unfold batchSucceed
  split
  · exact Or.inl rfl
  · exact Or.inr (acks_row s (env.now 0) (queued params) k)

/-! ### Enqueue -/

theorem insert_row {messages next : Messages cfg} {row : Row} (inserted : messages.insert row = .inserted next)
    (k : Uuid) : next.find? k = if row.id = k then some row else messages.find? k :=
  Table.find?_insert inserted k

theorem insert_absent {messages next : Messages cfg} {row : Row}
    (inserted : messages.insert row = .inserted next) : messages.find? row.id = none :=
  Table.find?_eq_none.mpr (Table.insert_inserted inserted).2

/-- An enqueue leaves the table alone or inserts its row, after a look-up that found none. -/
theorem enqueue_cases (s : Store cfg) (env : Env) (p : EnqueueParams) :
    (enqueue s env p).1 = s ∨ ∃ messages, partitionedLookup s env p = none ∧
      s.messages.insert (enqueueRow env 0 p) = .inserted messages ∧ (enqueue s env p).1 = { s with messages } := by
  unfold enqueue
  cases looked : partitionedLookup s env p with
  | some existing => exact Or.inl rfl
  | none =>
    dsimp only
    split
    · cases inserted : s.messages.insert (enqueueRow env 0 p) with
      | inserted messages => exact Or.inr ⟨messages,rfl,rfl,rfl⟩
      | duplicateKey => exact Or.inl rfl
      | conflict =>
        dsimp only
        split
        · exact Or.inl rfl
        · split <;> exact Or.inl rfl
    · exact Or.inl rfl

theorem enqueue_row (s : Store cfg) (env : Env) (p : EnqueueParams) (k : Uuid) :
    (enqueue s env p).1.row k = s.row k ∨
    (k = env.newID 0 ∧ s.row k = none ∧ (enqueue s env p).1.row k = some (enqueueRow env 0 p)) := by
  rcases enqueue_cases s env p with same | ⟨messages,_,inserted,same⟩
  · rw [same]
    exact Or.inl rfl
  · have found := insert_row inserted k
    rw [same]
    by_cases new : (enqueueRow env 0 p).id = k
    · rw [if_pos new] at found
      exact Or.inr ⟨new.symm,new ▸ insert_absent inserted,found⟩
    · rw [if_neg new] at found
      exact Or.inl found

/-- The batch statement skips its first row or inserts it, and goes on. -/
theorem batchInsertSQL_cons {row : Row} {rows : List Row} {messages final : Messages cfg} {out : List Row}
    (inserted : batchInsertSQL messages (row :: rows) = some (final,out)) :
    (messages.insert row = .conflict ∧ batchInsertSQL messages rows = some (final,out)) ∨
    ∃ next later, messages.insert row = .inserted next ∧ batchInsertSQL next rows = some (final,later) ∧
      out = row :: later := by
  unfold batchInsertSQL at inserted
  split at inserted
  · exact Or.inl ⟨‹_›,inserted⟩
  · cases inserted
  · rename_i next first
    obtain ⟨result,later,eq⟩ := Option.map_eq_some_iff.mp inserted
    cases eq
    exact Or.inr ⟨next,result.2,first,later,rfl⟩

theorem batchInsertSQL_rows {rows : List Row} {messages final : Messages cfg} {out : List Row}
    (inserted : batchInsertSQL messages rows = some (final,out)) : final.rows = messages.rows ++ out := by
  induction rows generalizing messages out with
  | nil =>
    cases inserted
    exact (List.append_nil _).symm
  | cons row rest ih =>
    rcases batchInsertSQL_cons inserted with ⟨_,later⟩ | ⟨next,later,first,remaining,rfl⟩
    · exact ih later
    · rw [ih remaining, (Table.insert_inserted first).1, List.append_assoc]
      rfl

theorem batchInsertSQL_row {rows : List Row} {messages next : Messages cfg} {out : List Row}
    (inserted : batchInsertSQL messages rows = some (next,out)) (k : Uuid) :
    next.find? k = messages.find? k ∨
    (messages.find? k = none ∧ ∃ row ∈ rows, row.id = k ∧ next.find? k = some row) := by
  induction rows generalizing messages out with
  | nil =>
    simp only [batchInsertSQL, Option.some.injEq, Prod.mk.injEq] at inserted
    exact Or.inl (by rw [inserted.1])
  | cons row rest ih =>
    rcases batchInsertSQL_cons inserted with ⟨_,later⟩ | ⟨middle,returned,first,later,rfl⟩
    · rcases ih later with same | ⟨absent,r,member,named,found⟩
      · exact Or.inl same
      · exact Or.inr ⟨absent,r,List.mem_cons_of_mem _ member,named,found⟩
    · have head := insert_row first k
      by_cases same : row.id = k
      · have present : middle.find? k = some row := by simpa [same] using head
        have absent : messages.find? k = none := same ▸ insert_absent first
        rcases ih later with unchanged | ⟨impossible,_⟩
        · exact Or.inr ⟨absent,row,by simp,same,unchanged.trans present⟩
        · rw [present] at impossible; cases impossible
      · have frame : middle.find? k = messages.find? k := by simpa [same] using head
        rcases ih later with unchanged | ⟨absent,r,member,named,found⟩
        · exact Or.inl (unchanged.trans frame)
        · exact Or.inr ⟨frame ▸ absent,r,List.mem_cons_of_mem _ member,named,found⟩

theorem mem_batchRows {env : Env} {ps : List EnqueueParams} {row : Row} :
    row ∈ batchRows env ps ↔ ∃ i p, ps[i]? = some p ∧ row = enqueueRow env i p := by
  simp only [batchRows, List.mem_mapIdx]
  constructor
  · rintro ⟨i,bound,rfl⟩
    exact ⟨i,ps[i],List.getElem?_eq_getElem bound,rfl⟩
  · rintro ⟨i,p,found,rfl⟩
    obtain ⟨bound,rfl⟩ := List.getElem?_eq_some_iff.mp found
    exact ⟨i,bound,rfl⟩

theorem enqueueBatch_row (s : Store cfg) (env : Env) (ps : List EnqueueParams) (k : Uuid) :
    (enqueueBatch s env ps).1.row k = s.row k ∨
    (s.row k = none ∧ ∃ i p, ps[i]? = some p ∧ k = env.newID i ∧
      (enqueueBatch s env ps).1.row k = some (enqueueRow env i p)) := by
  unfold enqueueBatch
  split
  · exact Or.inl rfl
  · dsimp only
    split
    · split
      · exact Or.inl rfl
      · rename_i messages out inserted
        rcases batchInsertSQL_row inserted k with same | ⟨absent,row,member,named,found⟩
        · exact Or.inl same
        · obtain ⟨i,p,at_,rfl⟩ := mem_batchRows.mp member
          exact Or.inr ⟨absent,i,p,at_,named.symm,found⟩
    · exact Or.inl rfl

/-! ### Claim -/

theorem mem_claimChosen {messages : Messages cfg} {env : Env} {statement : Nat}
    {eventTypes : Option (List String)} {batch : Nat} {shard : Option Int} {k : Uuid}
    (member : k ∈ claimChosen messages env statement eventTypes batch shard) :
    ∃ r, messages.find? k = some r ∧ eligible env statement eventTypes shard r = true := by
  obtain ⟨r,taken,rfl⟩ := List.mem_map.mp member
  have sorted := List.mem_of_mem_take taken
  rw [List.mem_insertionSort, List.mem_filter] at sorted
  exact ⟨r,Table.find?_of_mem sorted.1,sorted.2⟩

/-- A claim with room for the whole table passes over no eligible row. -/
theorem claimChosen_all {messages : Messages cfg} {env : Env} {statement : Nat}
    {eventTypes : Option (List String)} {batch : Nat} {shard : Option Int} {r : Row}
    (member : r ∈ messages.rows) (fits : eligible env statement eventTypes shard r = true)
    (room : messages.rows.length ≤ batch) :
    r.id ∈ claimChosen messages env statement eventTypes batch shard := by
  unfold claimChosen
  rw [List.take_of_length_le]
  · exact List.mem_map_of_mem (List.mem_insertionSort _ |>.mpr (List.mem_filter.mpr ⟨member,fits⟩))
  · rw [List.length_insertionSort]
    exact (List.length_filter_le _ _).trans room

theorem eligible_iff {env : Env} {statement : Nat} {eventTypes : Option (List String)}
    {shard : Option Int} {r : Row} : eligible env statement eventTypes shard r = true ↔
      r.status.pending = true ∧ (∀ s, shard = some s → r.shard = s) ∧ r.processAt ≤ env.now statement ∧
      (∀ types, eventTypes = some types → r.eventType ∈ types) ∧ env.locked statement r.id = false := by
  cases shard <;> cases eventTypes <;> simp [eligible, and_assoc]

section
variable {messages : Messages cfg} {env : Env} {statement : Nat} {eventTypes : Option (List String)}
  {batch : Nat} {workerID : String} {leaseSec : Int} {shard : Option Int}

theorem claimSQL_row (k : Uuid) :
    (claimSQL messages env statement eventTypes batch workerID leaseSec shard).1.find? k =
      (messages.find? k).map (when
        (fun row => row.id ∈ claimChosen messages env statement eventTypes batch shard)
        (claimSet (env.now statement) workerID leaseSec)) := Table.find?_update ..

theorem mem_claimSQL {m : InboundMessage} :
    m ∈ (claimSQL messages env statement eventTypes batch workerID leaseSec shard).2 ↔
      ∃ r ∈ messages.rows, r.id ∈ claimChosen messages env statement eventTypes batch shard ∧
        m = scanMessage (claimSet (env.now statement) workerID leaseSec r) := by
  simp only [claimSQL, List.mem_map, Table.mem_select_update]
  constructor
  · rintro ⟨_,⟨r,member,chosen,rfl⟩,rfl⟩
    exact ⟨r,member,chosen,rfl⟩
  · rintro ⟨r,member,chosen,rfl⟩
    exact ⟨_,⟨r,member,chosen,rfl⟩,rfl⟩

/-- Each claimed row is returned once. -/
theorem claimSQL_nodup :
    ((claimSQL messages env statement eventTypes batch workerID leaseSec shard).2.map
      InboundMessage.id).Nodup := by
  simp only [claimSQL, List.map_map]
  have wrap : (InboundMessage.id ∘ scanMessage) = MessageID.uuid ∘ Row.id := rfl
  rw [wrap, ← List.map_map]
  exact (Table.select_nodup _ _ _).map fun _ _ same => MessageID.uuid.inj same

/-- A claim statement that returned nothing has changed nothing. -/
theorem claimSQL_nil
    (nothing : (claimSQL messages env statement eventTypes batch workerID leaseSec shard).2 = []) :
    (claimSQL messages env statement eventTypes batch workerID leaseSec shard).1 = messages := by
  apply Table.update_idle
  intro r member
  have absent : r.id ∉ claimChosen messages env statement eventTypes batch shard := by
    intro chosen
    have returned : scanMessage (claimSet (env.now statement) workerID leaseSec r) ∈
        (claimSQL messages env statement eventTypes batch workerID leaseSec shard).2 :=
      mem_claimSQL.mpr ⟨r,member,chosen,rfl⟩
    rw [nothing] at returned
    cases returned
  simpa using absent

end

/-- Only one of the two passes of a claim takes effect. -/
theorem claimPasses_eq (messages : Messages cfg) (env : Env) (p : ClaimParams) :
    ∃ statement shard, claimPasses messages env p =
      claimSQL messages env statement (claimTypes p) (claimBatch p) p.workerID (claimLeaseSec p) shard := by
  unfold claimPasses
  dsimp only
  split
  · rename_i nothing
    rw [claimSQL_nil nothing]
    exact ⟨1,none,rfl⟩
  · exact ⟨0,some (env.pickShard 0),rfl⟩

/-- What a claim did: the chosen rows were eligible at its statement, exactly they became
HANDLING under the next attempt, and exactly they are returned. -/
structure Claimed (s after : Store cfg) (env : Env) (p : ClaimParams) (msgs : List InboundMessage)
    (statement : Nat) (chosen : List Uuid) : Prop where
  eligible : ∀ k ∈ chosen, ∃ r, s.row k = some r ∧ r.status.pending = true ∧
    r.processAt ≤ env.now statement
  row : ∀ k, after.row k = (s.row k).map (when (fun r => r.id ∈ chosen)
    (claimSet (env.now statement) p.workerID (claimLeaseSec p)))
  returned : ∀ m, m ∈ msgs ↔ ∃ k ∈ chosen, ∃ r, s.row k = some r ∧
    m = scanMessage (claimSet (env.now statement) p.workerID (claimLeaseSec p) r)
  nodup : (msgs.map InboundMessage.id).Nodup

theorem claim_spec (s : Store cfg) (env : Env) (p : ClaimParams) :
    ∃ statement chosen, Claimed s (claim s env p).1 env p (claim s env p).2 statement chosen := by
  obtain ⟨statement,shard,passes⟩ := claimPasses_eq s.messages env p
  refine ⟨statement,claimChosen s.messages env statement (claimTypes p) (claimBatch p) shard,?_,?_,?_,?_⟩
  · intro k member
    obtain ⟨r,found,fits⟩ := mem_claimChosen member
    obtain ⟨pending,_,due,_⟩ := eligible_iff.mp fits
    exact ⟨r,found,pending,due⟩
  · intro k
    simp only [claim, Store.row, passes]
    exact claimSQL_row k
  · intro m
    simp only [claim, passes, mem_claimSQL]
    constructor
    · rintro ⟨r,member,chosen,rfl⟩
      exact ⟨r.id,chosen,r,Store.row_of_mem member,rfl⟩
    · rintro ⟨k,chosen,r,found,rfl⟩
      exact ⟨r,Store.row_mem found,Store.row_id found ▸ chosen,rfl⟩
  · simp only [claim, passes]
    exact claimSQL_nodup

/-- A claim at a shard with room for the whole table takes every eligible row of it. -/
theorem claim_takes {s : Store cfg} {env : Env} {p : ClaimParams} {r : Row} (member : r ∈ s.messages.rows)
    (fits : eligible env 0 (claimTypes p) (some (env.pickShard 0)) r = true)
    (room : s.messages.rows.length ≤ claimBatch p) :
    (claim s env p).1.row r.id = some (claimSet (env.now 0) p.workerID (claimLeaseSec p) r) ∧
    scanMessage (claimSet (env.now 0) p.workerID (claimLeaseSec p) r) ∈ (claim s env p).2 := by
  have chosen := claimChosen_all member fits room
  have returned : scanMessage (claimSet (env.now 0) p.workerID (claimLeaseSec p) r) ∈
      (claimSQL s.messages env 0 (claimTypes p) (claimBatch p) p.workerID (claimLeaseSec p)
        (some (env.pickShard 0))).2 := mem_claimSQL.mpr ⟨r,member,chosen,rfl⟩
  have passes : claimPasses s.messages env p = claimSQL s.messages env 0 (claimTypes p) (claimBatch p)
      p.workerID (claimLeaseSec p) (some (env.pickShard 0)) := by
    unfold claimPasses
    dsimp only
    exact if_neg (List.ne_nil_of_mem returned)
  simp only [claim, Store.row, passes]
  refine ⟨?_,returned⟩
  rw [claimSQL_row, Table.find?_of_mem member, Option.map_some, when, if_pos (decide_eq_true chosen)]

/-! ### ReclaimExpired, PurgeTerminal -/

theorem expired_iff {env : Env} {r : Row} : expired env r = true ↔
    r.status = .handling ∧ (∃ t, r.claimedUntil = some t ∧ t < env.now 0) ∧ env.locked 0 r.id = false := by
  simp [expired, Option.any_eq_true, and_assoc]

theorem mem_reclaimChosen {messages : Messages cfg} {env : Env} {limit : Nat} {k : Uuid}
    (member : k ∈ reclaimChosen messages env limit) :
    ∃ r, messages.find? k = some r ∧ expired env r = true := by
  obtain ⟨r,taken,rfl⟩ := List.mem_map.mp member
  have visited := List.mem_of_mem_take taken
  rw [List.mem_filter, Scan.mem_visit] at visited
  exact ⟨r,Table.find?_of_mem visited.1,visited.2⟩

theorem mem_purgeChosen {messages : Messages cfg} {env : Env} {before : Time} {limit : Nat} {k : Uuid}
    (member : k ∈ purgeChosen messages env before limit) :
    ∃ r, messages.find? k = some r ∧ purgeable before r = true := by
  obtain ⟨r,taken,rfl⟩ := List.mem_map.mp member
  have visited := List.mem_of_mem_take taken
  rw [List.mem_insertionSort, List.mem_filter, Scan.mem_visit] at visited
  exact ⟨r,Table.find?_of_mem visited.1,visited.2⟩

theorem reclaimExpired_row (s : Store cfg) (env : Env) (limit : Int) (k : Uuid) :
    (reclaimExpired s env limit).1.row k =
      (s.row k).map (when (fun r => r.id ∈ reclaimChosen s.messages env (limitOr 500 limit))
        (reclaimSet (env.now 0))) := Table.find?_update ..

theorem reclaim_takes {s : Store cfg} {env : Env} {limit : Int} {r : Row} (member : r ∈ s.messages.rows)
    (lapsed : expired env r = true) (room : s.messages.rows.length ≤ limitOr 500 limit) :
    (reclaimExpired s env limit).1.row r.id = some (reclaimSet (env.now 0) r) := by
  have chosen : r.id ∈ reclaimChosen s.messages env (limitOr 500 limit) := by
    unfold reclaimChosen
    rw [List.take_of_length_le]
    · exact List.mem_map_of_mem (List.mem_filter.mpr ⟨env.scan.mem_visit.mpr member,lapsed⟩)
    · exact (List.length_filter_le _ _).trans ((env.scan.perm _).length_eq.trans_le room)
  rw [reclaimExpired_row, Store.row_of_mem member, Option.map_some, when, if_pos (decide_eq_true chosen)]

theorem purgeTerminal_row (s : Store cfg) (env : Env) (before : Time) (limit : Int) (k : Uuid) :
    (purgeTerminal s env before limit).1.row k =
      (s.row k).filter (fun r => !decide (r.id ∈ purgeChosen s.messages env before (limitOr 5000 limit))) :=
  Table.find?_delete ..

/-! ### Extend, Requeue -/

theorem owns_iff {id : Uuid} {workerID : String} {r : Row} :
    owns id workerID r = true ↔ r.id = id ∧ r.status = .handling ∧ r.claimedBy = some workerID := by
  simp [owns, and_assoc]

theorem isDead_iff {id : Uuid} {r : Row} : isDead id r = true ↔ r.id = id ∧ r.status = .dead := by
  simp [isDead]

theorem extendSQL_row (messages : Messages cfg) (now : Time) (id : Uuid) (workerID : String)
    (until_ : Time) (k : Uuid) : (extendSQL messages now id workerID until_).find? k =
      (messages.find? k).map (when (owns id workerID) (extendSet now until_)) := Table.find?_update ..

theorem requeueSQL_row (messages : Messages cfg) (now : Time) (id : Uuid) (processAt : Time) (k : Uuid) :
    (requeueSQL messages now id processAt).find? k =
      (messages.find? k).map (when (isDead id) (requeueSet now processAt)) := Table.find?_update ..

/-! ### One call, one row -/

/-- A guarded UPDATE is a step of the row as soon as it is one wherever its guard fires. -/
theorem RowStep.update {env : Env} {k : Uuid} {call : Call} {before after : Option Row}
    {guard : Row → Bool} {set : Row → Row} (row : after = before.map (when guard set))
    (fires : ∀ r, before = some r → guard r = true → RowStep env k call (some r) (some (set r))) :
    RowStep env k call before after := by
  subst row
  cases before with
  | none => exact .same
  | some r =>
    by_cases on : guard r = true
    · simpa [when, on] using fires r rfl on
    · simpa [when, on] using RowStep.same

theorem exec_row (s : Store cfg) (env : Env) (call : Call) (k : Uuid) :
    RowStep env k call (s.row k) ((exec s env call).1.row k) := by
  cases call with
  | enqueue p =>
    rcases enqueue_row s env p k with same | ⟨named,absent,found⟩
    · simp only [exec, same]; exact .same
    · simp only [exec, absent, found]; exact .enqueue named
  | enqueueBatch ps =>
    rcases enqueueBatch_row s env ps k with same | ⟨absent,i,p,at_,named,found⟩
    · simp only [exec, same]; exact .same
    · simp only [exec, absent, found]; exact .enqueueBatch named at_
  | claim p =>
    obtain ⟨statement,chosen,spec⟩ := claim_spec s env p
    refine .update (spec.row k) fun r found on => ?_
    obtain ⟨r',found',pending,due⟩ := spec.eligible _ (of_decide_eq_true on)
    rw [Store.row_id found, found] at found'
    cases found'
    exact .claim pending due
  | succeed id attempt workerID =>
    cases id with
    | malformed text => exact .same
    | uuid mid =>
      refine .update (succeedStatement_row s (env.now 0) mid attempt workerID k) fun r found on => ?_
      obtain ⟨named,handling,current⟩ := holds_iff.mp on
      obtain rfl : mid = k := named.symm.trans (Store.row_id found)
      exact .succeed handling current
  | batchSucceed params =>
    rcases batchSucceed_row s env params k with same | row
    · simp only [exec, same]; exact .same
    · refine .update row fun r found on => ?_
      obtain ⟨q,member,holding⟩ := List.any_eq_true.mp on
      obtain ⟨listed,parsed⟩ := mem_queued.mp member
      obtain ⟨named,handling,current⟩ := holds_iff.mp holding
      refine .batchSucceed handling listed ?_ current
      rw [parsed, ← named, Store.row_id found]
  | fail p =>
    cases parsed : p.messageID with
    | malformed text =>
      simp only [exec, fail, MessageID.parse, parsed]
      exact .same
    | uuid mid =>
      simp only [exec, fail, MessageID.parse, parsed]
      refine .update (failStatement_row s (env.now 0) mid p k) fun r found on => ?_
      obtain ⟨named,handling,current⟩ := holds_iff.mp on
      obtain rfl : mid = k := named.symm.trans (Store.row_id found)
      cases dead : p.dead
      · exact .failRetry handling parsed current dead
      · exact .failDead handling parsed current dead
  | releaseShutdown id attempt workerID reason =>
    cases id with
    | malformed text => exact .same
    | uuid mid =>
      refine .update (releaseStatement_row s (env.now 0) mid attempt workerID reason k) fun r found on => ?_
      obtain ⟨named,handling,current⟩ := holds_iff.mp on
      obtain rfl : mid = k := named.symm.trans (Store.row_id found)
      exact .releaseShutdown handling current
  | extend id workerID until_ =>
    cases id with
    | malformed text => exact .same
    | uuid mid =>
      refine .update (extendSQL_row s.messages (env.now 0) mid workerID until_ k) fun r found on => ?_
      obtain ⟨named,handling,owner⟩ := owns_iff.mp on
      obtain rfl : mid = k := named.symm.trans (Store.row_id found)
      exact .extend handling owner
  | requeue id processAt =>
    cases id with
    | malformed text => exact .same
    | uuid mid =>
      simp only [exec, requeue, MessageID.parse]
      split
      · refine .update (requeueSQL_row s.messages (env.now 0) mid (processAt.getD (env.clock 0)) k)
          fun r found on => ?_
        obtain ⟨named,dead⟩ := isDead_iff.mp on
        obtain rfl : mid = k := named.symm.trans (Store.row_id found)
        exact .requeue dead
      · exact .same
  | reclaimExpired limit =>
    refine .update (reclaimExpired_row s env limit k) fun r found on => ?_
    obtain ⟨r',found',lapsed⟩ := mem_reclaimChosen (of_decide_eq_true on)
    cases found.symm.trans (Store.row_id found ▸ found')
    obtain ⟨handling,⟨t,lease,past⟩,_⟩ := expired_iff.mp lapsed
    exact .reclaimExpired handling lease past
  | purgeTerminal before limit =>
    have row := purgeTerminal_row s env before limit k
    cases found : s.row k with
    | none =>
      simp only [exec, row, found, Option.filter_none]
      exact .same
    | some r =>
      by_cases chosen : r.id ∈ purgeChosen s.messages env before (limitOr 5000 limit)
      · obtain ⟨r',found',old⟩ := mem_purgeChosen chosen
        cases found.symm.trans (Store.row_id found ▸ found')
        obtain ⟨terminal,t,completed,past⟩ := purgeable_iff.mp old
        simp only [exec, row, found, Option.filter_some, chosen]
        exact .purgeTerminal terminal completed past
      · simp only [exec, row, found, Option.filter_some, chosen]
        exact .same

/-- A row appears only where an operation generated its id. -/
theorem operation_minted (s : Store cfg) (env : Env) (op : Operation) (k : Uuid) (absent : s.row k = none)
    (present : (exec s env op.call).1.row k ≠ none) : k ∈ generated env op := by
  have step := exec_row s env op.call k
  rw [absent] at step
  generalize (exec s env op.call).1.row k = after at step present
  cases op with
  | enqueue p =>
    cases step with
    | same => exact absurd rfl present
    | enqueue named => exact List.mem_singleton.mpr named
  | enqueueBatch ps =>
    cases step with
    | same => exact absurd rfl present
    | enqueueBatch named found =>
      exact List.mem_map.mpr ⟨_,List.mem_range.mpr (List.getElem?_eq_some_iff.mp found).1,named.symm⟩
  | claim | extend | requeue | reclaimExpired | purgeTerminal =>
    cases step
    exact absurd rfl present

end Tickr.Postgres
