import Tickr.Mysql

/-! What one call to the MySQL adapter can do to one row. -/
namespace Tickr.Mysql

open KeyedTable

variable {cfg : Config}

/-- The columns of one row before and after one call. -/
inductive RowStep (cfg : Config) (env : Env) (id : Uuid) : Call → Option Row → Option Row → Prop where
  | same : RowStep cfg env id call row row
  | enqueue : id = env.newID 0 → RowStep cfg env id (.enqueue p) none (some (enqueueRow cfg env 0 p))
  | enqueueBatch : id = env.newID i → ps[i]? = some p →
      RowStep cfg env id (.enqueueBatch ps) none (some (enqueueRow cfg env i p))
  | claim : r.status.pending = true → r.processAt ≤ env.clock reading →
      RowStep cfg env id (.claim p) (some r)
        (some (claimSet (timestamp cfg env 2) p.workerID (env.clock 2 + p.lease) r))
  | succeed : holdsClaim cfg (.uuid id) workerID r = true →
      RowStep cfg env id (.succeed (.uuid id) attempt workerID) (some r)
        (some (succeedSet (timestamp cfg env 0) r))
  | batchSucceed : p ∈ params → p.messageID = .uuid id → holdsAttempt (.uuid id) p.attempt r = true →
      RowStep cfg env id (.batchSucceed params) (some r) (some (succeedSet (timestamp cfg env 0) r))
  | failRetry : p.messageID = .uuid id → p.dead = false → holdsClaim cfg (.uuid id) p.workerID r = true →
      RowStep cfg env id (.fail p) (some r)
        (some (failRetrySet (timestamp cfg env 0) p.err p.nextRetryAt r))
  | failDead : p.messageID = .uuid id → p.dead = true → holdsClaim cfg (.uuid id) p.workerID r = true →
      RowStep cfg env id (.fail p) (some r) (some (failDeadSet (timestamp cfg env 0) p.err r))
  | releaseShutdown : holdsClaim cfg (.uuid id) workerID r = true →
      RowStep cfg env id (.releaseShutdown (.uuid id) attempt workerID reason) (some r)
        (some (releaseShutdownSet (timestamp cfg env 0) r))
  | extend : holdsClaim cfg (.uuid id) workerID r = true →
      RowStep cfg env id (.extend (.uuid id) workerID until_) (some r)
        (some (extendSet (timestamp cfg env 0) until_ r))
  | requeue : r.status = .dead →
      RowStep cfg env id (.requeue (.uuid id) (some t)) (some r)
        (some (requeueSet (timestamp cfg env 0) t r))
  | reclaimExpired : r.status = .handling → r.claimedUntil = some t → t < timestamp cfg env 0 →
      RowStep cfg env id (.reclaimExpired limit) (some r) (some (reclaimSet (timestamp cfg env 0) r))
  | purgeTerminal : r.status.terminal = true → r.completedAt = some t → t < before →
      RowStep cfg env id (.purgeTerminal before limit) (some r) none

theorem Store.row_id {s : Store cfg} {k : Uuid} {r : Row} (found : s.row k = some r) : r.id = k :=
  Table.find?_key found

theorem Store.row_of_mem {s : Store cfg} {r : Row} (member : r ∈ s.messages.rows) : s.row r.id = some r :=
  Table.find?_of_mem member

theorem Store.row_mem {s : Store cfg} {k : Uuid} {r : Row} (found : s.row k = some r) :
    r ∈ s.messages.rows := Table.find?_mem found

theorem holdsAttempt_iff {id : MessageID} {attempt : Int} {r : Row} :
    holdsAttempt id attempt r = true ↔ id = .uuid r.id ∧ r.status = .handling ∧ r.attempt = attempt := by
  simp [holdsAttempt, and_assoc]

theorem holdsClaim_iff {id : MessageID} {workerID : String} {r : Row} :
    holdsClaim cfg id workerID r = true ↔ id = .uuid r.id ∧ r.status = .handling ∧
      ∃ owner, r.claimedBy = some owner ∧ cfg.collate workerID = cfg.collate owner := by
  simp [holdsClaim, Config.same, Option.any_eq_true, and_assoc]

/-! ### Statements -/

theorem succeed_row (s : Store cfg) (env : Env) (id : MessageID) (attempt : Int) (workerID : String)
    (k : Uuid) : (succeed s env id attempt workerID).row k =
      (s.row k).map (when (holdsClaim cfg id workerID) (succeedSet (timestamp cfg env 0))) :=
  Table.find?_update ..

theorem map_when_never {row : Option Row} {guard : Row → Bool} {set : Row → Row} :
    row = row.map (when (fun r => false && guard r) set) := by
  cases row <;> rfl

/-- A Fail is a guarded UPDATE unless it is refused. -/
theorem fail_row (s : Store cfg) (env : Env) (p : FailParams) (k : Uuid) :
    (fail s env p).1.row k =
      (s.row k).map (when (fun r => !failRefused s p && holdsClaim cfg p.messageID p.workerID r)
        (if p.dead then failDeadSet (timestamp cfg env 0) p.err
          else failRetrySet (timestamp cfg env 0) p.err p.nextRetryAt)) := by
  unfold fail
  cases failRefused s p with
  | true => exact map_when_never
  | false =>
    simp only [Bool.false_eq_true, if_false, Bool.not_false, Bool.true_and]
    split <;> exact Table.find?_update ..

theorem releaseShutdown_row (s : Store cfg) (env : Env) (id : MessageID) (attempt : Int)
    (workerID reason : String) (k : Uuid) : (releaseShutdown s env id attempt workerID reason).row k =
      (s.row k).map (when (holdsClaim cfg id workerID) (releaseShutdownSet (timestamp cfg env 0))) :=
  Table.find?_update ..

theorem batchSucceed_messages (s : Store cfg) (env : Env) (params : List BatchSucceedParam) :
    (batchSucceed s env params).messages =
      s.messages.update (fun r => params.any fun p => holdsAttempt p.messageID p.attempt r)
        ⟨succeedSet (timestamp cfg env 0), fun _ => rfl, fun _ => rfl⟩ := by
  rw [← Table.foldl_update fun p : BatchSucceedParam => holdsAttempt p.messageID p.attempt]
  · exact (List.foldl_hom Store.messages fun _ _ => rfl).symm
  · simp [holdsAttempt, succeedSet]

theorem batchSucceed_row (s : Store cfg) (env : Env) (params : List BatchSucceedParam) (k : Uuid) :
    (batchSucceed s env params).row k =
      (s.row k).map (when (fun r => params.any fun p => holdsAttempt p.messageID p.attempt r)
        (succeedSet (timestamp cfg env 0))) := by
  rw [Store.row, batchSucceed_messages]
  exact Table.find?_update ..

theorem extend_row (s : Store cfg) (env : Env) (id : MessageID) (workerID : String) (until_ : Time)
    (k : Uuid) : (extend s env id workerID until_).1.row k =
      (s.row k).map (when (holdsClaim cfg id workerID) (extendSet (timestamp cfg env 0) until_)) :=
  Table.find?_update ..

/-- A Requeue to a time is never refused. -/
theorem requeue_row (s : Store cfg) (env : Env) (id : MessageID) (t : Time) (k : Uuid) :
    (requeue s env id (some t)).1.row k =
      (s.row k).map (when (isDead id) (requeueSet (timestamp cfg env 0) t)) := by
  simp only [requeue, requeueRefused, refuses, Option.isSome_some, Bool.not_true, Bool.and_false,
    Bool.false_eq_true, if_false, Option.getD_some]
  exact Table.find?_update ..

/-- A Requeue to the zero time leaves every row alone: it is refused if there is a row to
requeue. -/
theorem requeue_zero_row (s : Store cfg) (env : Env) (id : MessageID) (k : Uuid) :
    (requeue s env id none).1.row k = s.row k := by
  unfold requeue
  split
  · rfl
  · rename_i accepted
    refine (Table.find?_update ..).trans (map_when_same fun r found => ?_)
    simp only [requeueRefused, refuses, Option.isSome_none, Bool.not_false, Bool.and_true, List.any_eq_true,
      not_exists, not_and, Bool.not_eq_true] at accepted
    exact accepted r (Table.find?_mem found)

theorem reclaimExpired_row (s : Store cfg) (env : Env) (limit : Int) (k : Uuid) :
    (reclaimExpired s env limit).1.row k =
      (s.row k).map (when (fun r => r.id ∈ reclaimChosen s.messages env (limitOr 500 limit))
        (reclaimSet (timestamp cfg env 0))) := Table.find?_update ..

theorem purgeTerminal_row (s : Store cfg) (env : Env) (before : Time) (limit : Int) (k : Uuid) :
    (purgeTerminal s env before limit).1.row k =
      (s.row k).filter (fun r => !decide (r.id ∈ purgeChosen s.messages env before (limitOr 5000 limit))) :=
  Table.find?_delete ..

theorem mem_reclaimChosen {messages : Messages cfg} {env : Env} {limit : Nat} {k : Uuid}
    (member : k ∈ reclaimChosen messages env limit) :
    ∃ r, messages.find? k = some r ∧ expired cfg env r = true := by
  obtain ⟨r,taken,rfl⟩ := List.mem_map.mp member
  have visited := List.mem_of_mem_take taken
  rw [List.mem_filter, Scan.mem_visit] at visited
  exact ⟨r,Table.find?_of_mem visited.1,visited.2⟩

theorem mem_purgeChosen {messages : Messages cfg} {env : Env} {before : Time} {limit : Nat} {k : Uuid}
    (member : k ∈ purgeChosen messages env before limit) :
    ∃ r, messages.find? k = some r ∧ purgeable before r = true := by
  obtain ⟨r,taken,rfl⟩ := List.mem_map.mp member
  have visited := List.mem_of_mem_take taken
  rw [List.mem_filter, Scan.mem_visit] at visited
  exact ⟨r,Table.find?_of_mem visited.1,visited.2⟩

/-! ### Enqueue -/

/-- An Enqueue inserts its row, or reports an error and leaves the store alone. -/
theorem enqueue_cases (s : Store cfg) (env : Env) (i : Nat) (p : EnqueueParams) :
    (∃ messages, s.messages.insert (enqueueRow cfg env i p) = .inserted messages ∧
      enqueue s env i p = ({ s with messages }, some (scanMessage (enqueueRow cfg env i p)), none)) ∨
    ∃ msg err, enqueue s env i p = (s, msg, some err) := by
  unfold enqueue
  dsimp only
  split
  · split
    · exact Or.inl ⟨_,‹_›,rfl⟩
    all_goals
      split
      · exact Or.inr ⟨_,_,rfl⟩
      · split <;> exact Or.inr ⟨_,_,rfl⟩
  · exact Or.inr ⟨_,_,rfl⟩

theorem enqueue_row (s : Store cfg) (env : Env) (i : Nat) (p : EnqueueParams) (k : Uuid) :
    (enqueue s env i p).1.row k = s.row k ∨
    (k = env.newID i ∧ s.row k = none ∧ (enqueue s env i p).1.row k = some (enqueueRow cfg env i p)) := by
  rcases enqueue_cases s env i p with ⟨messages,inserted,result⟩ | ⟨msg,err,result⟩
  · rw [result]
    have found := Table.find?_insert inserted k
    by_cases same : (enqueueRow cfg env i p).id = k
    · rw [if_pos same] at found
      exact Or.inr ⟨same.symm,same ▸ Table.find?_eq_none.mpr (Table.insert_inserted inserted).2,found⟩
    · rw [if_neg same] at found
      exact Or.inl found
  · rw [result]
    exact Or.inl rfl

theorem enqueueBatch_store (s : Store cfg) (env : Env) (i : Nat) (p : EnqueueParams) (rest : List EnqueueParams) :
    (enqueueBatch s env i (p :: rest)).1 = (enqueueBatch (enqueue s env i p).1 env (i + 1) rest).1 := by
  simp only [enqueueBatch]
  split
  · split <;> rfl
  · rfl

theorem enqueueBatch_row (s : Store cfg) (env : Env) (i : Nat) (ps : List EnqueueParams) (k : Uuid) :
    (enqueueBatch s env i ps).1.row k = s.row k ∨
    (s.row k = none ∧ ∃ j p, ps[j]? = some p ∧ k = env.newID (i + j) ∧
      (enqueueBatch s env i ps).1.row k = some (enqueueRow cfg env (i + j) p)) := by
  induction ps generalizing s i with
  | nil => exact Or.inl rfl
  | cons p rest ih =>
    rw [enqueueBatch_store]
    rcases ih (enqueue s env i p).1 (i + 1) with same | ⟨absent,j,p',at_,named,found⟩
    · rw [same]
      rcases enqueue_row s env i p k with unchanged | ⟨named,absent,found⟩
      · exact Or.inl unchanged
      · exact Or.inr ⟨absent,0,p,rfl,named,found⟩
    · rcases enqueue_row s env i p k with unchanged | ⟨_,_,present⟩
      · refine Or.inr ⟨unchanged ▸ absent,j + 1,p',at_,?_⟩
        rw [← Nat.add_assoc, Nat.add_right_comm]
        exact ⟨named,found⟩
      · rw [present] at absent
        cases absent

/-! ### Claim -/

theorem mem_selectClaimIDs {messages : Messages cfg} {env : Env} {pass : Nat} {eventTypes : List String}
    {batch : Nat} {shard : Option Int} {k : Uuid}
    (member : k ∈ selectClaimIDs messages env pass eventTypes batch shard) :
    ∃ r, messages.find? k = some r ∧ eligible cfg env pass eventTypes shard r = true := by
  obtain ⟨r,taken,rfl⟩ := List.mem_map.mp member
  have sorted := List.mem_of_mem_take taken
  rw [List.mem_insertionSort, List.mem_filter] at sorted
  exact ⟨r,Table.find?_of_mem sorted.1,sorted.2⟩

theorem mem_claimIDs {messages : Messages cfg} {env : Env} {p : ClaimParams} {k : Uuid}
    (member : k ∈ claimIDs messages env p) :
    ∃ pass shard r, messages.find? k = some r ∧ eligible cfg env pass p.eventTypes shard r = true := by
  unfold claimIDs at member
  dsimp only at member
  split at member
  all_goals exact ⟨_,_,mem_selectClaimIDs member⟩

section
variable {messages : Messages cfg} {env : Env} {pass : Nat} {eventTypes : List String} {batch : Nat}
  {shard : Option Int}

theorem selectClaimIDs_within {r : Row} (member : r ∈ messages.rows)
    (fits : eligible cfg env pass eventTypes shard r = true) :
    r.id ∈ selectClaimIDs messages env pass eventTypes batch shard ∨
      (selectClaimIDs messages env pass eventTypes batch shard).length = batch := by
  have sorted : r ∈ (messages.rows.filter (eligible cfg env pass eventTypes shard)).insertionSort claimOrder :=
    (List.mem_insertionSort _).mpr (List.mem_filter.mpr ⟨member,fits⟩)
  rw [selectClaimIDs, List.length_map]
  exact (mem_take_or_full sorted batch).imp_left fun taken => List.mem_map_of_mem taken

theorem selectClaimIDs_nodup : (selectClaimIDs messages env pass eventTypes batch shard).Nodup := by
  have sorted := List.perm_insertionSort claimOrder (messages.rows.filter (eligible cfg env pass eventTypes shard))
  have keys := messages.primary.sublist ((List.filter_sublist (p := eligible cfg env pass eventTypes shard)).map Row.id)
  exact ((sorted.map Row.id).nodup_iff.mpr keys).sublist ((List.take_sublist _ _).map _)

end

theorem claimIDs_nodup (messages : Messages cfg) (env : Env) (p : ClaimParams) : (claimIDs messages env p).Nodup := by
  unfold claimIDs
  dsimp only
  split <;> exact selectClaimIDs_nodup

/-- Within the batch, a claim passes over an eligible row only for those of another shard. -/
theorem claimIDs_within {messages : Messages cfg} {env : Env} {p : ClaimParams} {r : Row}
    (member : r ∈ messages.rows) (fits : ∀ pass, eligible cfg env pass p.eventTypes none r = true) :
    r.id ∈ claimIDs messages env p ∨ (claimIDs messages env p).length = limitOr 100 p.batch ∨
      (claimIDs messages env p ≠ [] ∧ r.shard ≠ env.pickShard 0) := by
  unfold claimIDs
  dsimp only
  split
  · exact (selectClaimIDs_within member (fits 1)).imp_right Or.inl
  · rename_i found
    by_cases here : r.shard = env.pickShard 0
    · have first : eligible cfg env 0 p.eventTypes (some (env.pickShard 0)) r = true := by
        have anywhere := fits 0
        simp only [eligible, Option.all_none, Bool.and_true] at anywhere
        simpa [eligible, here] using anywhere
      exact (selectClaimIDs_within member first).imp_right Or.inl
    · exact Or.inr (Or.inr ⟨found,here⟩)

/-- What a claim did. -/
structure Claimed (s after : Store cfg) (env : Env) (p : ClaimParams) (msgs : List InboundMessage)
    (chosen : List Uuid) : Prop where
  eligible : ∀ k ∈ chosen, ∃ pass r, s.row k = some r ∧ r.status.pending = true ∧
    r.processAt ≤ env.clock pass
  row : ∀ k, after.row k = (s.row k).map (when (fun r => r.id ∈ chosen)
    (claimSet (timestamp cfg env 2) p.workerID (env.clock 2 + p.lease)))
  returned : ∀ m, m ∈ msgs ↔ ∃ k ∈ chosen, ∃ r, s.row k = some r ∧
    m = scanMessage (claimSet (timestamp cfg env 2) p.workerID (env.clock 2 + p.lease) r)
  nodup : (msgs.map InboundMessage.id).Nodup

theorem claim_nothing (s : Store cfg) (env : Env) (p : ClaimParams) : Claimed s s env p [] [] where
  eligible := by simp
  row k := (map_when_same fun _ _ => rfl).symm
  returned := by simp
  nodup := List.nodup_nil

theorem claim_spec (s : Store cfg) (env : Env) (p : ClaimParams) :
    ∃ chosen, Claimed s (claim s env p).1 env p (claim s env p).2 chosen := by
  unfold claim
  split
  · exact ⟨[],claim_nothing s env p⟩
  · dsimp only
    split
    · exact ⟨[],claim_nothing s env p⟩
    · refine ⟨claimIDs s.messages env p,?_,fun k => Table.find?_update ..,?_,?_⟩
      · intro k member
        obtain ⟨pass,_,r,found,fits⟩ := mem_claimIDs member
        simp only [Mysql.eligible, Bool.and_eq_true, decide_eq_true_eq] at fits
        exact ⟨pass,r,found,fits.1.1.1.1,fits.1.2⟩
      · intro m
        simp only [List.mem_map, Table.mem_select_update]
        constructor
        · rintro ⟨_,⟨r,member,chosen,rfl⟩,rfl⟩
          exact ⟨r.id,chosen,r,Store.row_of_mem member,rfl⟩
        · rintro ⟨k,chosen,r,found,rfl⟩
          exact ⟨_,⟨r,Store.row_mem found,Store.row_id found ▸ chosen,rfl⟩,rfl⟩
      · have wrap : (InboundMessage.id ∘ scanMessage) = MessageID.uuid ∘ Row.id := rfl
        rw [List.map_map, wrap, ← List.map_map]
        exact (Table.select_nodup _ _ _).map fun _ _ same => MessageID.uuid.inj same

/-- Claim returns one message for each of the rows it has selected. -/
theorem claim_selected (s : Store cfg) (env : Env) (p : ClaimParams) (typed : p.eventTypes ≠ []) :
    (claim s env p).2.length = (claimIDs s.messages env p).length ∧
    ∀ k, (∃ m ∈ (claim s env p).2, m.id = .uuid k) ↔ k ∈ claimIDs s.messages env p := by
  have present {k : Uuid} (listed : k ∈ claimIDs s.messages env p) : ∃ r ∈ s.messages.rows, r.id = k := by
    obtain ⟨_,_,r,found,_⟩ := mem_claimIDs listed
    exact ⟨r,Table.find?_mem found,Table.find?_key found⟩
  unfold claim
  rw [if_neg typed]
  dsimp only
  split
  · rename_i nothing
    simp [nothing]
  · constructor
    · rw [List.length_map]
      refine Table.select_length (claimIDs_nodup ..) fun k listed => ?_
      obtain ⟨r,member,rfl⟩ := present listed
      rw [Table.keys_update]
      exact List.mem_map_of_mem member
    · intro k
      simp only [List.mem_map, Table.mem_select_update]
      constructor
      · rintro ⟨_,⟨_,⟨r,_,listed,rfl⟩,rfl⟩,named⟩
        exact MessageID.uuid.inj named ▸ listed
      · intro listed
        obtain ⟨r,member,rfl⟩ := present listed
        exact ⟨_,⟨_,⟨r,member,listed,rfl⟩,rfl⟩,rfl⟩

/-! ### One call, one row -/

theorem RowStep.update {env : Env} {k : Uuid} {call : Call} {before after : Option Row}
    {guard : Row → Bool} {set : Row → Row} (row : after = before.map (when guard set))
    (fires : ∀ r, before = some r → guard r = true → RowStep cfg env k call (some r) (some (set r))) :
    RowStep cfg env k call before after := by
  subst row
  cases before with
  | none => exact .same
  | some r =>
    by_cases on : guard r = true
    · simpa [when, on] using fires r rfl on
    · simpa [when, on] using RowStep.same

theorem holdsClaim_named {s : Store cfg} {k : Uuid} {r : Row} {id : MessageID} {workerID : String}
    (found : s.row k = some r) (on : holdsClaim cfg id workerID r = true) : id = .uuid k :=
  Store.row_id found ▸ (holdsClaim_iff.mp on).1

theorem exec_row (s : Store cfg) (env : Env) (call : Call) (k : Uuid) :
    RowStep cfg env k call (s.row k) ((exec s env call).1.row k) := by
  cases call with
  | enqueue p =>
    rcases enqueue_row s env 0 p k with same | ⟨named,absent,found⟩
    · simp only [exec, same]; exact .same
    · simp only [exec, absent, found]; exact .enqueue named
  | enqueueBatch ps =>
    rcases enqueueBatch_row s env 0 ps k with same | ⟨absent,j,p,at_,named,found⟩
    · simp only [exec, same]; exact .same
    · rw [Nat.zero_add] at named found
      simp only [exec, absent, found]
      exact .enqueueBatch named at_
  | claim p =>
    obtain ⟨chosen,spec⟩ := claim_spec s env p
    refine .update (spec.row k) fun r found on => ?_
    obtain ⟨pass,r',found',pending,due⟩ := spec.eligible _ (of_decide_eq_true on)
    rw [Store.row_id found, found] at found'
    cases found'
    exact .claim pending due
  | succeed id attempt workerID =>
    refine .update (succeed_row s env id attempt workerID k) fun r found on => ?_
    obtain rfl := holdsClaim_named found on
    exact .succeed on
  | batchSucceed params =>
    refine .update (batchSucceed_row s env params k) fun r found on => ?_
    obtain ⟨p,member,holding⟩ := List.any_eq_true.mp on
    have named : p.messageID = .uuid k := Store.row_id found ▸ (holdsAttempt_iff.mp holding).1
    exact .batchSucceed member named (named ▸ holding)
  | fail p =>
    refine .update (fail_row s env p k) fun r found accepted => ?_
    have on := (Bool.and_eq_true_iff.mp accepted).2
    have named := holdsClaim_named found on
    cases dead : p.dead
    · exact .failRetry named dead (named ▸ on)
    · exact .failDead named dead (named ▸ on)
  | releaseShutdown id attempt workerID reason =>
    refine .update (releaseShutdown_row s env id attempt workerID reason k) fun r found on => ?_
    obtain rfl := holdsClaim_named found on
    exact .releaseShutdown on
  | extend id workerID until_ =>
    refine .update (extend_row s env id workerID until_ k) fun r found on => ?_
    obtain rfl := holdsClaim_named found on
    exact .extend on
  | requeue id processAt =>
    cases processAt with
    | none =>
      simp only [exec, requeue_zero_row]
      exact .same
    | some t =>
      refine .update (requeue_row s env id t k) fun r found on => ?_
      simp only [isDead, Bool.and_eq_true, decide_eq_true_eq] at on
      obtain ⟨rfl,dead⟩ := on
      rw [Store.row_id found]
      exact .requeue dead
  | reclaimExpired limit =>
    refine .update (reclaimExpired_row s env limit k) fun r found on => ?_
    obtain ⟨r',found',lapsed⟩ := mem_reclaimChosen (of_decide_eq_true on)
    cases found.symm.trans (Store.row_id found ▸ found')
    simp only [expired, Bool.and_eq_true, decide_eq_true_eq, Option.any_eq_true] at lapsed
    obtain ⟨handling,t,lease,past⟩ := lapsed
    exact .reclaimExpired handling lease past
  | purgeTerminal before limit =>
    have row := purgeTerminal_row s env before limit k
    cases found : s.row k with
    | none =>
      simp only [exec, row, found, Option.filter_none]
      exact .same
    | some r =>
      by_cases chosen : r.id ∈ purgeChosen s.messages env before (limitOr 5000 limit)
      · obtain ⟨r',found',old⟩ := mem_purgeChosen chosen
        cases found.symm.trans (Store.row_id found ▸ found')
        obtain ⟨terminal,t,completed,past⟩ := purgeable_iff.mp old
        simp only [exec, row, found, Option.filter_some, chosen]
        exact .purgeTerminal terminal completed past
      · simp only [exec, row, found, Option.filter_some, chosen]
        exact .same

end Tickr.Mysql
