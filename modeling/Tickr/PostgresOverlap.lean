import Tickr.Overlap
import Tickr.PostgresClaimFaults
import Tickr.PostgresProducers
import Tickr.QueueContract
import Tickr.RowVersions

/-! Storage calls that overlap. Claim, Enqueue, EnqueueBatch, Requeue and BatchSucceed are several
statements each, and any statement of another call may run between them. Every call changes the
message table in one of its statements at most, and does there what it would have done in one
piece. Only a BatchSucceed may fall apart: each of its UPDATEs decides by itself, when it runs,
whether its message is still held. -/
namespace Tickr.Postgres

open KeyedTable Overlap

variable {cfg : Config}

/-- The transaction of a BatchSucceed between two statements: the rows that it has locked, its own
versions of them and the history rows that it has inserted, none of which others see before the
commit. For all of its UPDATEs now() is the start of the transaction. -/
structure Acking where
  env : Env
  locks : List Uuid
  own : List Row
  entries : List HistoryRow
  missed : List BatchSucceedParam
  kept : List BatchSucceedParam
  rest : List (Uuid × BatchSucceedParam)

/-- The statement that a call issues next, with what it has read so far. -/
inductive Stage where
  | first
  | insert (p : EnqueueParams)
  | lookUp (producer : Producer)
  | allShards (p : ClaimParams)
  | claimHistory (p : ClaimParams) (out : List InboundMessage)
  | requeueHistory (mid : Uuid)
  | acking (tx : Acking)
  | acked (missed kept : List BatchSucceedParam)
  | returned (reply : Reply)

def Returned.reply : Returned → Reply
  | .single _ msg err => .message msg err
  | .batch out err => .batch out err

/-- The INSERT of `Enqueue`. -/
def insertStage (s : Store cfg) (env : Env) (p : EnqueueParams) : Store cfg × Stage :=
  let row := enqueueRow env 0 p
  if fitsColumns p then
    match s.messages.insert row with
    | .inserted messages => ({ s with messages }, .returned (.message (some (scanMessage row)) none))
    | .duplicateKey => (s, .returned (.message none (some (.sql "enqueue"))))
    | .conflict =>
      (s, if p.idempotencyKey = "" then .returned (.message none (some (.noRows "enqueue"))) else .lookUp (.fetch p))
  else (s, .returned (.message none (some (.sql "enqueue"))))

/-- The INSERT of `EnqueueBatch`. -/
def insertBatchStage (s : Store cfg) (env : Env) (ps : List EnqueueParams) : Store cfg × Stage :=
  if ps = [] then (s, .returned (.batch [] none))
  else if ps.all fitsColumns then
    match batchInsertSQL s.messages (batchRows env ps) with
    | none => (s, .returned (.batch [] (some (.sql "enqueue batch"))))
    | some (messages, inserted) =>
      ({ s with messages }, .lookUp (.collect inserted (ps.mapIdx fun i p => (env.newID i, p)) [] none))
  else (s, .returned (.batch [] (some (.sql "enqueue batch"))))

/-- A Claim after the pass that ends its search. -/
def claimedStage (cfg : Config) (p : ClaimParams) (out : List InboundMessage) : Stage :=
  if out = [] ∨ cfg.historyPolicy = .off then .returned (.messages out) else .claimHistory p out

/-- The store as a transaction sees it, and as its commit leaves it. -/
def Acking.store (tx : Acking) (s : Store cfg) : Store cfg := ⟨s.messages.overlay tx.own, s.history ++ tx.entries⟩

/-- One UPDATE. It locks the row that it finds held; for a row that the transaction has locked
before, it decides by the transaction's own version. -/
def Acking.update (tx : Acking) (s : Store cfg) (mid : Uuid) (p : BatchSucceedParam)
    (rest : List (Uuid × BatchSucceedParam)) : Acking :=
  if (tx.store s).messages.rows.any (holds mid p.attempt) || mid ∈ tx.locks then
    let after := succeedStatement (tx.store s) (tx.env.now 0) mid p.attempt p.workerID
    { tx with
      locks := mid :: tx.locks
      own := after.messages.versions (mid :: tx.locks)
      entries := after.history.drop s.history.length
      kept := tx.kept ++ [p]
      rest }
  else { tx with missed := tx.missed ++ [p], rest }

/-- The first statement of a call. Succeed, Fail, ReleaseShutdown, Extend, ReclaimExpired and
PurgeTerminal have no other. A BatchSucceed with a malformed id is rolled back in the end; the
locks that it holds until then are not modelled. -/
def firstStage (s : Store cfg) (env : Env) : Call → Store cfg × Stage
  | .enqueue p =>
    if cfg.partitioned && p.idempotencyKey != "" then
      match findByIdempotency s env p.eventType p.idempotencyKey with
      | some existing => (s, .returned (.message (some (scanMessage existing)) (some (duplicateOf existing p))))
      | none => (s, .insert p)
    else insertStage s env p
  | .enqueueBatch ps => insertBatchStage s env ps
  | .claim p =>
    let result := shardPass s.messages env p
    ({ s with messages := result.1 }, if result.2 = [] then .allShards p else claimedStage cfg p result.2)
  | .requeue id processAt =>
    match id.parse with
    | none => (s, .returned (.unit (some (.badID "requeue"))))
    | some mid =>
      if s.messages.rows.any (isDead mid) then
        ({ s with messages := requeueSQL s.messages (env.now 0) mid (processAt.getD (env.clock 0)) },
          .requeueHistory mid)
      else (s, .returned (.unit (some .notDead)))
  | .batchSucceed params =>
    if params = [] ∨ (queued params).length < params.length then
      let r := batchSucceed s env params
      (r.1, .returned (.unit r.2))
    else (s, .acking ⟨env, [], [], [], [], [], queued params⟩)
  | call => let r := exec s env call; (r.1, .returned r.2)

def Stage.next (s : Store cfg) (env : Env) (call : Call) : Stage → Option (Store cfg × Stage)
  | .first => some (firstStage s env call)
  | .insert p => some (insertStage s env p)
  | .lookUp producer =>
    match producer.advance s env with
    | .inl later => some (s, .lookUp later)
    | .inr result => some (s, .returned result.reply)
  | .allShards p =>
    let result := fullPass s.messages env p
    some ({ s with messages := result.1 }, claimedStage cfg p result.2)
  | .claimHistory p out =>
    some ({ s with history := appendHistoryBatch s.history (env.now 2) out .handling "" p.workerID },
      .returned (.messages out))
  | .requeueHistory mid =>
    some ({ s with history := appendHistorySQL s.history (env.now 1) mid (some .dead) .created 0 "manual requeue" "" },
      .returned (.unit none))
  | .acking tx =>
    match tx.rest with
    | [] => some (tx.store s, .acked tx.missed tx.kept)
    | (mid, p) :: rest => some (s, .acking (tx.update s mid p rest))
  | .acked _ _ | .returned _ => none

/-- The error of an Enqueue whose row was in conflict and is gone when it looks it up. -/
def lostRow : Reply → Bool
  | .message none (some (.noRows operation)) => operation = "fetch by idempotency key"
  | _ => false

/-- The parts in which the call has taken effect. An UPDATE of a BatchSucceed that finds nothing
is a part by itself; the others take effect together, in the commit. -/
def Stage.parts (call : Call) : Stage → List Call
  | .first | .insert _ | .lookUp (.fetch _) | .allShards _ => []
  | .lookUp (.collect _ _ _ _) | .claimHistory _ _ | .requeueHistory _ => [call]
  | .acking tx => tx.missed.map fun p => .batchSucceed [p]
  | .acked missed kept => missed.map (fun p => .batchSucceed [p]) ++ [.batchSucceed kept]
  | .returned reply => if lostRow reply then [] else [call]

/-- The rows that the call keeps locked between its statements. -/
def Stage.locks : Stage → List Uuid
  | .acking tx => tx.locks
  | _ => []

/-- A statement that would change or lock such a row has to wait. -/
def Stage.bars (stage : Stage) (s s' : Store cfg) (stage' : Stage) : Bool :=
  stage.locks.any fun id => s'.row id ≠ s.row id || id ∈ stage'.locks

/-- In one piece, the second pass of a Claim is taken when others hold every row of the shard. -/
def shardLocked (env : Env) : Env :=
  { env with locked := fun statement id => statement == 0 || env.locked statement id }

def Stage.view (env : Env) : Stage → Env
  | .allShards _ => shardLocked env
  | .acking tx => tx.env
  | _ => env

/-- What the call is going to answer. The rows that a batch finds in the table it looks up
one by one after its INSERT. -/
def Stage.answer : Call → Stage → Option Reply
  | .enqueueBatch _, _ => none
  | _, .claimHistory _ out => some (.messages out)
  | _, .requeueHistory _ | _, .acked _ _ => some (.unit none)
  | _, .returned reply => if lostRow reply then none else some reply
  | _, _ => none

structure HistoryPurge where
  scan : Scan HistoryRow
  before : Time
  limit : Int

/-- The calls of any number of processes, with PurgeHistory in the background. -/
def overlap (cfg : Config) : Calls (Store cfg) Env Call Stage HistoryPurge where
  first := .first
  next := Stage.next
  bars := Stage.bars
  parts := Stage.parts
  view := fun env stage => stage.view env
  background := fun s purge => (purgeHistory s purge.scan purge.before purge.limit).1

/-- A call on the message table alone. -/
def execTable (messages : Messages cfg) (env : Env) (call : Call) : Messages cfg × Reply :=
  let r := exec (⟨messages, []⟩ : Store cfg) env call
  (r.1.messages, r.2)

theorem succeedSet_key (now : Time) (r : Row) : (succeedSet now r).id = r.id := rfl

theorem succeedSet_index (cfg : Config) (now : Time) (r : Row) :
    idemIndex cfg (succeedSet now r) = idemIndex cfg r := rfl

/-- The UPDATE of a BatchSucceed. -/
def ackWrite (cfg : Config) (now : Time) (q : Uuid × BatchSucceedParam) : Write Row.id (idemIndex cfg) :=
  ⟨holds q.1 q.2.attempt, ⟨succeedSet now, succeedSet_key now, succeedSet_index cfg now⟩⟩

/-- The transaction has taken every message of the batch once, and its versions are what its
UPDATEs would make of the rows as they are now. -/
structure Acking.Fits (s : Store cfg) (params : List BatchSucceedParam) (tx : Acking) : Prop where
  parted : (tx.missed ++ tx.kept ++ tx.rest.map Prod.snd).Perm params
  named : ∀ q ∈ tx.rest, q.2.messageID = .uuid q.1
  parsed : ∀ p ∈ tx.kept, p.messageID.parse.isSome = true
  versions : Versions s.messages tx.locks tx.own ((queued tx.kept).map (ackWrite cfg (tx.env.now 0)))

/-- The stages that a call goes through, where the index arbitrates between producers. -/
def Stage.fits (s : Store cfg) : Call → Stage → Prop
  | _, .first | _, .returned _ => True
  | .enqueue p, .lookUp (.fetch p') =>
    p' = p ∧ p.idempotencyKey ≠ "" ∧ fitsColumns p = true
  | .enqueueBatch _, .lookUp (.collect _ _ _ _) => True
  | .claim p, .allShards p' | .claim p, .claimHistory p' _ => p' = p
  | .requeue _ _, .requeueHistory _ => True
  | .batchSucceed params, .acking tx => tx.Fits s params
  | .batchSucceed params, .acked missed kept => (missed ++ kept).Perm params
  | _, _ => False

/-! ### One statement -/

theorem exec_table (s : Store cfg) (env : Env) (call : Call) :
    execTable s.messages env call = ((exec s env call).1.messages, (exec s env call).2) := by
  have mine := exec_blind s env call
  have bare := exec_blind (⟨s.messages, []⟩ : Store cfg) env call
  exact Prod.ext (bare.1.symm.trans mine.1) (bare.2.symm.trans mine.2)

/-- What a statement does, seen on the message table. -/
abbrev Did (s : Store cfg) (env : Env) (call : Call) (stage : Stage) (s' : Store cfg) (stage' : Stage) : Prop :=
  (overlap cfg).Did Store.messages execTable Stage.answer s env call stage s' stage'

section
variable {s s' : Store cfg} {env : Env} {call : Call} {stage stage' : Stage}

theorem answer_returned {reply r : Reply} (given : (Stage.returned reply).answer call = some r) : r = reply := by
  have is : (if lostRow reply then none else some reply) = some r := by
    cases call with
    | enqueueBatch => cases given
    | _ => exact given
  split at is
  · cases is
  · exact (Option.some.inj is).symm

theorem unanswered {property : Reply → Prop} (none : stage.answer call = none) :
    ∀ r, stage.answer call = some r → property r := by
  intro r given
  rw [none] at given
  cases given

/-- A statement in which a part of the call takes effect. -/
theorem Did.part (part : Call) (added : stage'.parts call = stage.parts call ++ [part])
    (table : s'.messages = (exec s (stage.view env) part).1.messages)
    (answers : ∀ r, stage'.answer call = some r → r = (exec s (stage.view env) part).2) :
    Did s env call stage s' stage' := by
  refine .effect part added ?_ fun r given => ?_
  · exact table.trans (congrArg Prod.fst (exec_table s _ part)).symm
  · exact (answers r given).trans (congrArg Prod.snd (exec_table s _ part)).symm

/-- A call that is over with this statement. -/
theorem Did.over {reply : Reply} (before : stage.parts call = [])
    (done : ((s'.messages, reply) : Messages cfg × Reply) =
      ((exec s (stage.view env) call).1.messages, (exec s (stage.view env) call).2))
    (kept : lostRow reply = false) : Did s env call stage s' (.returned reply) := by
  obtain ⟨table,answers⟩ := Prod.mk.inj done
  refine Did.part call ?_ table fun r given => (answer_returned given).trans answers
  rw [Stage.parts, kept, before]
  rfl

theorem insertStage_did (whole : cfg.partitioned = false) (p : EnqueueParams) :
    (insertStage s env p).2.fits (insertStage s env p).1 (.enqueue p) ∧
      Did s env (.enqueue p) .first (insertStage s env p).1 (insertStage s env p).2 := by
  have straight : partitionedLookup s env p = none := by simp [partitionedLookup, whole]
  unfold insertStage
  dsimp only
  by_cases fits : fitsColumns p = true
  · rw [if_pos fits]
    cases inserted : s.messages.insert (enqueueRow env 0 p) with
    | inserted messages =>
      refine ⟨trivial,.over rfl ?_ rfl⟩
      simp only [Stage.view, exec, enqueue, straight, fits, inserted, if_true]
    | duplicateKey =>
      refine ⟨trivial,.over rfl ?_ rfl⟩
      simp only [Stage.view, exec, enqueue, straight, fits, inserted, if_true]
    | conflict =>
      dsimp only
      by_cases keyless : p.idempotencyKey = ""
      · rw [if_pos keyless]
        refine ⟨trivial,.over rfl ?_ (by decide)⟩
        simp only [Stage.view, exec, enqueue, straight, fits, inserted, keyless, if_true]
      · rw [if_neg keyless]
        exact ⟨⟨rfl,keyless,fits⟩,.nothing rfl rfl (unanswered rfl)⟩
  · rw [if_neg fits]
    refine ⟨trivial,.over rfl ?_ rfl⟩
    simp only [Stage.view, exec, enqueue, straight, fits, Bool.false_eq_true, if_false, refusedBy_whole whole]

/-- A row that is found under the key is in conflict with the INSERT. -/
theorem fetch_did (whole : cfg.partitioned = false) {p : EnqueueParams} (keyed : p.idempotencyKey ≠ "")
    (fits : fitsColumns p = true)
    (next : Stage.next s env (.enqueue p) (.lookUp (.fetch p)) = some (s', stage')) :
    stage'.fits s' (.enqueue p) ∧ Did s env (.enqueue p) (.lookUp (.fetch p)) s' stage' := by
  have straight : partitionedLookup s env p = none := by simp [partitionedLookup, whole]
  simp only [Stage.next, Producer.advance] at next
  cases found : findByIdempotency s env p.eventType p.idempotencyKey with
  | none =>
    rw [found] at next
    cases next
    exact ⟨trivial,.nothing rfl rfl (unanswered rfl)⟩
  | some existing =>
    rw [found] at next
    cases next
    refine ⟨trivial,.over rfl ?_ rfl⟩
    have conflict : s.messages.insert (enqueueRow env 0 p) = .conflict := by
      obtain ⟨member,named⟩ := findByIdempotency_mem found
      exact (insert_conflict_iff whole).mpr ⟨keyed,existing,member,named⟩
    simp only [Stage.view, exec, enqueue, straight, fits, conflict, if_neg keyed, found, if_true]
    rfl

/-- The look-ups of a batch change nothing, and whatever it answers is over with its INSERT. -/
theorem collect_did {ps : List EnqueueParams} {inserted : List Row} {rest : List (Uuid × EnqueueParams)}
    {out : List (Option InboundMessage)} {firstDup : Option StoreError}
    (next : Stage.next s env (.enqueueBatch ps) (.lookUp (.collect inserted rest out firstDup)) = some (s', stage')) :
    stage'.fits s' (.enqueueBatch ps) ∧
      Did s env (.enqueueBatch ps) (.lookUp (.collect inserted rest out firstDup)) s' stage' := by
  have goesOn : s' = s ∧ stage'.fits s' (.enqueueBatch ps) ∧ stage'.parts (.enqueueBatch ps) = [.enqueueBatch ps] := by
    cases rest with
    | nil =>
      cases next
      exact ⟨rfl,trivial,rfl⟩
    | cons item rest =>
      simp only [Stage.next, Producer.advance] at next
      split at next
      · rename_i later advanced
        cases next
        refine ⟨rfl,?_⟩
        split at advanced
        · cases advanced
          exact ⟨trivial,rfl⟩
        · split at advanced
          · cases advanced
          · split at advanced
            · cases advanced
            · cases advanced
              exact ⟨trivial,rfl⟩
      · rename_i result advanced
        cases next
        refine ⟨rfl,?_⟩
        split at advanced
        · cases advanced
        · split at advanced
          · cases advanced
            exact ⟨trivial,rfl⟩
          · split at advanced
            · cases advanced
              exact ⟨trivial,rfl⟩
            · cases advanced
  obtain ⟨rfl,fits,parts⟩ := goesOn
  exact ⟨fits,.nothing parts rfl (unanswered rfl)⟩

theorem insertBatchStage_did (ps : List EnqueueParams) :
    (insertBatchStage s env ps).2.fits (insertBatchStage s env ps).1 (.enqueueBatch ps) ∧
      Did s env (.enqueueBatch ps) .first (insertBatchStage s env ps).1 (insertBatchStage s env ps).2 := by
  unfold insertBatchStage
  by_cases nothing : ps = []
  · rw [if_pos nothing]
    refine ⟨trivial,.over rfl ?_ rfl⟩
    simp only [Stage.view, exec, enqueueBatch, nothing, if_true]
  · rw [if_neg nothing]
    by_cases fits : ps.all fitsColumns = true
    · rw [if_pos fits]
      cases inserted : batchInsertSQL s.messages (batchRows env ps) with
      | none =>
        refine ⟨trivial,.over rfl ?_ rfl⟩
        simp only [Stage.view, exec, enqueueBatch, nothing, fits, inserted, if_true, if_false]
      | some result =>
        refine ⟨trivial,Did.part _ rfl ?_ (unanswered rfl)⟩
        simp only [Stage.view, exec, enqueueBatch, nothing, fits, inserted, if_true, if_false]
    · rw [if_neg fits]
      refine ⟨trivial,.over rfl ?_ rfl⟩
      simp only [Stage.view, exec, enqueueBatch, nothing, fits, Bool.false_eq_true, if_false]

theorem claimedStage_did {p : ClaimParams} {messages : Messages cfg} {out : List InboundMessage}
    (before : stage.parts (.claim p) = [])
    (passes : claimPasses s.messages (stage.view env) p = (messages, out)) :
    (claimedStage cfg p out).fits { s with messages } (.claim p) ∧
      Did s env (.claim p) stage { s with messages } (claimedStage cfg p out) := by
  have done : ((messages, Reply.messages out) : Messages cfg × Reply) =
      ((exec s (stage.view env) (.claim p)).1.messages, (exec s (stage.view env) (.claim p)).2) := by
    simp only [exec, claim, passes]
  unfold claimedStage
  split
  · exact ⟨trivial,.over before done rfl⟩
  · obtain ⟨table,answers⟩ := Prod.mk.inj done
    refine ⟨rfl,Did.part (.claim p) ?_ table ?_⟩
    · rw [before]
      rfl
    · rintro r ⟨⟩
      exact answers

/-- When others hold all rows in the first pass, it returns nothing and the second one decides. -/
theorem claimPasses_shardLocked (messages : Messages cfg) (env : Env) (p : ClaimParams) :
    claimPasses messages (shardLocked env) p = fullPass messages env p := by
  have none : (shardPass messages (shardLocked env) p).2 = [] := by
    apply List.eq_nil_iff_forall_not_mem.mpr
    intro m member
    obtain ⟨r,_,chosen,_⟩ := mem_claimSQL.mp member
    obtain ⟨r',_,fits⟩ := mem_claimChosen chosen
    obtain ⟨_,_,_,_,free⟩ := eligible_iff.mp fits
    cases free
  have unchanged : (shardPass messages (shardLocked env) p).1 = messages := claimSQL_nil none
  rw [claimPasses_shard, if_pos none, unchanged]
  rfl

/-! ### The transaction of a BatchSucceed -/

theorem beginAcks_did (params : List BatchSucceedParam) :
    (firstStage s env (.batchSucceed params)).2.fits (firstStage s env (.batchSucceed params)).1 (.batchSucceed params) ∧
      Did s env (.batchSucceed params) .first (firstStage s env (.batchSucceed params)).1
        (firstStage s env (.batchSucceed params)).2 := by
  dsimp only [firstStage]
  by_cases short : params = [] ∨ (queued params).length < params.length
  · rw [if_pos short]
    exact ⟨trivial,.over rfl rfl rfl⟩
  · rw [if_neg short]
    have parsed : ∀ p ∈ params, p.messageID.parse.isSome = true := by
      by_contra malformed
      exact short (Or.inr (queued_length.mpr malformed))
    refine ⟨⟨?_,fun q member => (mem_queued.mp member).2,nofun,Versions.start _⟩,.nothing rfl rfl (unanswered rfl)⟩
    exact .of_eq (queued_params parsed)

/-- An UPDATE that finds nothing among the rows as its transaction sees them finds nothing in
the table either, if the transaction has not locked the row itself. -/
theorem update_missed {tx : Acking} {params : List BatchSucceedParam} (fits : tx.Fits s params) {mid : Uuid}
    {attempt : Int} (unlocked : mid ∉ tx.locks) (nothing : (tx.store s).messages.rows.any (holds mid attempt) = false) :
    ∀ r ∈ s.messages.rows, holds mid attempt r = false := by
  intro r member
  rw [Bool.eq_false_iff]
  intro held
  have free : r.id ∉ tx.locks := (holds_iff.mp held).1 ▸ unlocked
  have seen : r ∈ (tx.store s).messages.rows :=
    List.mem_map.mpr ⟨r,member,version_free fits.versions.locked free⟩
  exact List.any_eq_false.mp nothing r seen held

/-- The commit does what the UPDATEs that have found their rows would do in one piece. -/
theorem commit_messages {tx : Acking} {params : List BatchSucceedParam} (fits : tx.Fits s params) :
    (tx.store s).messages = (exec s tx.env (.batchSucceed tx.kept)).1.messages ∧
      (exec s tx.env (.batchSucceed tx.kept)).2 = .unit none := by
  have all : ¬(queued tx.kept).length < tx.kept.length := fun short => queued_length.mp short fits.parsed
  rw [exec, batchSucceed, if_neg all]
  refine ⟨?_,rfl⟩
  rw [acks_messages]
  refine fits.versions.commit.trans ?_
  rw [List.foldl_map]
  rfl

/-- An UPDATE that finds its row adds to the versions of the transaction, and one that does not
is a part of the batch by itself. -/
theorem update_did {params : List BatchSucceedParam} {tx : Acking} {mid : Uuid} {p : BatchSucceedParam}
    {rest : List (Uuid × BatchSucceedParam)} (fits : tx.Fits s params) (remaining : tx.rest = (mid, p) :: rest) :
    (tx.update s mid p rest).Fits s params ∧
      Did s env (.batchSucceed params) (.acking tx) s (.acking (tx.update s mid p rest)) := by
  have missed := @update_missed cfg s tx params fits mid p.attempt
  obtain ⟨parted,named,parsed,versions⟩ := fits
  rw [remaining] at parted named
  obtain ⟨names,later⟩ := List.forall_mem_cons.mp named
  have parses : p.messageID.parse = some mid := MessageID.parse_eq_some.mpr names
  unfold Acking.update
  split
  · refine ⟨⟨?_,later,?_,?_⟩,.nothing rfl rfl (unanswered rfl)⟩
    · simpa using parted
    · rw [List.forall_mem_append]
      exact ⟨parsed,by simp [parses]⟩
    · have queue : queued (tx.kept ++ [p]) = queued tx.kept ++ [(mid,p)] :=
        List.filterMap_append.trans (congrArg _ (queued_cons parses []))
      dsimp only
      rw [queue, List.map_append, succeedStatement_messages]
      refine @Versions.write _ _ _ _ _ _ _ _ _ _ _ versions [mid] (ackWrite cfg (tx.env.now 0) (mid,p)) ?_
      intro r held
      exact List.mem_append_left _ (List.mem_singleton.mpr (holds_iff.mp held).1)
  · rename_i none
    rw [Bool.or_eq_true, decide_eq_true_eq, not_or, Bool.not_eq_true] at none
    refine ⟨⟨?_,later,parsed,versions⟩,Did.part (.batchSucceed [p]) (List.map_append ..) ?_ (unanswered rfl)⟩
    · refine .trans ?_ parted
      simp only [List.append_assoc, List.map_cons, List.singleton_append]
      exact .append_left _ List.perm_middle.symm
    · have idle : succeedNoHistorySQL s.messages (tx.env.now 0) mid p.attempt = s.messages :=
        Table.update_idle (missed none.2 none.1)
      change s.messages = (exec s tx.env (.batchSucceed [p])).1.messages
      rw [exec, batchSucceed, queued_cons parses, if_neg (by simp), acks_messages]
      exact idle.symm

theorem acking_did {params : List BatchSucceedParam} {tx : Acking} (fits : tx.Fits s params)
    (next : Stage.next s env (.batchSucceed params) (.acking tx) = some (s', stage')) :
    stage'.fits s' (.batchSucceed params) ∧ Did s env (.batchSucceed params) (.acking tx) s' stage' := by
  cases remaining : tx.rest with
  | nil =>
    simp only [Stage.next, remaining] at next
    cases next
    obtain ⟨table,answer⟩ := commit_messages fits
    have parted := fits.parted
    rw [remaining, List.map_nil, List.append_nil] at parted
    refine ⟨parted,Did.part (.batchSucceed tx.kept) rfl table ?_⟩
    rintro r ⟨⟩
    exact answer.symm
  | cons q rest =>
    simp only [Stage.next, remaining] at next
    cases next
    exact update_did fits remaining

theorem firstStage_did (whole : cfg.partitioned = false) :
    (firstStage s env call).2.fits (firstStage s env call).1 call ∧
      Did s env call .first (firstStage s env call).1 (firstStage s env call).2 := by
  cases call with
  | enqueue p =>
    simp only [firstStage, whole, Bool.false_and, Bool.false_eq_true, if_false]
    exact insertStage_did whole p
  | enqueueBatch ps => exact insertBatchStage_did ps
  | claim p =>
    dsimp only [firstStage]
    by_cases nothing : (shardPass s.messages env p).2 = []
    · rw [if_pos nothing]
      exact ⟨rfl,.nothing rfl (claimSQL_nil nothing) (unanswered rfl)⟩
    · rw [if_neg nothing]
      apply claimedStage_did rfl
      change claimPasses s.messages env p = _
      rw [claimPasses_shard, if_neg nothing]
  | requeue id processAt =>
    cases parsed : id.parse with
    | none =>
      simp only [firstStage, parsed]
      refine ⟨trivial,.over rfl ?_ rfl⟩
      simp only [exec, requeue, parsed]
    | some mid =>
      simp only [firstStage, parsed]
      by_cases dead : s.messages.rows.any (isDead mid) = true
      · rw [if_pos dead]
        refine ⟨trivial,Did.part _ rfl ?_ ?_⟩
        · simp only [Stage.view, exec, requeue, parsed, dead, if_true]
        · rintro r ⟨⟩
          simp only [Stage.view, exec, requeue, parsed, dead, if_true]
      · rw [if_neg dead]
        refine ⟨trivial,.over rfl ?_ rfl⟩
        simp only [Stage.view, exec, requeue, parsed, dead, Bool.false_eq_true, if_false]
  | batchSucceed params => exact beginAcks_did params
  | succeed | fail | releaseShutdown | extend | reclaimExpired | purgeTerminal =>
    exact ⟨trivial,.over rfl rfl rfl⟩

/-- Every statement of every call. -/
theorem next_did (whole : cfg.partitioned = false) (fits : stage.fits s call)
    (next : stage.next s env call = some (s', stage')) : stage'.fits s' call ∧ Did s env call stage s' stage' := by
  cases stage with
  | first =>
    have did : (firstStage s env call).2.fits (firstStage s env call).1 call ∧
        Did s env call .first (firstStage s env call).1 (firstStage s env call).2 := firstStage_did whole
    rw [Option.some.inj next] at did
    exact did
  | insert p => cases call <;> cases fits
  | lookUp producer =>
    cases producer with
    | fetch p =>
      cases call with
      | enqueue p' =>
        obtain ⟨rfl,keyed,fits⟩ := fits
        exact fetch_did whole keyed fits next
      | _ => cases fits
    | collect =>
      cases call with
      | enqueueBatch => exact collect_did next
      | _ => cases fits
  | allShards p =>
    cases call with
    | claim p' =>
      cases fits
      cases next
      exact claimedStage_did rfl (claimPasses_shardLocked _ _ _)
    | _ => cases fits
  | claimHistory p out =>
    cases call with
    | claim p' =>
      cases next
      refine ⟨trivial,.nothing rfl rfl fun r given => ?_⟩
      rw [answer_returned given]
      rfl
    | _ => cases fits
  | requeueHistory mid =>
    cases call with
    | requeue =>
      cases next
      refine ⟨trivial,.nothing rfl rfl fun r given => ?_⟩
      rw [answer_returned given]
      rfl
    | _ => cases fits
  | acking tx =>
    cases call with
    | batchSucceed params => exact acking_did fits next
    | _ => cases fits
  | acked | returned => cases next

end

/-! ### Whole runs -/

theorem fits_kept {s s' : Store cfg} {call : Call} {stage : Stage} (fits : stage.fits s call)
    (kept : ∀ id ∈ stage.locks, s'.row id = s.row id) : stage.fits s' call := by
  cases stage with
  | acking tx =>
    cases call with
    | batchSucceed params => exact ⟨fits.parted,fits.named,fits.parsed,fits.versions.stable kept⟩
    | _ => cases fits
  | lookUp producer => cases producer <;> cases call <;> exact fits
  | _ => cases call <;> exact fits

theorem overlap_atomic (whole : cfg.partitioned = false) :
    (overlap cfg).Atomic Store.messages execTable Stage.fits Stage.answer where
  first _ call := by cases call <;> exact ⟨trivial,rfl,rfl⟩
  statement _ _ _ _ _ _ fits next := next_did whole fits next
  barred := by
    intro s call stage s' stage' fits free
    refine fits_kept fits fun id locked => ?_
    have unchanged := List.any_eq_false.mp free id locked
    simp only [ne_eq, Bool.or_eq_true, decide_eq_true_eq, not_or, Decidable.not_not] at unchanged
    exact unchanged.1
  background _ _ := ⟨rfl,fun _ _ fits => fits_kept fits fun _ _ => rfl⟩

theorem inOrder_execute (s : Store cfg) (order : List (Env × Call)) :
    inOrder execTable s.messages order = ((postgresQueue cfg).execute s order).messages := by
  induction order generalizing s with
  | nil => rfl
  | cons step rest ih =>
    rw [inOrder, exec_table]
    exact ih (exec s step.1 step.2).1

/-- Storage calls may overlap in any way, statement by statement, and yet the message table and
the answers are those of the calls one after the other, each where it took effect. There are two
exceptions. An Enqueue whose duplicate is gone when it looks it up returns an error and has no
effect. A BatchSucceed takes effect in one piece for the messages that its UPDATEs find held, and
for each of the others by itself, where its UPDATE ran. -/
theorem overlapping_calls_in_order (whole : cfg.partitioned = false) (s : Store cfg)
    (trace : List (Label Env Call HistoryPurge)) (d : State (Store cfg) Env Call Stage)
    (run : (overlap cfg).system.run ⟨s, [], []⟩ trace = some d) :
    d.shared.messages = ((postgresQueue cfg).execute s (d.order.map Prod.snd)).messages ∧
    (∀ (j : Nat) call reply, d.sessions[j]? = some ⟨call, .returned reply⟩ →
      (lostRow reply = true ∧ partsOf j d.order = []) ∨
      partsOf j d.order = [call] ∧ ∃ earlier env later, d.order = earlier ++ (j, env, call) :: later ∧
        ((∀ ps, call ≠ .enqueueBatch ps) →
          reply = ((postgresQueue cfg).exec ((postgresQueue cfg).execute s (earlier.map Prod.snd)) env call).2)) ∧
    ∀ (j : Nat) params missed kept, d.sessions[j]? = some ⟨.batchSucceed params, .acked missed kept⟩ →
      (missed ++ kept).Perm params ∧
      partsOf j d.order = missed.map (fun p => .batchSucceed [p]) ++ [.batchSucceed kept] := by
  have linear := (overlap_atomic whole).linear run
  refine ⟨linear.table.trans (inOrder_execute s _),fun j call reply at_ => ?_,fun j params missed kept at_ =>
    ⟨linear.fits _ (List.mem_of_getElem? at_),linear.parted j _ at_⟩⟩
  have parted : partsOf j d.order = if lostRow reply then [] else [call] := linear.parted j _ at_
  cases lost : lostRow reply with
  | true =>
    rw [lost, if_pos rfl] at parted
    exact Or.inl ⟨rfl,parted⟩
  | false =>
    rw [lost, if_neg Bool.false_ne_true] at parted
    refine Or.inr ⟨parted,?_⟩
    by_cases batch : ∃ ps, call = .enqueueBatch ps
    · have listed : call ∈ partsOf j d.order := parted ▸ List.mem_singleton_self call
      obtain ⟨env,member⟩ := mem_partsOf.mp listed
      obtain ⟨earlier,later,is⟩ := List.append_of_mem member
      obtain ⟨ps,named⟩ := batch
      exact ⟨earlier,env,later,is,fun other => absurd named (other ps)⟩
    · have given : Stage.answer call (.returned reply) = some reply := by
        cases call with
        | enqueueBatch ps => exact absurd ⟨ps,rfl⟩ batch
        | _ => simp [Stage.answer, lost]
      obtain ⟨earlier,env,part,later,is,answer⟩ := linear.answered j _ reply at_ given
      have member : (j, env, part) ∈ d.order := is ▸ List.mem_append_right _ List.mem_cons_self
      have own : part ∈ partsOf j d.order := mem_partsOf.mpr ⟨env,member⟩
      rw [parted, List.mem_singleton] at own
      subst own
      refine ⟨earlier,env,later,is,fun _ => ?_⟩
      rw [inOrder_execute, exec_table] at answer
      exact answer

/-! ### A batch that a claim overtakes -/

def twoAcks : List BatchSucceedParam := [⟨.uuid 7, 1, "v"⟩, ⟨.uuid 8, 1, "v"⟩]

/-- Two messages that nobody has claimed yet. -/
def twoMails : Store ⟨false, .full⟩ :=
  (enqueue (enqueue Store.empty (Env.quiet 5 7) (plainParams "mail" 2)).1 (Env.quiet 5 8) (plainParams "mail" 2)).1

/-- The first UPDATE of the batch finds nothing; then both messages are claimed under the attempt
that the batch names, and the second UPDATE finds its one. -/
def overtaken : List (Label Env Call HistoryPurge) :=
  [.begin (.batchSucceed twoAcks), .statement 0 (Env.quiet 6 0), .statement 0 (Env.quiet 6 0),
    .begin (.claim (fetchMail "w")), .statement 1 (Env.quiet 7 0), .statement 1 (Env.quiet 7 0),
    .statement 0 (Env.quiet 8 0), .statement 0 (Env.quiet 8 0)]

theorem overlapping_calls_in_order_overtaken :
    ∃ d, (overlap ⟨false, .full⟩).system.run ⟨twoMails, [], []⟩ overtaken = some d ∧
      (d.shared.row 7).map Row.status = some .handling ∧ (d.shared.row 8).map Row.status = some .success ∧
      d.order.map Prod.fst = [0, 1, 0] ∧
      d.shared.messages = ((postgresQueue ⟨false, .full⟩).execute twoMails (d.order.map Prod.snd)).messages ∧
      partsOf 0 d.order = [.batchSucceed [⟨.uuid 7, 1, "v"⟩], .batchSucceed [⟨.uuid 8, 1, "v"⟩]] ∧
      ∃ msgs earlier env later, d.sessions[1]? = some ⟨.claim (fetchMail "w"), .returned (.messages msgs)⟩ ∧
        d.order = earlier ++ (1, env, .claim (fetchMail "w")) :: later ∧
        .messages msgs = ((postgresQueue ⟨false, .full⟩).exec
          ((postgresQueue ⟨false, .full⟩).execute twoMails (earlier.map Prod.snd)) env (.claim (fetchMail "w"))).2 := by
  have whole : (⟨false, .full⟩ : Config).partitioned = false := rfl
  obtain ⟨table,answers,batches⟩ := overlapping_calls_in_order whole twoMails overtaken _ rfl
  obtain ⟨_,parts⟩ := batches 0 twoAcks _ _ rfl
  obtain ⟨_,earlier,env,later,is,answer⟩ := (answers 1 _ _ rfl).resolve_left fun lost => nomatch lost.1
  exact ⟨_,rfl,by decide,by decide,by decide,table,parts,_,earlier,env,later,rfl,is,answer fun _ other => nomatch other⟩

/-- As long as the transaction is open, nobody else can write the row that it has locked. -/
example : (overlap ⟨false, .full⟩).system.run ⟨twoMails, [], []⟩ (overtaken.take 7 ++
    [.begin (.releaseShutdown (.uuid 8) 1 "w" "stop"), .statement 2 (Env.quiet 8 0)]) = none := rfl

end Tickr.Postgres
