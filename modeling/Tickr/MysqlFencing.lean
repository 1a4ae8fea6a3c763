import Tickr.MysqlTally

/-! Fencing of completion writes on MySQL. The guards of Succeed, Fail and ReleaseShutdown
compare the claimant and that of BatchSucceed the attempt, so a write gets through when
either of the two agrees with the row. -/
namespace Tickr.Mysql

open KeyedTable Lease

variable {cfg : Config}

def leaseGrants (s : Store cfg) (env : Env) : Operation → List (Uuid × Token String)
  | .claim p => handedOut p.workerID (claim s env p).2
  | _ => []

def leases (cfg : Config) : Protocol (Store cfg) Uuid String Row (Env × Operation) (Env × Completion) where
  row := Store.row
  slot := leaseSlot
  act s a := (exec s a.1 a.2.call).1
  cause a := leaseCause a.2
  grants s a := leaseGrants s a.1 a.2
  mints a := generated a.1 a.2
  settle s id t w := (exec s w.1 (w.2.call (.uuid id) t.attempt t.owner)).1

/-- The claimant column of `slot` compares equal to `owner`. -/
def sameOwner (cfg : Config) (owner : String) (slot : Slot String) : Prop :=
  ∃ other, slot.owner = some other ∧ cfg.collate owner = cfg.collate other

def sameClaim (cfg : Config) (t : Token String) (slot : Slot String) : Prop :=
  t.attempt = slot.attempt ∨ sameOwner cfg t.owner slot

/-! ### Completion writes -/

def completionGuard (cfg : Config) (id : Uuid) (attempt : Int) (workerID : String) : Completion → Row → Bool
  | .batchSucceed => holdsAttempt (.uuid id) attempt
  | _ => holdsClaim cfg (.uuid id) workerID

def completionSet (now : Time) : Completion → Row → Row
  | .succeed | .batchSucceed => succeedSet now
  | .fail err nextRetryAt dead => if dead then failDeadSet now err else failRetrySet now err nextRetryAt
  | .releaseShutdown _ => releaseShutdownSet now

/-- A completion write is a guarded UPDATE, unless it is a Fail that is refused. -/
theorem completion_row (s : Store cfg) (env : Env) (w : Completion) (id : Uuid) (attempt : Int)
    (workerID : String) : ∃ accepted : Bool, ∀ k,
    (exec s env (w.call (.uuid id) attempt workerID)).1.row k =
      (s.row k).map (when (fun r => accepted && completionGuard cfg id attempt workerID w r)
        (completionSet (timestamp cfg env 0) w)) := by
  cases w with
  | succeed => exact ⟨true,fun k => succeed_row ..⟩
  | batchSucceed =>
    refine ⟨true,fun k => (batchSucceed_row s env _ k).trans ?_⟩
    simp only [List.any_cons, List.any_nil, Bool.or_false, Bool.true_and, completionSet, completionGuard]
  | fail err nextRetryAt dead => exact ⟨_,fun k => fail_row ..⟩
  | releaseShutdown reason => exact ⟨true,fun k => releaseShutdown_row ..⟩

theorem completionGuard_fires {id : Uuid} {attempt : Int} {workerID : String} {w : Completion} {r : Row}
    (on : completionGuard cfg id attempt workerID w r = true) :
    r.id = id ∧ r.status = .handling ∧ sameClaim cfg ⟨attempt, workerID⟩ (leaseSlot r) := by
  have byClaim (on : holdsClaim cfg (.uuid id) workerID r = true) :
      r.id = id ∧ r.status = .handling ∧ sameClaim cfg ⟨attempt, workerID⟩ (leaseSlot r) := by
    obtain ⟨named,handling,owner⟩ := holdsClaim_iff.mp on
    exact ⟨(MessageID.uuid.inj named).symm,handling,Or.inr owner⟩
  cases w with
  | batchSucceed =>
    obtain ⟨named,handling,same⟩ := holdsAttempt_iff.mp on
    exact ⟨(MessageID.uuid.inj named).symm,handling,Or.inl same.symm⟩
  | succeed | fail | releaseShutdown => exact byClaim on

theorem completionSet_left (now : Time) (w : Completion) (r : Row) :
    (completionSet now w r).status ≠ .handling := by
  rcases w with _ | _ | ⟨_,_,_ | _⟩ | _
  case releaseShutdown => simp only [completionSet, releaseShutdownSet]; split <;> simp
  all_goals simp [completionSet, succeedSet, failDeadSet, failRetrySet]

theorem completionSet_attempt (now : Time) (w : Completion) (r : Row) :
    r.attempt - 1 ≤ (completionSet now w r).attempt := by
  rcases w with _ | _ | ⟨_,_,_ | _⟩ | _ <;>
    simp only [completionSet, succeedSet, failDeadSet, failRetrySet, releaseShutdownSet, if_true,
      Bool.false_eq_true, if_false] <;> omega

theorem completion_written (s : Store cfg) (id : Uuid) (t : Token String) (w : Env × Completion) :
    Written (sameClaim cfg) t ((leases cfg).changed s ((leases cfg).settle s id t w) id)
      ((leases cfg).slotAt s id) ((leases cfg).slotAt ((leases cfg).settle s id t w) id) := by
  obtain ⟨_,row⟩ := completion_row s w.1 w.2 id t.attempt t.owner
  refine Protocol.written_of_update (row id) ?_
  intro r on
  obtain ⟨_,handling,accepted⟩ := completionGuard_fires (Bool.and_eq_true_iff.mp on).2
  exact ⟨leaseSlot_held handling,accepted,leaseSlot_idle (completionSet_left _ w.2 r),
    completionSet_attempt (timestamp cfg w.1 0) w.2 r⟩

/-! ### Every other call -/

theorem claim_acted (s : Store cfg) (env : Env) (p : ClaimParams) (k : Uuid) :
    ∃ grant, Acted .plain ((leases cfg).changed s (claim s env p).1 k) ((leases cfg).slotAt s k)
      ((leases cfg).slotAt (claim s env p).1 k) grant ∧
      ∀ t, (k,t) ∈ handedOut p.workerID (claim s env p).2 ↔ grant = some t := by
  obtain ⟨_,handout⟩ := claim_handout s env p
  exact handout.acted (fun _ => ⟨rfl,rfl⟩) (fun _ => rfl) _ k

theorem RowStep.operation {env : Env} {k : Uuid} {op : Operation} {before after : Option Row}
    (step : RowStep cfg env k op.call before after) (quiet : ∀ p, op ≠ .claim p) :
    OperationStep op before after := by
  cases op with
  | claim p => exact absurd rfl (quiet p)
  | enqueue p =>
    cases step with
    | same => exact .same
    | enqueue => exact .insert rfl rfl
  | enqueueBatch ps =>
    cases step with
    | same => exact .same
    | enqueueBatch => exact .insert rfl rfl
  | extend mid workerID until_ =>
    cases step with
    | same => exact .same
    | extend => exact .keep rfl rfl
  | requeue mid processAt =>
    cases step with
    | same => exact .same
    | requeue dead => exact .revive rfl dead rfl
  | reclaimExpired limit =>
    cases step with
    | same => exact .same
    | reclaimExpired handling => exact .expire rfl handling rfl rfl
  | purgeTerminal cutoff limit =>
    cases step with
    | same => exact .same
    | purgeTerminal terminal => exact .remove rfl terminal

theorem operation_acted (s : Store cfg) (env : Env) (op : Operation) (k : Uuid) :
    ∃ grant, Acted (leaseCause op) ((leases cfg).changed s (exec s env op.call).1 k)
      ((leases cfg).slotAt s k) ((leases cfg).slotAt (exec s env op.call).1 k) grant ∧
      ∀ t, (k,t) ∈ leaseGrants s env op ↔ grant = some t := by
  cases op with
  | claim p => exact claim_acted s env p k
  | _ => exact ⟨none,((exec_row s env _ k).operation (by simp)).acted,by simp [leaseGrants]⟩

theorem operation_minted (s : Store cfg) (env : Env) (op : Operation) (k : Uuid) (absent : s.row k = none)
    (present : (exec s env op.call).1.row k ≠ none) : k ∈ generated env op := by
  have step := exec_row s env op.call k
  rw [absent] at step
  generalize (exec s env op.call).1.row k = after at step present
  cases op with
  | enqueue p =>
    cases step with
    | same => exact absurd rfl present
    | enqueue named => exact List.mem_singleton.mpr named
  | enqueueBatch ps =>
    cases step with
    | same => exact absurd rfl present
    | enqueueBatch named found =>
      exact List.mem_map.mpr ⟨_,List.mem_range.mpr (List.getElem?_eq_some_iff.mp found).1,named.symm⟩
  | claim | extend | requeue | reclaimExpired | purgeTerminal =>
    cases step
    exact absurd rfl present

theorem leases_lawful : Lawful (leases cfg) (sameClaim cfg) where
  acted s a k := operation_acted s a.1 a.2 k
  distinct s a := by
    obtain ⟨env,op⟩ := a
    cases op with
    | claim p =>
      obtain ⟨_,spec⟩ := claim_spec s env p
      exact handedOut_distinct spec.nodup
    | _ => exact List.nodup_nil
  minted s a k absent present := operation_minted s a.1 a.2 k absent present
  written := completion_written
  framed s id t w k other := by
    obtain ⟨_,row⟩ := completion_row s w.1 w.2 id t.attempt t.owner
    refine (row k).trans (map_when_same fun r found => ?_)
    refine Bool.eq_false_iff.mpr fun on => other ?_
    rw [← Store.row_id found]
    exact (completionGuard_fires (Bool.and_eq_true_iff.mp on).2).1

/-! ### Runs without Requeue -/

/-- The worker that is handed a message compares equal to one that claimed it before. -/
def SameWorker (cfg : Config) (c : Claim Uuid String) (t : Token String) : Prop :=
  cfg.collate c.token.owner = cfg.collate t.owner

instance (c : Claim Uuid String) (t : Token String) : Decidable (SameWorker cfg c t) :=
  inferInstanceAs (Decidable (_ = _))

/-- A completion write is fenced as long as no worker is handed a message again while its
own earlier claim of it still has to report; once one is, that report gets through. -/
theorem claimant_fenced (s : Store cfg) (trace : List StorageLabel) (final : Watched (Store cfg) Uuid String)
    (run : (leases cfg).system.run ⟨s, []⟩ trace = some final)
    (along : (leases cfg).system.Along (fun m label => Orderly (leases cfg) m label ∧
      Separate (leases cfg) (SameWorker cfg) m label) ⟨s, []⟩ trace) :
    (∀ c ∈ final.ledger, c.written = false → ∀ env (w : Completion) k,
      (exec final.store env (w.call (.uuid c.key) c.token.attempt c.token.owner)).1.row k ≠ final.store.row k →
      k = c.key ∧ c.latest = true ∧ c.kept = true) ∧
    ∀ env p, ¬Separate (leases cfg) (SameWorker cfg) final (.act (env,.claim p) : StorageLabel) →
      ∃ c ∈ final.ledger, c.written = false ∧
        (∃ t, (c.key,t) ∈ handedOut p.workerID (claim final.store env p).2) ∧
        ∀ env', (exec (claim final.store env p).1 env'
          (.succeed (.uuid c.key) c.token.attempt c.token.owner)).1.row c.key ≠
          (claim final.store env p).1.row c.key := by
  constructor
  · have inv := leases_lawful.fenced (SameWorker cfg) (fun c t accepted => ?_) run along
    · intro c member unwritten env w k effective
      exact inv.effective leases_lawful member unwritten (w := (env,w)) effective
    · refine accepted.imp id ?_
      rintro ⟨other,owner,same⟩
      exact same.trans (congrArg cfg.collate (Option.some.inj owner).symm)
  · intro env p repeated
    simp only [Separate, not_forall, not_not] at repeated
    obtain ⟨g,handed,c,member,same,unwritten,worker⟩ := repeated
    obtain ⟨grant,acted,granted⟩ := claim_acted final.store env p g.1
    obtain rfl := (granted g.2).mp handed
    obtain ⟨r,found,slot⟩ := Option.map_eq_some_iff.mp acted.of_grant.1
    simp only [leases, leaseSlot, Token.slot, Slot.mk.injEq, decide_eq_true_eq] at slot
    refine ⟨c,member,unwritten,⟨g.2,same ▸ handed⟩,fun env' => ?_⟩
    have on : holdsClaim cfg (.uuid c.key) c.token.owner r = true :=
      holdsClaim_iff.mpr ⟨by rw [same, Store.row_id found],slot.1,g.2.owner,slot.2.2,worker⟩
    intro still
    rw [same] at still on
    have row := succeed_row (claim final.store env p).1 env' (.uuid g.1) c.token.attempt c.token.owner g.1
    rw [show (claim final.store env p).1.row g.1 = some r from found, Option.map_some, when, if_pos on] at row
    have status := congrArg (Option.map Row.status) (row.symm.trans (still.trans found))
    simp [succeedSet, slot.1] at status

/-- A stalls on its claim and loses the lease; then `second` claims the message. -/
def reclaimedTrace (second : String) : List StorageLabel :=
  [.act (Env.quiet 5 7, .enqueue (plainParams "mail" 3)),
   .act (Env.quiet 6 0, .claim ⟨"a", 10, 30 * Duration.second, ["mail"]⟩),
   .act (Env.quiet (40 * Duration.second) 0, .reclaimExpired 500),
   .act (Env.quiet (41 * Duration.second) 0, .claim ⟨second, 10, 30 * Duration.second, ["mail"]⟩)]

theorem claimant_fenced_reclaimed :
    ∃ final, (leases .binary).system.run ⟨Store.empty, []⟩ (reclaimedTrace "b") = some final ∧
      final.ledger.map (fun c => (c.latest,c.written)) = [(false,false),(true,false)] ∧
      ∀ c ∈ final.ledger, c.written = false → ∀ env (w : Completion) k,
        (exec final.store env (w.call (.uuid c.key) c.token.attempt c.token.owner)).1.row k ≠
          final.store.row k → k = c.key ∧ c.latest = true ∧ c.kept = true :=
  ⟨_,rfl,by decide +kernel,(claimant_fenced Store.empty (reclaimedTrace "b") _ rfl (by decide +kernel)).1⟩

/-- A itself claims the message again, and the Succeed that its stalled claim still owes
ends the new attempt. -/
theorem claimant_fenced_broken :
    ∃ final, (leases .binary).system.run ⟨Store.empty, []⟩ (reclaimedTrace "a") = some final ∧
      (leases .binary).system.Along (Orderly (leases .binary)) ⟨Store.empty, []⟩ (reclaimedTrace "a") ∧
      ∃ c ∈ final.ledger, c.key = 7 ∧ c.token = ⟨1, "a"⟩ ∧ c.written = false ∧ c.latest = false ∧
        (exec final.store (Env.quiet (42 * Duration.second) 0) (.succeed (.uuid 7) 1 "a")).1.row 7 ≠
          final.store.row 7 :=
  ⟨_,rfl,by decide +kernel,⟨7,⟨1,"a"⟩,false,false,false,false,[.expiry]⟩,by decide +kernel,rfl,rfl,rfl,rfl,
    by decide +kernel⟩

end Tickr.Mysql
