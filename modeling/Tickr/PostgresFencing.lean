import Tickr.PostgresTally

/-! Fencing of completion writes by the attempt counter, over runs in which any number of
workers and operators interleave. A BatchSucceed of several messages is the sequence of
its statements. -/
namespace Tickr.Postgres

open KeyedTable Lease

variable {cfg : Config}

def leaseGrants (s : Store cfg) (env : Env) : Operation → List (Uuid × Token String)
  | .claim p => handedOut p.workerID (claim s env p).2
  | _ => []

def leases (cfg : Config) : Protocol (Store cfg) Uuid String Row (Env × Operation) (Env × Completion) where
  row := Store.row
  slot := leaseSlot
  act s a := (exec s a.1 a.2.call).1
  cause a := leaseCause a.2
  grants s a := leaseGrants s a.1 a.2
  mints a := generated a.1 a.2
  settle s id t w := (exec s w.1 (w.2.call (.uuid id) t.attempt t.owner)).1

/-- What the completion guards compare. -/
def sameAttempt (t : Token String) (slot : Slot String) : Prop := t.attempt = slot.attempt

instance (t : Token String) (slot : Slot String) : Decidable (sameAttempt t slot) :=
  inferInstanceAs (Decidable (t.attempt = slot.attempt))

/-! ### Completion writes -/

def completionSet (now : Time) : Completion → Row → Row
  | .succeed | .batchSucceed => succeedSet now
  | .fail err nextRetryAt dead => if dead then failDeadSet now err else failRetrySet now err nextRetryAt
  | .releaseShutdown reason => releaseShutdownSet now reason

/-- Every completion write is one UPDATE guarded by id, status and attempt. -/
theorem completion_row (s : Store cfg) (env : Env) (w : Completion) (id : Uuid) (attempt : Int)
    (workerID : String) (k : Uuid) :
    (exec s env (w.call (.uuid id) attempt workerID)).1.row k =
      (s.row k).map (when (holds id attempt) (completionSet (env.now 0) w)) := by
  cases w with
  | succeed => exact succeedStatement_row ..
  | batchSucceed =>
    refine (acks_row s (env.now 0) [(id,⟨.uuid id,attempt,workerID⟩)] k).trans ?_
    simp only [List.any_cons, List.any_nil, Bool.or_false, completionSet]
  | fail err nextRetryAt dead => exact failStatement_row ..
  | releaseShutdown reason => exact releaseStatement_row ..

theorem completionSet_left (now : Time) (w : Completion) (r : Row) :
    (completionSet now w r).status ≠ .handling := by
  rcases w with _ | _ | ⟨_,_,_ | _⟩ | _ <;>
    simp [completionSet, succeedSet, failDeadSet, failRetrySet, releaseShutdownSet]

theorem completionSet_attempt (now : Time) (w : Completion) (r : Row) :
    r.attempt - 1 ≤ (completionSet now w r).attempt := by
  rcases w with _ | _ | ⟨_,_,_ | _⟩ | _ <;>
    simp only [completionSet, succeedSet, failDeadSet, failRetrySet, releaseShutdownSet, if_true,
      Bool.false_eq_true, if_false] <;> omega

theorem completion_effective {s : Store cfg} {id : Uuid} {r : Row} (found : s.row id = some r)
    (handling : r.status = .handling) (env : Env) (w : Completion) (workerID : String) :
    (exec s env (w.call (.uuid id) r.attempt workerID)).1.row id ≠ s.row id := by
  have on : holds id r.attempt r = true := holds_iff.mpr ⟨Store.row_id found,handling,rfl⟩
  rw [completion_row, found, Option.map_some, when, if_pos on]
  intro same
  exact completionSet_left (env.now 0) w r (congrArg Row.status (Option.some.inj same) |>.trans handling)

theorem completion_written (s : Store cfg) (id : Uuid) (t : Token String) (w : Env × Completion) :
    Written sameAttempt t ((leases cfg).changed s ((leases cfg).settle s id t w) id)
      ((leases cfg).slotAt s id) ((leases cfg).slotAt ((leases cfg).settle s id t w) id) := by
  refine Protocol.written_of_update (completion_row s w.1 w.2 id t.attempt t.owner id) ?_
  intro r on
  obtain ⟨_,handling,same⟩ := holds_iff.mp on
  have left := completionSet_left (w.1.now 0) w.2 r
  exact ⟨decide_eq_true handling,same.symm,decide_eq_false left,completionSet_attempt (w.1.now 0) w.2 r⟩

/-! ### Every other call -/

theorem claim_acted (s : Store cfg) (env : Env) (p : ClaimParams) (k : Uuid) :
    ∃ grant, Acted .plain ((leases cfg).changed s (claim s env p).1 k) ((leases cfg).slotAt s k)
      ((leases cfg).slotAt (claim s env p).1 k) grant ∧
      ∀ t, (k,t) ∈ handedOut p.workerID (claim s env p).2 ↔ grant = some t := by
  obtain ⟨_,_,handout⟩ := claim_handout s env p
  exact handout.acted (fun _ => ⟨rfl,rfl⟩) (fun _ => rfl) _ k

theorem RowStep.operation {env : Env} {k : Uuid} {op : Operation} {before after : Option Row}
    (step : RowStep env k op.call before after) (quiet : ∀ p, op ≠ .claim p) :
    OperationStep op before after := by
  cases op with
  | claim p => exact absurd rfl (quiet p)
  | enqueue p =>
    cases step with
    | same => exact .same
    | enqueue => exact .insert rfl rfl
  | enqueueBatch ps =>
    cases step with
    | same => exact .same
    | enqueueBatch => exact .insert rfl rfl
  | extend mid workerID until_ =>
    cases step with
    | same => exact .same
    | extend => exact .keep rfl rfl
  | requeue mid processAt =>
    cases step with
    | same => exact .same
    | requeue dead => exact .revive rfl dead rfl
  | reclaimExpired limit =>
    cases step with
    | same => exact .same
    | reclaimExpired handling => exact .expire rfl handling rfl rfl
  | purgeTerminal cutoff limit =>
    cases step with
    | same => exact .same
    | purgeTerminal terminal => exact .remove rfl terminal

theorem operation_acted (s : Store cfg) (env : Env) (op : Operation) (k : Uuid) :
    ∃ grant, Acted (leaseCause op) ((leases cfg).changed s (exec s env op.call).1 k)
      ((leases cfg).slotAt s k) ((leases cfg).slotAt (exec s env op.call).1 k) grant ∧
      ∀ t, (k,t) ∈ leaseGrants s env op ↔ grant = some t := by
  cases op with
  | claim p => exact claim_acted s env p k
  | _ => exact ⟨none,((exec_row s env _ k).operation (by simp)).acted,by simp [leaseGrants]⟩

theorem leases_lawful : Lawful (leases cfg) sameAttempt where
  acted s a k := operation_acted s a.1 a.2 k
  distinct s a := by
    obtain ⟨env,op⟩ := a
    cases op with
    | claim p =>
      obtain ⟨_,_,spec⟩ := claim_spec s env p
      exact handedOut_distinct spec.nodup
    | _ => exact List.nodup_nil
  minted s a k absent present := operation_minted s a.1 a.2 k absent present
  written := completion_written
  framed s id t w k other := by
    refine (completion_row s w.1 w.2 id t.attempt t.owner k).trans (map_when_same fun r found => ?_)
    simp [holds, Store.row_id found, other]

/-- A BatchSucceed is its acknowledgements, one after the other. -/
theorem batchSucceed_statements (s : Store cfg) (env : Env) (claims : List (Uuid × Token String)) :
    (exec s env (.batchSucceed (claims.map fun c => ⟨.uuid c.1, c.2.attempt, c.2.owner⟩))).1 =
      claims.foldl (fun s c => (exec s env (Completion.batchSucceed.call (.uuid c.1) c.2.attempt c.2.owner)).1) s := by
  have parsed : queued (claims.map fun c => ⟨.uuid c.1, c.2.attempt, c.2.owner⟩) =
      claims.map fun c => (c.1,⟨.uuid c.1, c.2.attempt, c.2.owner⟩) := by
    simp [queued, List.filterMap_map, MessageID.parse]
  have single (c : Uuid × Token String) :
      queued [⟨.uuid c.1, c.2.attempt, c.2.owner⟩] = [(c.1,⟨.uuid c.1, c.2.attempt, c.2.owner⟩)] := rfl
  simp [exec, batchSucceed, parsed, single, Completion.call, List.foldl_map]

/-! ### Runs without Requeue -/

/-- A completion write changes a row only if its claim is the most recent one of that
message and the row has been HANDLING ever since; so one transition ends a claim. -/
theorem completion_fenced (s : Store cfg) (trace : List StorageLabel) (final : Watched (Store cfg) Uuid String)
    (run : (leases cfg).system.run ⟨s, []⟩ trace = some final)
    (orderly : (leases cfg).system.Along (Orderly (leases cfg)) ⟨s, []⟩ trace) :
    (∀ c ∈ final.ledger, c.written = false → ∀ env (w : Completion) k,
      (exec final.store env (w.call (.uuid c.key) c.token.attempt c.token.owner)).1.row k ≠ final.store.row k →
      k = c.key ∧ c.latest = true ∧ c.kept = true) ∧
    ∀ c ∈ final.ledger, c.ends = [] ∨ c.ends = [.write] ∨ c.ends = [.expiry] := by
  have inv := leases_lawful.fenced (fun _ _ => False) (fun _ _ same => Or.inl same) run
    (orderly.mono fun m label orderly => ⟨orderly,by cases label <;> simp [Separate]⟩)
  refine ⟨?_,fun c member => (inv.sound c member).once⟩
  intro c member unwritten env w k effective
  exact inv.effective leases_lawful member unwritten (w := (env,w)) effective

/-- A stalls on its claim, loses the lease, and B claims the message again. -/
def reclaimedTrace : List StorageLabel :=
  [.act (Env.quiet 5 7, .enqueue (plainParams "mail" 3)),
   .act (Env.quiet 6 0, .claim ⟨"a", 10, 30 * Duration.second, []⟩),
   .act (Env.quiet (40 * Duration.second) 0, .reclaimExpired 500),
   .act (Env.quiet (41 * Duration.second) 0, .claim ⟨"b", 10, 30 * Duration.second, []⟩)]

theorem completion_fenced_reclaimed :
    ∃ final, (leases ⟨false, .full⟩).system.run ⟨Store.empty, []⟩ reclaimedTrace = some final ∧
      final.ledger.map (fun c => (c.latest,c.ends)) = [(false,[.expiry]),(true,[])] ∧
      ∀ c ∈ final.ledger, c.written = false → ∀ env (w : Completion) k,
        (exec final.store env (w.call (.uuid c.key) c.token.attempt c.token.owner)).1.row k ≠
          final.store.row k → k = c.key ∧ c.latest = true ∧ c.kept = true :=
  ⟨_,rfl,by decide +kernel,(completion_fenced Store.empty reclaimedTrace _ rfl (by decide +kernel)).1⟩

/-! ### Requeue -/

/-- The attempt number of a claim from before the last Requeue is handed out again. -/
def Reissued (c : Claim Uuid String) (t : Token String) : Prop := c.revived = true ∧ c.token.attempt = t.attempt

instance (c : Claim Uuid String) (t : Token String) : Decidable (Reissued c t) :=
  inferInstanceAs (Decidable (_ ∧ _))

/-- A Requeue sets the counter back, so the writes of a claim from before it, its first one
and any further one, are only kept out as long as no Claim hands its attempt number out
again; one that does lets them in. -/
theorem requeue_new_life (s : Store cfg) (trace : List StorageLabel) (final : Watched (Store cfg) Uuid String)
    (run : (leases cfg).system.run ⟨s, []⟩ trace = some final)
    (apart : (leases cfg).system.Along (NoClash (leases cfg) Reissued) ⟨s, []⟩ trace) :
    (∀ c ∈ final.ledger, c.revived = true → ∀ env (w : Completion) k,
      (exec final.store env (w.call (.uuid c.key) c.token.attempt c.token.owner)).1.row k =
        final.store.row k) ∧
    ∀ env p, ¬NoClash (leases cfg) Reissued final (.act (env,.claim p) : StorageLabel) →
      ∃ c ∈ final.ledger, c.revived = true ∧ ∀ env' (w : Completion),
        (exec (claim final.store env p).1 env'
          (w.call (.uuid c.key) c.token.attempt c.token.owner)).1.row c.key ≠
          (claim final.store env p).1.row c.key := by
  constructor
  · intro c member revived env w k
    have barred := leases_lawful.barred run apart c member revived
    exact leases_lawful.ignored (w := (env,w)) barred k
  · intro env p reissues
    simp only [NoClash, not_forall, not_not] at reissues
    obtain ⟨g,handed,c,member,same,revived,equal⟩ := reissues
    obtain ⟨grant,acted,granted⟩ := claim_acted final.store env p g.1
    obtain rfl := (granted g.2).mp handed
    obtain ⟨r,found,slot⟩ := Option.map_eq_some_iff.mp acted.of_grant.1
    simp only [leases, leaseSlot, Token.slot, Slot.mk.injEq, decide_eq_true_eq] at slot
    refine ⟨c,member,revived,fun env' w => ?_⟩
    rw [same, equal, ← slot.2.1]
    exact completion_effective found slot.1 env' w c.token.owner

/-- A stalls on attempt 1 until B has sent the message to the dead letters on attempt 2
and an operator has requeued it. -/
def requeuedTrace : List StorageLabel :=
  reclaimedTrace ++ [.write 1 (Env.quiet (42 * Duration.second) 0, .fail "boom" 0 true),
    .act (Env.quiet (43 * Duration.second) 0, .requeue (.uuid 7) none)]

theorem requeue_new_life_requeued :
    ∃ final, (leases ⟨false, .full⟩).system.run ⟨Store.empty, []⟩ requeuedTrace = some final ∧
      final.ledger.map (fun c => (c.revived,c.written)) = [(true,false),(true,true)] ∧
      ∀ c ∈ final.ledger, c.revived = true → ∀ env (w : Completion) k,
        (exec final.store env (w.call (.uuid c.key) c.token.attempt c.token.owner)).1.row k =
          final.store.row k :=
  ⟨_,rfl,by decide +kernel,(@requeue_new_life ⟨false, .full⟩ Store.empty requeuedTrace _ rfl (by decide +kernel)).1⟩

/-- C claims the requeued message, again as attempt 1, and the write that A still owes
for its own attempt 1 takes the message from C. -/
theorem requeue_new_life_broken :
    ∃ final, (leases ⟨false, .full⟩).system.run ⟨Store.empty, []⟩ (requeuedTrace ++
        [.act (Env.quiet (44 * Duration.second) 0, .claim ⟨"c", 10, 30 * Duration.second, []⟩)]) = some final ∧
      (leases ⟨false, .full⟩).system.Along (fun m label => Fresh (leases _) m label ∧ FirstWrite m label)
        ⟨Store.empty, []⟩ (requeuedTrace ++
          [.act (Env.quiet (44 * Duration.second) 0, .claim ⟨"c", 10, 30 * Duration.second, []⟩)]) ∧
      ∃ c ∈ final.ledger, c.key = 7 ∧ c.token = ⟨1, "a"⟩ ∧ c.revived = true ∧ c.written = false ∧
        (exec final.store (Env.quiet (45 * Duration.second) 0) (.succeed (.uuid 7) 1 "a")).1.row 7 ≠
          final.store.row 7 :=
  ⟨_,rfl,by decide +kernel,⟨7,⟨1,"a"⟩,false,false,false,true,[.expiry]⟩,by decide +kernel,rfl,rfl,rfl,rfl,by decide +kernel⟩

end Tickr.Postgres
