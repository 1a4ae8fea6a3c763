import Tickr.FleetClock

/-! Draining. The extenders watch the context that a shutdown cancels, so from the
cancellation on nobody renews the leases of the handlers that the drain waits for. -/
namespace Tickr

open Transition Postgres

variable {pg : Postgres.Config}

/-- The row is HANDLING under the attempt that the success write names, and the write, as a
Succeed or among others in a BatchSucceed, makes it SUCCESS. -/
structure TakesEffect (s : Store pg) (workerID : String) (x : Tag) : Prop where
  current : ∃ k ∈ x.1.parse, ∃ r ∈ s.row k, r.status = .handling ∧ r.attempt = x.2
  succeed : ∀ env, ∀ k ∈ x.1.parse,
    ((exec s env (.succeed x.1 x.2 workerID)).1.row k).map Row.status = some .success
  batchSucceed : ∀ env params, (∀ p ∈ params, p.messageID.parse.isSome = true) → ⟨x.1, x.2, workerID⟩ ∈ params →
    ∀ k ∈ x.1.parse, ((exec s env (.batchSucceed params)).1.row k).map Row.status = some .success

section
variable {s : Store pg} {workerID : String} {k : Uuid} {r : Row}

theorem succeed_current (found : s.row k = some r) (handling : r.status = .handling) (env : Env) :
    ((exec s env (.succeed (.uuid k) r.attempt workerID)).1.row k).map Row.status = some .success := by
  have row := succeedStatement_row s (env.now 0) k r.attempt workerID k
  rw [found, Option.map_some, KeyedTable.when, if_pos (holds_iff.mpr ⟨Store.row_id found,handling,rfl⟩)] at row
  show ((succeedStatement s (env.now 0) k r.attempt workerID).row k).map Row.status = _
  rw [row]
  rfl

theorem batchSucceed_current {params : List BatchSucceedParam} (found : s.row k = some r)
    (handling : r.status = .handling) (parsed : ∀ p ∈ params, p.messageID.parse.isSome = true)
    (member : ⟨.uuid k, r.attempt, workerID⟩ ∈ params) (env : Env) :
    ((exec s env (.batchSucceed params)).1.row k).map Row.status = some .success := by
  have all : ¬(queued params).length < params.length := fun short => queued_length.mp short parsed
  have named : (k, (⟨.uuid k, r.attempt, workerID⟩ : BatchSucceedParam)) ∈ queued params :=
    mem_queued.mpr ⟨member,rfl⟩
  have row := acks_row s (env.now 0) (queued params) k
  rw [found, Option.map_some, KeyedTable.when, if_pos (List.any_eq_true.mpr ⟨_,named,holds_iff.mpr
    ⟨Store.row_id found,handling,rfl⟩⟩)] at row
  rw [exec, Postgres.batchSucceed, if_neg all]
  rw [row]
  rfl

theorem Leased.takesEffect {x : Tag} {time : Time} (leased : Leased s workerID x time) :
    TakesEffect s workerID x := by
  obtain ⟨id,attempt⟩ := x
  obtain ⟨k,named,r,found,handling,current,_⟩ := leased
  obtain rfl : id = .uuid k := MessageID.parse_eq_some.mp named
  obtain rfl : r.attempt = attempt := current
  refine ⟨⟨k,rfl,r,found,handling,rfl⟩,fun env k' same => ?_,fun env params parsed member k' same => ?_⟩
  · cases same
    exact succeed_current found handling env
  · cases same
    exact batchSucceed_current found handling parsed member env

end

/-! ### After the cancellation -/

/-- Every Extend succeeds before the lease that it renews has expired. -/
def Renewed (c : ClockedFleet pg) : ClockLabel → Prop
  | .advance _ => True
  | .fleet label => Prolongs c label

def Owing (x : Tag) (c : ClockedFleet pg) (_ : ClockLabel) : Prop := x ∈ c.fleet.owed

instance (c : ClockedFleet pg) : ∀ label, Decidable (Renewed c label)
  | .advance _ => isTrue trivial
  | .fleet _ => inferInstanceAs (Decidable (Prolongs _ _))

instance (x : Tag) (c : ClockedFleet pg) (label : ClockLabel) : Decidable (Owing x c label) :=
  inferInstanceAs (Decidable (_ ∈ _))

theorem run_audited {start : Time} {trace : List ClockLabel} {c : ClockedFleet pg}
    (run : (clockSystem pg).run (newClockedFleet start) trace = some c)
    (settled : (clockSystem pg).Along Settled (newClockedFleet start) trace) : Audited c.fleet := by
  refine System.invariant Settled (fun c => Audited c.fleet) ?_ run settled newFleet_audited
  intro c label c' audited settled step
  cases label with
  | advance time =>
    obtain ⟨_,rfl⟩ := ClockedFleet.step_advance step
    exact audited
  | fleet label =>
    obtain ⟨_,_,advanced,_⟩ := ClockedFleet.step_fleet step
    exact advanced.audited audited (settled.stamped c.now)

section
variable {c d : ClockedFleet pg} {workerID : String} {x : Tag} {u : Time}

/-- A claim lasts at least as long as its lease did at some moment, if its write is owed
all the time. -/
theorem run_leased {trace : List ClockLabel} (run : (clockSystem pg).run c trace = some d)
    (settled : (clockSystem pg).Along Settled c trace) (renewed : (clockSystem pg).Along Renewed c trace)
    (owing : (clockSystem pg).Along (Owing x) c trace) (audited : Audited c.fleet)
    (leased : Leased c.fleet.store workerID x u) (owed : x ∈ d.fleet.owed) (unexpired : d.now ≤ u) :
    Leased d.fleet.store workerID x u := by
  have kept : Audited d.fleet ∧ (x ∈ d.fleet.owed → d.now ≤ u → Leased d.fleet.store workerID x u) := by
    refine System.invariant (fun c label => Settled c label ∧ Renewed c label ∧ Owing x c label)
      (fun c => Audited c.fleet ∧ (x ∈ c.fleet.owed → c.now ≤ u → Leased c.fleet.store workerID x u)) ?_ run
      (settled.and (renewed.and owing)) ⟨audited,fun _ _ => leased⟩
    intro c label c' kept condition step
    obtain ⟨settled,renewed,before⟩ := condition
    obtain ⟨audited,leased⟩ := kept
    cases label with
    | advance time =>
      obtain ⟨later,rfl⟩ := ClockedFleet.step_advance step
      exact ⟨audited,fun owed unexpired => leased owed (Int.le_trans later unexpired)⟩
    | fleet label =>
      obtain ⟨_,_,advanced,same,_⟩ := ClockedFleet.step_fleet step
      refine ⟨advanced.audited audited (settled.stamped c.now),fun owed unexpired => ?_⟩
      rw [same] at unexpired
      exact (leased before unexpired).advanced unexpired advanced audited renewed owed
  exact kept.2 owed unexpired

end

/-! ### The promise -/

/-- Whatever else the fleet does until `deadline`, as long as the success write is still
owed it would take effect. -/
def Kept (c : ClockedFleet pg) (workerID : String) (x : Tag) (deadline : Time) : Prop :=
  ∀ after d, (clockSystem pg).run c after = some d → (clockSystem pg).Along Settled c after →
    (clockSystem pg).Along Renewed c after → (clockSystem pg).Along (Owing x) c after →
    x ∈ d.fleet.owed → d.now ≤ deadline → TakesEffect d.fleet.store workerID x

/-- Once the lease has expired, one run of the reclaimer breaks it. -/
theorem kept_outlasted {c : ClockedFleet pg} {workerID : String} {x : Tag} {k : Uuid} {r : Row} {u deadline : Time}
    (named : x.1 = .uuid k) (found : c.fleet.store.row k = some r) (handling : r.status = .handling)
    (lease : r.claimedUntil = some u) (owed : x ∈ c.fleet.owed) (future : c.now ≤ deadline)
    (kept : Kept c workerID x deadline) : deadline ≤ u := by
  by_contra lapsed
  -- at the deadline the reclaimer takes back whatever has expired
  let env := Env.quiet deadline 0
  let limit : Int := c.fleet.store.messages.rows.length + 1
  let label : FleetLabel := .operate env (.reclaimExpired limit)
  let d : ClockedFleet pg := ⟨deadline, c.fleet.exec env (.reclaimExpired limit), c.ticks⟩
  have run : (clockSystem pg).run c [.advance deadline, .fleet label] = some d := by
    have passed : (clockSystem pg).step c (.advance deadline) = some { c with now := deadline } := if_pos future
    rw [System.run, passed]
    rfl
  have expired : expired env r = true := expired_iff.mpr ⟨handling,⟨u,lease,Int.not_le.mp lapsed⟩,rfl⟩
  have room : c.fleet.store.messages.rows.length ≤ limitOr 500 limit := by
    simp only [limitOr, limit]
    split <;> omega
  have reclaimed : d.fleet.store.row k = some (reclaimSet (env.now 0) r) :=
    Store.row_id found ▸ reclaim_takes (Store.row_mem found) expired room
  have along {condition : ClockedFleet pg → ClockLabel → Prop} (first : condition c (.advance deadline))
      (second : condition { c with now := deadline } (.fleet label)) :
      (clockSystem pg).Along condition c [.advance deadline, .fleet label] := by
    refine ⟨first,fun next passed => ?_⟩
    obtain ⟨_,rfl⟩ := ClockedFleet.step_advance passed
    exact ⟨second,fun _ _ => trivial⟩
  have effect : TakesEffect d.fleet.store workerID x := by
    refine kept _ d run (along trivial ?_) (along trivial ?_) (along owed owed) owed (Int.le_refl _)
    · intro id impossible
      cases impossible
    · intro extension impossible
      cases impossible
  obtain ⟨k',named',r',found',handling',_⟩ := effect.current
  rw [named] at named'
  cases named'
  cases reclaimed.symm.trans found'
  cases handling'

/-- The cancellation itself changes no row and no debt. -/
theorem cancelled_step {c c' : ClockedFleet pg} {i : Nat} {e : Engine} {t : Task} {m : InboundMessage}
    (step : c.step (.fleet (.engine i .cancel none)) = some c') (at_ : c.fleet.engines[i]? = some e)
    (task : t ∈ e.tasks) (running : t.phase = .running) (handled : m ∈ t.job.msgs) (audited : Audited c.fleet) :
    c'.fleet.store = c.fleet.store ∧ m.tag ∈ c'.fleet.owed ∧ c'.now = c.now ∧ Audited c'.fleet := by
  obtain ⟨_,_,advanced,now,_⟩ := ClockedFleet.step_fleet step
  have undisturbed : Undisturbed c.fleet (.engine i .cancel none) := by
    intro id impossible
    cases impossible
  have audited' := advanced.audited audited undisturbed
  have advanced : Advanced c.fleet (.engine i .cancel none) c'.fleet := advanced
  generalize c'.fleet = f' at advanced audited' ⊢
  cases advanced with
  | silent at_' stepped =>
    cases at_.symm.trans at_'
    cases stepped
    refine ⟨rfl,?_,now,audited'⟩
    have engine := List.mem_set (List.getElem?_eq_some_iff.mp at_).1 { e with ctxDone := true }
    exact Fleet.owed_of_handled engine (mem_handled.mpr ⟨t,task,running,m,handled,rfl⟩)
  | delayed _ stepped => cases stepped

/-- When the worker's context is cancelled, the success write of a running handler is sure
to take effect up to a deadline, such as the end of the shutdown grace, if and only if the
lease that the row has at that moment lasts until then. -/
theorem drained_outcome_kept (start : Time) (trace : List ClockLabel) (c c' : ClockedFleet pg) (i : Nat)
    (e : Engine) (t : Task) (m : InboundMessage) (k : Uuid) (r : Row) (u deadline : Time)
    (run : (clockSystem pg).run (newClockedFleet start) trace = some c)
    (settled : (clockSystem pg).Along Settled (newClockedFleet start) trace)
    (at_ : c.fleet.engines[i]? = some e) (task : t ∈ e.tasks) (running : t.phase = .running)
    (handled : m ∈ t.job.msgs) (named : m.id = .uuid k) (found : c.fleet.store.row k = some r)
    (handling : r.status = .handling) (current : r.attempt = m.attempt)
    (owner : r.claimedBy = some e.cfg.workerID) (lease : r.claimedUntil = some u)
    (cancelled : (clockSystem pg).step c (.fleet (.engine i .cancel none)) = some c') (future : c.now ≤ deadline) :
    Kept c' e.cfg.workerID m.tag deadline ↔ deadline ≤ u := by
  have audited := run_audited run settled
  obtain ⟨store,owed,now,audited'⟩ : c'.fleet.store = c.fleet.store ∧ m.tag ∈ c'.fleet.owed ∧ c'.now = c.now ∧
      Audited c'.fleet := cancelled_step cancelled at_ task running handled audited
  have found' : c'.fleet.store.row k = some r := store ▸ found
  constructor
  · exact kept_outlasted named found' handling lease owed (now ▸ future)
  · intro outlasts after d run settled renewed owing owed early
    have leased : Leased c'.fleet.store e.cfg.workerID m.tag u :=
      ⟨k,MessageID.parse_eq_some.mpr named,r,found',handling,current,owner,u,lease,Int.le_refl _⟩
    exact (run_leased run settled renewed owing audited' leased owed (Int.le_trans early outlasts)).takesEffect

/-! ### Thirty seconds of lease and of grace -/

/-- A handler is running, and its lease has been renewed after ten seconds. -/
def drainTrace : List ClockLabel :=
  [.fleet (.start mailer), .fleet (.operate (Env.quiet 0 7) (.enqueue (plainParams "mail" 3))),
   .fleet (.engine 0 .poll none),
   .fleet (.engine 0 (.claimed [scanMessage (claimSet 0 "w" 30 (mailRow 0 7))] []) (some (Env.quiet 0 0))),
   .fleet (.engine 0 .dispatch none),
   .advance (10 * Duration.second),
   .fleet (.engine 0 (.task 0 (.extend 0 (10 * Duration.second))) (some (Env.quiet 0 0)))]

theorem drained_outcome_kept_renewed :
    ∃ c c' : ClockedFleet ⟨false, .full⟩,
      (clockSystem _).run (newClockedFleet 0) drainTrace = some c ∧
      (clockSystem _).step c (.fleet (.engine 0 .cancel none)) = some c' ∧
      c'.now + 30 * Duration.second = 40 * Duration.second ∧ Kept c' "w" (.uuid 7, 1) (40 * Duration.second) :=
  ⟨_,_,rfl,rfl,by decide +kernel,(@drained_outcome_kept ⟨false, .full⟩ 0 drainTrace _ _ 0 _ _ _ 7 _
    (40 * Duration.second) (40 * Duration.second) rfl (by decide +kernel) rfl (List.mem_of_getElem? (i := 0) rfl) rfl
    (List.mem_of_getElem? (i := 0) rfl) rfl rfl rfl rfl rfl rfl rfl (by decide +kernel)).mpr (by decide)⟩

/-- After the cancellation the handler takes another 26 seconds. Meanwhile the lease
expires and the message is reclaimed. -/
def lateTrace : List ClockLabel :=
  [.fleet (.engine 0 .cancel none), .advance (41 * Duration.second),
   .fleet (.operate (Env.quiet 0 0) (.reclaimExpired 500)),
   .advance (45 * Duration.second), .fleet (.engine 0 (.task 0 (.returns (.returns none))) none),
   .fleet (.engine 0 (.task 0 .resolve) none), .fleet (.engine 0 (.task 0 (.commit 0 0)) none),
   .fleet (.engine 0 .receive none), .fleet (.engine 0 .flush (some (Env.quiet 0 0)))]

theorem drained_outcome_lost :
    ∃ c d : ClockedFleet ⟨false, .full⟩,
      (clockSystem _).run (newClockedFleet 0) (drainTrace ++ [.advance (19 * Duration.second)]) = some c ∧
      (clockSystem _).run c lateTrace = some d ∧
      (clockSystem _).Along Renewed (newClockedFleet 0 : ClockedFleet ⟨false, .full⟩)
        (drainTrace ++ [.advance (19 * Duration.second)] ++ lateTrace) ∧
      Leased c.fleet.store "w" (.uuid 7, 1) (40 * Duration.second) ∧
      d.now ≤ c.now + 30 * Duration.second ∧ d.fleet.owed = [] ∧
      (d.fleet.store.row 7).map Row.status = some .retrying :=
  ⟨_,_,rfl,rfl,by decide +kernel,by decide +kernel,by decide +kernel,by decide +kernel,by decide +kernel⟩

end Tickr
