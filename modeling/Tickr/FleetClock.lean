import Tickr.FleetWrites

/-! A fleet under one clock. The extender of a handler invocation is started with it; from
the claim until then, however long the dispatch waits for a slot, nobody renews the lease. -/
namespace Tickr

open Transition Postgres

variable {pg : Postgres.Config}

/-- `interval` of `extendLoop` and `extendBatchLoop`. -/
def EngineConfig.extendInterval (cfg : EngineConfig) : Duration :=
  max (leaseOrDefault cfg.lease / 3) (100 * Duration.millisecond)

/-- `ticks` says when the ticker of a running handler fires next, for each of its messages. -/
structure ClockedFleet (pg : Postgres.Config) where
  now : Time
  fleet : Fleet pg
  ticks : Tag → Time

def newClockedFleet (start : Time) : ClockedFleet pg := ⟨start, newFleet, fun _ => start⟩

inductive ClockLabel where
  | advance (time : Time)
  | fleet (label : FleetLabel)

/-! ### Steps -/

def FleetLabel.stamped (now : Time) : FleetLabel → FleetLabel
  | .operate env op => .operate (env.stamped now) op
  | .arrive j env => .arrive j (env.stamped now)
  | .engine i event sent => .engine i event (sent.map (Env.stamped now))
  | label => label

/-- The handler invocation that a dispatch step launches. -/
def Engine.launching (e : Engine) : Option Job :=
  match e.loop with
  | .dispatch (.run job :: _) => if job.capped then none else some job
  | .holding job _ => some job
  | _ => none

/-- The message that an extender renews while its handler is running. -/
def Engine.attended (e : Engine) (i j : Nat) : Option InboundMessage :=
  e.tasks[i]?.bind fun t => if t.phase = .running then t.job.msgs[j]? else none

/-- The tick after one that was due at `due` and received at `clock`; a ticker drops the
ticks that nobody receives in time. -/
def nextTick (due : Time) (interval : Duration) (clock : Time) : Time :=
  due + interval * ((clock - due) / interval + 1)

/-- A launch starts the ticker. An Extend follows a tick, and takes its own reading of the
clock before it reaches the store; the extender leaves when the context is cancelled. -/
def Engine.retime (e : Engine) (now : Time) (ticks : Tag → Time) : Event → Option (Tag → Time)
  | .dispatch =>
    match e.launching with
    | some job => some fun x => if x ∈ job.msgs.map InboundMessage.tag then now + e.cfg.extendInterval else ticks x
    | none => some ticks
  | .task i (.extend j clock) =>
    if e.ctxDone then none
    else
      match e.attended i j with
      | some m =>
        if ticks m.tag ≤ clock ∧ clock ≤ now then
          some fun x => if x = m.tag then nextTick (ticks x) e.cfg.extendInterval clock else ticks x
        else none
      | none => some ticks
  | _ => some ticks

def ClockedFleet.retime (c : ClockedFleet pg) : FleetLabel → Option (Tag → Time)
  | .engine i event _ => c.fleet.engines[i]?.bind fun e => e.retime c.now c.ticks event
  | _ => some c.ticks

def ClockedFleet.step (c : ClockedFleet pg) : ClockLabel → Option (ClockedFleet pg)
  | .advance time => if c.now ≤ time then some { c with now := time } else none
  | .fleet label =>
    (c.retime label).bind fun ticks => (c.fleet.step (label.stamped c.now)).map fun fleet => { c with fleet, ticks }

def clockSystem (pg : Postgres.Config) : System (ClockedFleet pg) ClockLabel := ⟨ClockedFleet.step⟩

section
variable {c c' : ClockedFleet pg} {label : FleetLabel}

theorem ClockedFleet.step_fleet (step : c.step (.fleet label) = some c') :
    ∃ ticks, c.retime label = some ticks ∧ Advanced c.fleet (label.stamped c.now) c'.fleet ∧
      c'.now = c.now ∧ c'.ticks = ticks := by
  obtain ⟨ticks,retimed,rest⟩ := Option.bind_eq_some_iff.mp step
  obtain ⟨fleet,advanced,rfl⟩ := Option.map_eq_some_iff.mp rest
  exact ⟨ticks,retimed,Fleet.step_advanced advanced,rfl,rfl⟩

theorem ClockedFleet.step_advance {time : Time} (step : c.step (.advance time) = some c') :
    c.now ≤ time ∧ c' = { c with now := time } := by
  simp only [ClockedFleet.step] at step
  split at step
  · cases step
    exact ⟨‹_›,rfl⟩
  · cases step

theorem FleetLabel.stamped_now {now : Time} {env : Env} (executed : (label.stamped now).env = some env) (n : Nat) :
    env.now n = now := by
  cases label with
  | start | crash => cases executed
  | operate | arrive => cases executed; rfl
  | engine i event sent =>
    obtain ⟨env,_,rfl⟩ := Option.map_eq_some_iff.mp executed
    rfl

theorem Fleet.extension_stamped (f : Fleet pg) (now : Time) (label : FleetLabel) :
    f.extension (label.stamped now) = f.extension label := by
  cases label with
  | engine i event sent =>
    cases event with
    | task j event => cases event <;> rfl
    | _ => rfl
  | operate env op => cases op <;> rfl
  | _ => rfl

theorem FleetLabel.restarts_stamped (now : Time) (label : FleetLabel) :
    (label.stamped now).restarts = label.restarts := by
  cases label with
  | operate env op => cases op <;> rfl
  | _ => rfl

theorem Undisturbed.stamped {f : Fleet pg} (undisturbed : Undisturbed f label) (now : Time) :
    Undisturbed f (label.stamped now) := by
  unfold Undisturbed
  rw [FleetLabel.restarts_stamped]
  exact undisturbed

end

/-! ### A lease through a step -/

/-- The row is HANDLING under that claim, and until `time` at least. -/
def Leased (s : Store pg) (workerID : String) (x : Tag) (time : Time) : Prop :=
  ∃ k ∈ x.1.parse, ∃ r ∈ s.row k, r.status = .handling ∧ r.attempt = x.2 ∧ r.claimedBy = some workerID ∧
    ∃ u ∈ r.claimedUntil, time ≤ u

instance (s : Store pg) (workerID : String) (x : Tag) (time : Time) : Decidable (Leased s workerID x time) :=
  inferInstanceAs (Decidable (∃ k ∈ _, ∃ r ∈ _, _))

/-- An Extend that takes effect finds the lease unexpired and prolongs it. -/
def Prolongs (c : ClockedFleet pg) (label : FleetLabel) : Prop :=
  ∀ x ∈ c.fleet.extension label, ∀ k ∈ x.id.parse, ∀ r ∈ c.fleet.store.row k, r.status = .handling →
    r.claimedBy = some x.workerID → ∀ u ∈ r.claimedUntil, c.now ≤ u ∧ u ≤ x.until_

instance (c : ClockedFleet pg) (label : FleetLabel) : Decidable (Prolongs c label) :=
  inferInstanceAs (Decidable (∀ x ∈ _, ∀ k ∈ _, ∀ r ∈ _, _))

theorem Leased.mono {s : Store pg} {workerID : String} {x : Tag} {time earlier : Time}
    (leased : Leased s workerID x time) (before : earlier ≤ time) : Leased s workerID x earlier := by
  obtain ⟨k,named,r,found,handling,current,owner,u,lease,enough⟩ := leased
  exact ⟨k,named,r,found,handling,current,owner,u,lease,Int.le_trans before enough⟩

theorem Leased.owner {s : Store pg} {first second : String} {x : Tag} {time later : Time}
    (leased : Leased s first x time) (other : Leased s second x later) : first = second := by
  obtain ⟨k,named,r,found,_,_,owner,_⟩ := leased
  obtain ⟨k',named',r',found',_,_,owner',_⟩ := other
  cases Option.mem_unique named named'
  cases Option.mem_unique found found'
  exact Option.some.inj (owner.symm.trans owner')

/-- What a call can do to a row that is HANDLING: complete its attempt, renew its lease or
take back a lease that has expired. -/
theorem Postgres.RowStep.of_handling {env : Env} {k : Uuid} {call : Call} {r : Row} {after : Option Row}
    (step : RowStep env k call (some r) after) (handling : r.status = .handling) :
    after = some r ∨ (MessageID.uuid k, r.attempt) ∈ call.writes ∨
    (∃ x : Extension, call = x.call ∧ x.id = .uuid k ∧ r.claimedBy = some x.workerID ∧
      after = some (extendSet (env.now 0) x.until_ r)) ∨
    ∃ u, r.claimedUntil = some u ∧ u < env.now 0 := by
  cases step with
  | same => exact Or.inl rfl
  | claim pending =>
    rw [handling] at pending
    cases pending
  | succeed _ current | releaseShutdown _ current =>
    exact Or.inr (Or.inl (current ▸ List.mem_singleton.mpr rfl))
  | batchSucceed _ member named current =>
    refine Or.inr (Or.inl (List.mem_map.mpr ⟨_,member,?_⟩))
    exact Prod.ext named current.symm
  | failRetry _ named current _ | failDead _ named current _ =>
    exact Or.inr (Or.inl (named ▸ current ▸ List.mem_singleton.mpr rfl))
  | extend _ owner => exact Or.inr (Or.inr (Or.inl ⟨⟨_,_,_⟩,rfl,rfl,owner,rfl⟩))
  | requeue dead =>
    rw [handling] at dead
    cases dead
  | reclaimExpired _ lease lapsed => exact Or.inr (Or.inr (Or.inr ⟨_,lease,lapsed⟩))
  | purgeTerminal terminal =>
    rw [handling] at terminal
    cases terminal

section
variable {c : ClockedFleet pg} {f' : Fleet pg} {label : FleetLabel} {workerID : String} {x : Tag} {time : Time}

/-- As long as its write is still owed, an unexpired claim stays what it is. -/
theorem Leased.advanced (leased : Leased c.fleet.store workerID x time) (unexpired : c.now ≤ time)
    (advanced : Advanced c.fleet (label.stamped c.now) f') (audited : Audited c.fleet)
    (prolongs : Prolongs c label) (owed : x ∈ f'.owed) : Leased f'.store workerID x time := by
  obtain ⟨k,named,r,found,handling,current,owner,u,lease,enough⟩ := leased
  have tagged : x = (.uuid k, r.attempt) := Prod.ext (MessageID.parse_eq_some.mp named) current.symm
  cases advanced.effect with
  | none same _ =>
    rw [same]
    exact ⟨k,named,r,found,handling,current,owner,u,lease,enough⟩
  | call env call received executed store origin handed extension paid =>
    have step := exec_row c.fleet.store env call k
    rw [← store, show c.fleet.store.row k = some r from found] at step
    rcases step.of_handling handling with same | written | ⟨extended,rfl,own,by_,same⟩ | ⟨until_,lease',lapsed⟩
    · exact ⟨k,named,r,same,handling,current,owner,u,lease,enough⟩
    · -- the write of this very attempt was owed, and so is the one that is still to come
      have none : received = [] := by
        rcases handed with none | ⟨p,rfl,_⟩
        · exact none
        · cases written
      have balance := paid x
      have sole := (audited.rows k r found).sole handling
      rw [none, List.map_nil, List.count_nil] at balance
      have first := List.count_pos_iff.mpr owed
      have second := List.count_pos_iff.mpr (tagged ▸ written)
      rw [← tagged] at sole
      omega
    · have renewed := prolongs extended (Fleet.extension_stamped _ _ _ ▸ extension extended rfl) k
        (MessageID.parse_eq_some.mpr own) r found handling by_ u lease
      exact ⟨k,named,_,same,handling,current,owner,_,rfl,Int.le_trans enough renewed.2⟩
    · cases Option.mem_unique lease lease'
      rw [FleetLabel.stamped_now executed] at lapsed
      exact absurd lapsed (Int.not_lt.mpr (Int.le_trans unexpired enough))

end

/-! ### The messages that handlers are running for -/

def Task.handled (t : Task) : List Tag := if t.phase = .running then t.job.msgs.map InboundMessage.tag else []

def Engine.handled (e : Engine) : List Tag := e.tasks.flatMap Task.handled

def Fleet.handled (f : Fleet pg) : List Tag := f.engines.flatMap Engine.handled

/-- The handler invocation that a step launches, with the configuration of its engine. -/
def Fleet.launches (f : Fleet pg) : FleetLabel → Option (EngineConfig × Job)
  | .engine i .dispatch _ => f.engines[i]?.bind fun e => e.launching.map fun job => (e.cfg, job)
  | _ => none

theorem Fleet.launches_stamped (f : Fleet pg) (now : Time) (label : FleetLabel) :
    f.launches (label.stamped now) = f.launches label := by
  cases label with
  | engine i event sent => cases event <;> rfl
  | _ => rfl

section
variable {e e' : Engine} {event : Event} {call : Option Call} {f f' : Fleet pg} {label : FleetLabel} {x : Tag}

theorem mem_handled : x ∈ e.handled ↔ ∃ t ∈ e.tasks, t.phase = .running ∧ ∃ m ∈ t.job.msgs, m.tag = x := by
  simp only [Engine.handled, List.mem_flatMap, Task.handled]
  refine exists_congr fun t => and_congr_right fun _ => ?_
  split
  · simp [*]
  · simp [*]

theorem Task.handled_sublist (t : Task) : t.handled.Sublist t.owed := by
  unfold Task.handled
  split
  · rename_i running
    rw [Task.owed, running]
  · exact List.nil_sublist _

theorem Engine.handled_sublist (e : Engine) : e.handled.Sublist e.owed := by
  have tasks : e.handled.Sublist (e.tasks.flatMap Task.owed) :=
    List.Sublist.flatMap_right e.tasks fun t _ => t.handled_sublist
  exact (tasks.trans (List.sublist_append_right _ _)).trans (List.sublist_append_left _ _)

/-- A running handler still owes the writes of all its messages. -/
theorem Fleet.handled_sublist (f : Fleet pg) : f.handled.Sublist f.owed :=
  (List.Sublist.flatMap_right f.engines fun e _ => e.handled_sublist).trans (List.sublist_append_left _ _)

theorem Fleet.owed_of_handled (engine : e ∈ f.engines) (handled : x ∈ e.handled) : x ∈ f.owed :=
  f.handled_sublist.subset (List.mem_flatMap.mpr ⟨e,engine,handled⟩)

theorem Stepped.handled (stepped : Stepped e event e' call) (handled : x ∈ e'.handled) :
    x ∈ e.handled ∨ event = .dispatch ∧ ∃ job, e.launching = some job ∧ x ∈ job.msgs.map InboundMessage.tag := by
  obtain ⟨t,task,running,m,listed,rfl⟩ := mem_handled.mp handled
  have kept (old : t ∈ e.tasks) : m.tag ∈ e.handled := mem_handled.mpr ⟨t,old,running,m,listed,rfl⟩
  have moved {i : Nat} {phase : Phase} {before : Task} (other : phase ≠ .running)
      (member : t ∈ e.tasks.set i { before with phase }) : m.tag ∈ e.handled := by
    rcases List.mem_or_eq_of_mem_set member with old | rfl
    · exact kept old
    · exact absurd running other
  have launched {job : Job} (launching : e.launching = some job) (member : t ∈ e.tasks ++ [⟨job, .running⟩]) :
      m.tag ∈ e.handled ∨ Event.dispatch = .dispatch ∧
        ∃ job, e.launching = some job ∧ m.tag ∈ job.msgs.map InboundMessage.tag := by
    rcases List.mem_append.mp member with old | new
    · exact Or.inl (kept old)
    · cases List.mem_singleton.mp new
      exact Or.inr ⟨rfl,job,launching,List.mem_map_of_mem listed⟩
  cases stepped with
  | launch at_ _ uncapped => exact launched (by simp [Engine.launching, at_, uncapped]) task
  | launchHeld at_ _ => exact launched (by simp [Engine.launching, at_]) task
  | returns | resolve | ack | commit => exact Or.inl (moved Phase.noConfusion task)
  | finish => exact Or.inl (kept (List.mem_of_mem_eraseIdx task))
  | _ => exact Or.inl (kept task)

theorem Advanced.handled (advanced : Advanced f label f') (engine : e' ∈ f'.engines) (handled : x ∈ e'.handled) :
    ∃ e ∈ f.engines, e'.cfg = e.cfg ∧ (x ∈ e.handled ∨
      ∃ job, f.launches label = some (e.cfg, job) ∧ x ∈ job.msgs.map InboundMessage.tag) := by
  have kept (old : e' ∈ f.engines) : ∃ e ∈ f.engines, e'.cfg = e.cfg ∧ (x ∈ e.handled ∨
      ∃ job, f.launches label = some (e.cfg, job) ∧ x ∈ job.msgs.map InboundMessage.tag) :=
    ⟨e',old,rfl,Or.inl handled⟩
  have moved {i : Nat} {e next : Engine} {event : Event} {sent : Option Env} {call : Option Call}
      (at_ : f.engines[i]? = some e) (stepped : Stepped e event next call) (member : e' ∈ f.engines.set i next) :
      ∃ e ∈ f.engines, e'.cfg = e.cfg ∧ (x ∈ e.handled ∨
        ∃ job, f.launches (.engine i event sent) = some (e.cfg, job) ∧ x ∈ job.msgs.map InboundMessage.tag) := by
    rcases List.mem_or_eq_of_mem_set member with old | rfl
    · exact ⟨e',old,rfl,Or.inl handled⟩
    · refine ⟨e,List.mem_of_getElem? at_,stepped.cfg,(stepped.handled handled).imp_right ?_⟩
      rintro ⟨rfl,job,launching,listed⟩
      exact ⟨job,by simp [Fleet.launches, at_, launching],listed⟩
  cases advanced with
  | start =>
    rcases List.mem_append.mp engine with old | new
    · exact kept old
    · cases List.mem_singleton.mp new
      cases handled
  | crash => exact kept (List.mem_of_mem_eraseIdx engine)
  | operate | arrive => exact kept engine
  | silent at_ stepped | answered at_ stepped | delayed at_ stepped => exact moved at_ stepped engine

end

/-! ### The conditions of a run -/

/-- An Extend of an engine that is not executed in its step. -/
def FleetLabel.unserved : FleetLabel → Bool
  | .engine _ (.task _ (.extend _ _)) none => true
  | _ => false

/-- If the row is still HANDLING under that claim, then until `time` at least. -/
def Unlapsed (s : Store pg) (workerID : String) (x : Tag) (time : Time) : Prop :=
  ∀ k ∈ x.1.parse, ∀ r ∈ s.row k, r.status = .handling → r.attempt = x.2 → r.claimedBy = some workerID →
    ∀ u ∈ r.claimedUntil, time ≤ u

instance (s : Store pg) (workerID : String) (x : Tag) (time : Time) : Decidable (Unlapsed s workerID x time) :=
  inferInstanceAs (Decidable (∀ k ∈ _, ∀ r ∈ _, _))

/-- Time passes only while no handler runs on under a cancelled context, and past the end
of a running handler's lease only if its extender has no tick before that. -/
def Supervised (c : ClockedFleet pg) (time : Time) : Prop :=
  ∀ e ∈ c.fleet.engines, ∀ t ∈ e.tasks, t.phase = .running → e.ctxDone = false ∧
    ∀ m ∈ t.job.msgs, time ≤ c.ticks m.tag ∨ Unlapsed c.fleet.store e.cfg.workerID m.tag time

/-- Every Extend succeeds before the lease that it renews has expired, and handlers stop
when their context is cancelled. -/
def Served (c : ClockedFleet pg) : ClockLabel → Prop
  | .advance time => Supervised c time
  | .fleet label => label.unserved = false ∧ Prolongs c label

/-- A handler is launched only while the leases of its messages last until the first tick,
and renewals are closer together than leases are long. -/
def Punctual (c : ClockedFleet pg) : ClockLabel → Prop
  | .advance _ => True
  | .fleet label => ∀ q ∈ c.fleet.launches label, q.1.extendInterval ≤ leaseOrDefault q.1.lease ∧
      ∀ m ∈ q.2.msgs, Leased c.fleet.store q.1.workerID m.tag (c.now + q.1.extendInterval)

def Settled (c : ClockedFleet pg) : ClockLabel → Prop
  | .advance _ => True
  | .fleet label => Undisturbed c.fleet label

instance (c : ClockedFleet pg) : ∀ label, Decidable (Served c label)
  | .advance _ => inferInstanceAs (Decidable (∀ e ∈ _, ∀ t ∈ _, _))
  | .fleet _ => inferInstanceAs (Decidable (_ ∧ _))

instance (c : ClockedFleet pg) : ∀ label, Decidable (Punctual c label)
  | .advance _ => isTrue trivial
  | .fleet _ => inferInstanceAs (Decidable (∀ q ∈ _, _))

instance (c : ClockedFleet pg) : ∀ label, Decidable (Settled c label)
  | .advance _ => isTrue trivial
  | .fleet _ => inferInstanceAs (Decidable (Undisturbed _ _))

/-! ### The tickers -/

theorem extendInterval_pos (cfg : EngineConfig) : 0 < cfg.extendInterval :=
  Int.lt_of_lt_of_le (by decide : (0 : Int) < 100 * Duration.millisecond) (Int.le_max_right ..)

theorem nextTick_le {due interval clock : Int} (positive : 0 < interval) :
    nextTick due interval clock ≤ clock + interval := by
  have whole := Int.mul_ediv_self_le (x := clock - due) (k := interval) (Int.ne_of_gt positive)
  have split : nextTick due interval clock = due + interval * ((clock - due) / interval) + interval := by
    rw [nextTick, Int.mul_add, Int.mul_one, Int.add_assoc]
  rw [split]
  exact Int.add_le_add_right (Int.add_le_of_le_sub_left whole) interval

/-- The next tick for a message after a step. -/
inductive Retimed (c : ClockedFleet pg) (label : FleetLabel) (x : Tag) : Time → Prop where
  | kept : (∀ q ∈ c.fleet.launches label, x ∉ q.2.msgs.map InboundMessage.tag) → Retimed c label x (c.ticks x)
  | launched : c.fleet.launches label = some (cfg, job) → x ∈ job.msgs.map InboundMessage.tag →
      Retimed c label x (c.now + cfg.extendInterval)
  | ticked : c.fleet.engines[i]? = some e → e.tasks[j]? = some t → t.phase = .running →
      t.job.msgs[n]? = some m → label = .engine i (.task j (.extend n clock)) sent → x = m.tag →
      Retimed c label x (nextTick (c.ticks x) e.cfg.extendInterval clock)

theorem Engine.attended_eq {e : Engine} {j n : Nat} {m : InboundMessage} (attended : e.attended j n = some m) :
    ∃ t, e.tasks[j]? = some t ∧ t.phase = .running ∧ t.job.msgs[n]? = some m := by
  obtain ⟨t,at_,listed⟩ := Option.bind_eq_some_iff.mp attended
  split at listed
  · exact ⟨t,at_,‹_›,listed⟩
  · cases listed

section
variable {e : Engine} {now : Time} {ticks after : Tag → Time}

theorem Engine.retime_dispatch (retimed : e.retime now ticks .dispatch = some after) (x : Tag) :
    (∃ job, e.launching = some job ∧ x ∈ job.msgs.map InboundMessage.tag ∧
      after x = now + e.cfg.extendInterval) ∨
    (∀ job, e.launching = some job → x ∉ job.msgs.map InboundMessage.tag) ∧ after x = ticks x := by
  simp only [Engine.retime] at retimed
  split at retimed
  · rename_i job launching
    cases retimed
    by_cases listed : x ∈ job.msgs.map InboundMessage.tag
    · exact Or.inl ⟨job,launching,listed,if_pos listed⟩
    · refine Or.inr ⟨fun other same => ?_,if_neg listed⟩
      cases launching.symm.trans same
      exact listed
  · rename_i idle
    cases retimed
    refine Or.inr ⟨fun job launching => ?_,rfl⟩
    cases idle.symm.trans launching

theorem Engine.retime_extend {j n : Nat} {clock : Time}
    (retimed : e.retime now ticks (.task j (.extend n clock)) = some after) (x : Tag) :
    (∃ t m, e.tasks[j]? = some t ∧ t.phase = .running ∧ t.job.msgs[n]? = some m ∧ x = m.tag ∧
      after x = nextTick (ticks x) e.cfg.extendInterval clock) ∨ after x = ticks x := by
  simp only [Engine.retime] at retimed
  split at retimed
  · cases retimed
  · split at retimed
    · rename_i m attended
      obtain ⟨t,task,running,listed⟩ := Engine.attended_eq attended
      split at retimed
      · cases retimed
        by_cases same : x = m.tag
        · exact Or.inl ⟨t,m,task,running,listed,same,if_pos same⟩
        · exact Or.inr (if_neg same)
      · cases retimed
    · cases retimed
      exact Or.inr rfl

end

theorem ClockedFleet.retimed {c : ClockedFleet pg} {label : FleetLabel} {ticks : Tag → Time}
    (retimed : c.retime label = some ticks) (x : Tag) : Retimed c label x (ticks x) := by
  have quiet (silent : c.fleet.launches label = none) (same : ticks x = c.ticks x) : Retimed c label x (ticks x) := by
    rw [same]
    refine .kept fun q launches => ?_
    cases silent.symm.trans launches
  cases label with
  | engine i event sent =>
    obtain ⟨e,at_,own⟩ := Option.bind_eq_some_iff.mp retimed
    cases event with
    | dispatch =>
      have launches : c.fleet.launches (.engine i .dispatch sent) = e.launching.map fun job => (e.cfg, job) := by
        simp only [Fleet.launches, at_, Option.bind_some]
      rcases Engine.retime_dispatch own x with ⟨job,launching,listed,due⟩ | ⟨unlisted,same⟩
      · rw [due]
        exact .launched (launches.trans (by rw [launching]; rfl)) listed
      · rw [same]
        refine .kept fun q launched => ?_
        obtain ⟨job,launching,rfl⟩ := Option.map_eq_some_iff.mp (launches.symm.trans launched)
        exact unlisted job launching
    | task j event =>
      cases event with
      | extend n clock =>
        rcases Engine.retime_extend own x with ⟨t,m,task,running,listed,named,due⟩ | same
        · rw [due]
          exact .ticked at_ task running listed rfl named
        · exact quiet rfl same
      | _ => cases own; exact quiet rfl rfl
    | _ => cases own; exact quiet rfl rfl
  | _ => cases retimed; exact quiet rfl rfl

/-! ### The invariant -/

/-- Every running handler has its claim until now and until the next tick. -/
structure Timely (c : ClockedFleet pg) : Prop where
  audited : Audited c.fleet
  leased : ∀ e ∈ c.fleet.engines, ∀ x ∈ e.handled, e.cfg.extendInterval ≤ leaseOrDefault e.cfg.lease ∧
    Leased c.fleet.store e.cfg.workerID x (max c.now (c.ticks x))

theorem newClockedFleet_timely (start : Time) : Timely (newClockedFleet start : ClockedFleet pg) where
  audited := newFleet_audited
  leased := by simp [newClockedFleet, newFleet]

section
variable {c c' : ClockedFleet pg} {label : FleetLabel}

/-- The Extend that follows a tick sets the lease of its own claim. -/
theorem Leased.extended {f f' : Fleet pg} {i j n : Nat} {clock : Time} {env : Env} {e : Engine} {t : Task}
    {m : InboundMessage} {time : Time} (leased : Leased f.store e.cfg.workerID m.tag time)
    (advanced : Advanced f (.engine i (.task j (.extend n clock)) (some env)) f') (at_ : f.engines[i]? = some e)
    (task : e.tasks[j]? = some t) (listed : t.job.msgs[n]? = some m) :
    Leased f'.store e.cfg.workerID m.tag (clock + leaseOrDefault e.cfg.lease) := by
  obtain ⟨k,named,r,found,handling,current,owner,_⟩ := leased
  cases advanced with
  | silent at_' stepped => cases stepped
  | answered at_' stepped =>
    cases at_.symm.trans at_'
    cases stepped with
    | extend task' listed' =>
      cases task.symm.trans task'
      cases listed.symm.trans listed'
      have own : m.id = .uuid k := MessageID.parse_eq_some.mp named
      have row := extendSQL_row f.store.messages (env.now 0) k e.cfg.workerID (clock + leaseOrDefault e.cfg.lease) k
      rw [show f.store.messages.find? k = some r from found, Option.map_some, KeyedTable.when,
        if_pos (owns_iff.mpr ⟨Store.row_id found,handling,owner⟩)] at row
      refine ⟨k,named,extendSet (env.now 0) _ r,?_,handling,current,owner,_,rfl,Int.le_refl _⟩
      simp only [Fleet.exec, Postgres.exec, extend, own, MessageID.parse]
      exact row

/-- That lease lasts until the next tick. -/
theorem Leased.ticked {f' : Fleet pg} {i j n : Nat} {clock due time : Time} {env : Env} {e : Engine} {t : Task}
    {m : InboundMessage} (leased : Leased c.fleet.store e.cfg.workerID m.tag time)
    (short : e.cfg.extendInterval ≤ leaseOrDefault e.cfg.lease)
    (prolongs : Prolongs c (.engine i (.task j (.extend n clock)) (some env)))
    (advanced : Advanced c.fleet (.engine i (.task j (.extend n clock)) (some (env.stamped c.now))) f')
    (at_ : c.fleet.engines[i]? = some e) (task : e.tasks[j]? = some t) (listed : t.job.msgs[n]? = some m) :
    Leased f'.store e.cfg.workerID m.tag (max c.now (nextTick due e.cfg.extendInterval clock)) := by
  refine (leased.extended advanced at_ task listed).mono (Int.max_le.mpr ⟨?_,?_⟩)
  · obtain ⟨k,parsed,r,found,handling,current,owner,u,lease,enough⟩ := leased
    have renewed := prolongs ⟨m.id, e.cfg.workerID, clock + leaseOrDefault e.cfg.lease⟩
      (by simp [Fleet.extension, at_, task, listed]) k parsed r found handling owner u lease
    exact Int.le_trans renewed.1 renewed.2
  · exact Int.le_trans (nextTick_le (extendInterval_pos _)) (Int.add_le_add_left short clock)

/-- A launch comes with the leases that the first tick needs. -/
theorem Punctual.leased {cfg : EngineConfig} {job : Job} {x : Tag} (punctual : Punctual c (.fleet label))
    (launches : c.fleet.launches label = some (cfg, job)) (listed : x ∈ job.msgs.map InboundMessage.tag) :
    cfg.extendInterval ≤ leaseOrDefault cfg.lease ∧
      Leased c.fleet.store cfg.workerID x (max c.now (c.now + cfg.extendInterval)) := by
  obtain ⟨m,member,rfl⟩ := List.mem_map.mp listed
  obtain ⟨short,leases⟩ := punctual _ launches
  refine ⟨short,(leases m member).mono (Int.max_le.mpr ⟨?_,Int.le_refl _⟩)⟩
  exact Int.le_add_of_nonneg_right (Int.le_of_lt (extendInterval_pos cfg))

theorem Timely.fleet {ticks : Tag → Time} (timely : Timely c) (retimed : c.retime label = some ticks)
    (advanced : Advanced c.fleet (label.stamped c.now) c'.fleet) (same : c'.now = c.now) (ticks' : c'.ticks = ticks)
    (served : Served c (.fleet label)) (punctual : Punctual c (.fleet label)) (settled : Settled c (.fleet label)) :
    Timely c' := by
  obtain ⟨answered,prolongs⟩ := served
  refine ⟨advanced.audited timely.audited (settled.stamped c.now),fun e' engine x handled => ?_⟩
  have owed := Fleet.owed_of_handled engine handled
  obtain ⟨e,old,cfg,origin⟩ := advanced.handled engine handled
  rw [Fleet.launches_stamped] at origin
  rw [cfg, same, ticks']
  have next := ClockedFleet.retimed retimed x
  generalize ticks x = due at next ⊢
  cases next with
  | kept unlaunched =>
    rcases origin with before | ⟨job,launches,listed⟩
    · obtain ⟨short,leased⟩ := timely.leased e old x before
      exact ⟨short,leased.advanced (Int.le_max_left ..) advanced timely.audited prolongs owed⟩
    · exact absurd listed (unlaunched _ launches)
  | @launched cfg' job launches listed =>
    obtain ⟨short,leased⟩ := punctual.leased launches listed
    have kept := leased.advanced (Int.le_max_left ..) advanced timely.audited prolongs owed
    rcases origin with before | ⟨job',launches',_⟩
    · obtain ⟨short',leased'⟩ := timely.leased e old x before
      refine ⟨short',?_⟩
      rw [leased'.owner leased]
      exact kept
    · cases launches.symm.trans launches'
      exact ⟨short,kept⟩
  | @ticked i e₀ j t n m clock sent at_ task running listed named tagged =>
    subst named tagged
    have attended : m.tag ∈ e₀.handled :=
      mem_handled.mpr ⟨t,List.mem_of_getElem? task,running,m,List.mem_of_getElem? listed,rfl⟩
    obtain ⟨short,leased⟩ := timely.leased e₀ (List.mem_of_getElem? at_) _ attended
    have before : m.tag ∈ e.handled := by
      rcases origin with before | ⟨_,launches,_⟩
      · exact before
      · cases launches
    obtain ⟨short',leased'⟩ := timely.leased e old _ before
    refine ⟨short',?_⟩
    rw [leased'.owner leased]
    cases sent with
    | none => cases answered
    | some env => exact leased.ticked short prolongs advanced at_ task listed

theorem Timely.advance {time : Time} (timely : Timely c) (supervised : Supervised c time) :
    Timely { c with now := time } := by
  refine ⟨timely.audited,fun e engine x handled => ?_⟩
  obtain ⟨short,k,named,r,found,handling,current,owner,u,lease,enough⟩ := timely.leased e engine x handled
  obtain ⟨t,task,running,m,listed,rfl⟩ := mem_handled.mp handled
  have ticks : c.ticks m.tag ≤ u := Int.le_trans (Int.le_max_right ..) enough
  have outlasts : time ≤ u := by
    rcases (supervised e engine t task running).2 m listed with early | unlapsed
    · exact Int.le_trans early ticks
    · exact unlapsed k named r found handling current owner u lease
  exact ⟨short,k,named,r,found,handling,current,owner,u,lease,Int.max_le.mpr ⟨outlasts,ticks⟩⟩

/-- Two claims of one row that are both current are the same claim. -/
theorem Timely.exclusive (timely : Timely c) : (c.fleet.handled.map Prod.fst).Nodup := by
  have claim {x : Tag} (handled : x ∈ c.fleet.handled) :
      ∃ k ∈ x.1.parse, ∃ r ∈ c.fleet.store.row k, r.status = .handling ∧ r.attempt = x.2 := by
    obtain ⟨e,engine,own⟩ := List.mem_flatMap.mp handled
    obtain ⟨_,k,named,r,found,handling,current,_⟩ := timely.leased e engine x own
    exact ⟨k,named,r,found,handling,current⟩
  refine List.Nodup.map_on ?_ (List.nodup_iff_count_le_one.mpr fun x => ?_)
  · intro x first y second same
    obtain ⟨k,named,r,found,_,current⟩ := claim first
    obtain ⟨k',named',r',found',_,current'⟩ := claim second
    rw [same] at named
    cases Option.mem_unique named named'
    cases Option.mem_unique found found'
    exact Prod.ext same (current.symm.trans current')
  · by_cases handled : x ∈ c.fleet.handled
    · obtain ⟨k,named,r,found,handling,current⟩ := claim handled
      have sole := (timely.audited.rows k r found).sole handling
      have tagged : x = (.uuid k, r.attempt) := Prod.ext (MessageID.parse_eq_some.mp named) current.symm
      rw [← tagged] at sole
      exact Nat.le_trans (c.fleet.handled_sublist.count_le x) sole
    · rw [List.count_eq_zero.mpr handled]
      exact Nat.zero_le 1

end

/-- In a run in which every handler is launched with enough of its leases left, no message
is handled twice at a time. -/
theorem handlers_exclusive (start : Time) (trace : List ClockLabel) (c : ClockedFleet pg)
    (run : (clockSystem pg).run (newClockedFleet start) trace = some c)
    (served : (clockSystem pg).Along Served (newClockedFleet start) trace)
    (settled : (clockSystem pg).Along Settled (newClockedFleet start) trace)
    (punctual : (clockSystem pg).Along Punctual (newClockedFleet start) trace) :
    (c.fleet.handled.map Prod.fst).Nodup := by
  refine Timely.exclusive ?_
  refine System.invariant (fun c label => Served c label ∧ Settled c label ∧ Punctual c label) Timely ?_ run
    (served.and (settled.and punctual)) (newClockedFleet_timely start)
  intro c label c' timely condition step
  obtain ⟨served,settled,punctual⟩ := condition
  cases label with
  | advance time =>
    obtain ⟨_,rfl⟩ := ClockedFleet.step_advance step
    exact timely.advance served
  | fleet label =>
    obtain ⟨ticks,retimed,advanced,now,same⟩ := ClockedFleet.step_fleet step
    exact timely.fleet retimed advanced now same served punctual settled

/-! ### Two messages and one slot -/

def standby : EngineConfig := { mailer with workerID := "v" }

def mailRow (time : Time) (id : Uuid) : Row := enqueueRow (Env.quiet time id) 0 (plainParams "mail" 3)

/-- The mailer claims two messages at once and has a slot for the first of them, whose
lease it renews after ten seconds. -/
def queuedTrace : List ClockLabel :=
  [.fleet (.start mailer), .fleet (.start standby),
   .fleet (.operate (Env.quiet 0 7) (.enqueue (plainParams "mail" 3))),
   .fleet (.operate (Env.quiet 0 8) (.enqueue (plainParams "mail" 3))),
   .fleet (.engine 0 .poll none),
   .fleet (.engine 0 (.claimed [scanMessage (claimSet 0 "w" 30 (mailRow 0 7)),
     scanMessage (claimSet 0 "w" 30 (mailRow 0 8))] []) (some (Env.quiet 0 0))),
   .fleet (.engine 0 .dispatch none),
   .advance (10 * Duration.second),
   .fleet (.engine 0 (.task 0 (.extend 0 (10 * Duration.second))) (some (Env.quiet 0 0)))]

/-- The first handler returns and the second one is launched. -/
def relaunchTrace : List ClockLabel :=
  [.fleet (.engine 0 (.task 0 (.returns (.returns none))) none), .fleet (.engine 0 (.task 0 .resolve) none),
   .fleet (.engine 0 (.task 0 (.commit 0 0)) none), .fleet (.engine 0 (.task 0 .finish) none),
   .fleet (.engine 0 .dispatch none)]

/-- The first handler takes ten seconds; the second one keeps its message from the other
engine with a renewal of its own. -/
def promptTrace : List ClockLabel :=
  queuedTrace ++ relaunchTrace ++
  [.advance (20 * Duration.second),
   .fleet (.engine 0 (.task 0 (.extend 0 (20 * Duration.second))) (some (Env.quiet 0 0))),
   .advance (31 * Duration.second),
   .fleet (.operate (Env.quiet 0 0) (.reclaimExpired 500)),
   .fleet (.operate (Env.quiet 0 9) (.enqueue (plainParams "mail" 3))),
   .fleet (.engine 1 .poll none),
   .fleet (.engine 1 (.claimed [scanMessage (claimSet (31 * Duration.second) "v" 30
     (mailRow (31 * Duration.second) 9))] []) (some (Env.quiet 0 0))),
   .fleet (.engine 1 .dispatch none)]

theorem handlers_exclusive_prompt :
    ∃ c, (clockSystem ⟨false, .full⟩).run (newClockedFleet 0) promptTrace = some c ∧
      c.fleet.handled = [(.uuid 8, 1), (.uuid 9, 1)] ∧ (c.fleet.handled.map Prod.fst).Nodup :=
  ⟨_,rfl,by decide +kernel,
    handlers_exclusive 0 promptTrace _ rfl (by decide +kernel) (by decide +kernel) (by decide +kernel)⟩

/-- The first handler takes longer than a lease. The second message is reclaimed while it
waits for the slot, the other engine claims and handles it, and then the mailer does. -/
def starvedTrace : List ClockLabel :=
  queuedTrace ++
  [.advance (31 * Duration.second),
   .fleet (.operate (Env.quiet 0 0) (.reclaimExpired 500)),
   .fleet (.engine 1 .poll none),
   .fleet (.engine 1 (.claimed [scanMessage (claimSet (31 * Duration.second) "v" 30
     (reclaimSet (31 * Duration.second) (claimSet 0 "w" 30 (mailRow 0 8))))] []) (some (Env.quiet 0 0))),
   .fleet (.engine 1 .dispatch none)] ++ relaunchTrace

theorem handlers_overlap :
    ∃ c, (clockSystem ⟨false, .full⟩).run (newClockedFleet 0) starvedTrace = some c ∧
      (clockSystem ⟨false, .full⟩).Along Served (newClockedFleet 0) starvedTrace ∧
      (clockSystem ⟨false, .full⟩).Along Settled (newClockedFleet 0) starvedTrace ∧
      c.fleet.handled = [(.uuid 8, 1), (.uuid 8, 2)] ∧ ¬(c.fleet.handled.map Prod.fst).Nodup :=
  ⟨_,rfl,by decide +kernel,by decide +kernel,by decide +kernel,by decide +kernel⟩

end Tickr
