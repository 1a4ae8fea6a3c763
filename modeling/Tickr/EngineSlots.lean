import Tickr.EnginePlan
import Tickr.EngineShutdown

/-! The slots of one engine. The poll goroutine takes a slot of the global pool and, for a
capped type, one of its semaphore; the handler goroutine gives them back in deferred calls,
one at a time and in the other order, and reports to the wait group last. Here those calls
are steps of their own, between which everything else may happen. -/
namespace Tickr

open Transition

/-- The next deferred call of a handler goroutine that has given its per-type slot back. -/
inductive Deferred where
  | globalPool
  | inflight
  deriving DecidableEq, Repr

/-- `engine.pool` and `engine.perType` are how full the channels are; `unwinding` are the
goroutines that have left `engine.tasks` and are still known to the wait group. -/
structure Slots where
  engine : Engine
  unwinding : List Deferred

inductive SlotEvent where
  | engine (event : Event)
  | unwind (i : Nat)
  deriving DecidableEq, Repr

def newSlots (cfg : EngineConfig) : Slots := ⟨newEngine cfg, []⟩

/-- A handler goroutine has committed and gives back the slot of its type, if it has one. -/
def Slots.leave (s : Slots) (i : Nat) (t : Task) : Slots where
  engine := { s.engine with
    tasks := s.engine.tasks.eraseIdx i
    perType := s.engine.countType t.job (· - 1) }
  unwinding := s.unwinding ++ [.globalPool]

def Slots.finish (s : Slots) (i : Nat) : Option Slots :=
  s.engine.tasks[i]?.bind fun t =>
    match t.phase with
    | .committing _ _ _ [] => some (s.leave i t)
    | _ => none

def Slots.unwind (s : Slots) (i : Nat) : Option Slots :=
  match s.unwinding[i]? with
  | some .globalPool => some ⟨{ s.engine with pool := s.engine.pool - 1 }, s.unwinding.set i .inflight⟩
  | some .inflight => some ⟨s.engine, s.unwinding.eraseIdx i⟩
  | none => none

/-- `drain` closes the channel of the flusher once the wait group is empty. -/
def Slots.step (s : Slots) : SlotEvent → Option (Slots × Option Call)
  | .engine (.task i .finish) => (s.finish i).map (·, none)
  | .engine event =>
    if event = .close ∧ s.unwinding ≠ [] then none
    else (s.engine.step event).map fun r => (⟨r.1, s.unwinding⟩, r.2)
  | .unwind i => (s.unwind i).map (·, none)

def slotSystem : System Slots SlotEvent := ⟨fun s event => (s.step event).map Prod.fst⟩

def Event.finishes : Event → Bool
  | .task _ .finish => true
  | _ => false

/-- One constructor for each kind of step. -/
inductive SlotStepped (s : Slots) : SlotEvent → Slots → Option Call → Prop where
  | engine : event.finishes = false → s.engine.step event = some (e, call) →
      SlotStepped s (.engine event) ⟨e, s.unwinding⟩ call
  | perType : s.engine.tasks[i]? = some t → t.phase = .committing err late outcome [] →
      SlotStepped s (.engine (.task i .finish)) (s.leave i t) none
  | globalPool : s.unwinding[i]? = some .globalPool →
      SlotStepped s (.unwind i)
        ⟨{ s.engine with pool := s.engine.pool - 1 }, s.unwinding.set i .inflight⟩ none
  | inflight : s.unwinding[i]? = some .inflight →
      SlotStepped s (.unwind i) ⟨s.engine, s.unwinding.eraseIdx i⟩ none

theorem Slots.step_stepped {s next : Slots} {event : SlotEvent} {call : Option Call}
    (step : s.step event = some (next, call)) : SlotStepped s event next call := by
  unfold Slots.step at step
  split at step
  · obtain ⟨after,finished,same⟩ := Option.map_eq_some_iff.mp step
    obtain ⟨t,at_,left⟩ := Option.bind_eq_some_iff.mp finished
    cases same
    split at left
    · cases left
      exact .perType at_ ‹_›
    · cases left
  · rename_i event other
    have running : event.finishes = false := by
      unfold Event.finishes
      split
      · exact absurd rfl (other _)
      · rfl
    split at step
    · cases step
    · obtain ⟨r,stepped,same⟩ := Option.map_eq_some_iff.mp step
      cases same
      exact .engine running stepped
  · obtain ⟨after,unwound,same⟩ := Option.map_eq_some_iff.mp step
    cases same
    unfold Slots.unwind at unwound
    split at unwound
    · cases unwound
      exact .globalPool ‹_›
    · cases unwound
      exact .inflight ‹_›
    · cases unwound

/-! ### Every job has the registration of its type -/

def Action.job? : Action → Option Job
  | .noHandler _ => none
  | .run job => some job

def Loop.jobs : Loop → List Job
  | .dispatch actions | .releasing _ actions => actions.filterMap Action.job?
  | .holding job actions => job :: actions.filterMap Action.job?
  | _ => []

/-- The jobs of the handler goroutines. -/
def Engine.launched (e : Engine) : List Job := e.tasks.map Task.job

def Registered (e : Engine) : Prop :=
  ∀ job ∈ e.loop.jobs ++ e.launched, e.cfg.registry.lookup job.eventType = some job.reg

theorem plan_registered {r : Registry} {msgs : List InboundMessage} {order : List String} {job : Job}
    (planned : .run job ∈ plan r msgs order) : r.lookup job.eventType = some job.reg := by
  rcases List.mem_append.mp planned with single | batched
  · obtain ⟨m,claimed,chosen⟩ := List.mem_filterMap.mp single
    cases singleAction_planned claimed chosen with
    | single _ found _ => exact found
    | chunk _ chunk => exact chunk.registered
  · obtain ⟨eventType,_,chunked⟩ := List.mem_flatMap.mp batched
    obtain ⟨_,same,_,chunk⟩ := batchActions_chunk chunked
    cases same
    exact chunk.registered

theorem Engine.setPhase_launched {e : Engine} {i : Nat} {t : Task} (at_ : e.tasks[i]? = some t) (phase : Phase) :
    (e.setPhase i t phase).launched = e.launched := by
  obtain ⟨bound,rfl⟩ := List.getElem?_eq_some_iff.mp at_
  rw [Engine.launched, Engine.setPhase, List.map_set, ← List.getElem_map Task.job (h := by simpa using bound),
    List.set_getElem_self]
  rfl

section
variable {e e' : Engine} {event : Event} {call : Option Call}

/-- The jobs after a step are jobs from before it, or planned for the messages just claimed. -/
theorem Stepped.jobs (stepped : Stepped e event e' call) {job : Job}
    (member : job ∈ e'.loop.jobs ++ e'.launched) : job ∈ e.loop.jobs ++ e.launched ∨
      ∃ msgs order, .run job ∈ plan e.cfg.registry msgs order := by
  cases stepped with
  | @claimed p msgs order at_ ranged =>
    rcases List.mem_append.mp member with looped | there
    · obtain ⟨action,planned,runs⟩ := List.mem_filterMap.mp looped
      cases action with
      | noHandler m => cases runs
      | run other =>
        cases runs
        exact .inr ⟨msgs,order,planned⟩
    · exact .inl (List.mem_append_right _ there)
  | noHandler at_ | hold at_ | launch at_ | launchHeld at_ | released at_ | release at_ | abandon at_
  | abandonHeld at_ =>
    refine .inl ?_
    simp only [at_, Loop.jobs, Action.job?, Engine.launched, Engine.launch, List.filterMap_cons, List.map_append,
      List.map_cons, List.map_nil, List.mem_append, List.mem_cons, List.not_mem_nil, or_false] at member ⊢
    tauto
  | returns at_ | resolve at_ | commit at_ | ack at_ =>
    refine .inl ?_
    have same := Engine.setPhase_launched at_
    simp only [Engine.setPhase, Engine.launched] at same member ⊢
    rwa [same] at member
  | finish at_ =>
    refine .inl ?_
    simp only [Engine.launched, List.mem_append, List.mem_map] at member ⊢
    apply member.imp_right
    rintro ⟨t,there,same⟩
    exact ⟨t,List.mem_of_mem_eraseIdx there,same⟩
  | idle | poll | notice | claimFailed | dispatched | wake | stop =>
    exact .inl (List.mem_append_right _ member)
  | _ => exact .inl member

theorem Stepped.registered (stepped : Stepped e event e' call) (registered : Registered e) : Registered e' := by
  intro job member
  rw [stepped.cfg]
  rcases stepped.jobs member with known | ⟨msgs,order,planned⟩
  · exact registered job known
  · exact plan_registered planned

/-! ### The account of the slots -/

/-- A goroutine with this job holds a slot of the semaphore of `eventType`. -/
def Job.occupies (eventType : String) (job : Job) : Bool := job.capped && job.eventType = eventType

/-- Whether a job has a slot of the pool and waits for one of its type. -/
def Loop.dispatching : Loop → Nat
  | .holding _ _ => 1
  | _ => 0

/-- `unwinding` goroutines have left with their slot of the pool. -/
structure Balanced (unwinding : Nat) (e : Engine) : Prop where
  pool : e.pool = e.launched.length + unwinding + e.loop.dispatching
  capacity : e.pool ≤ e.cfg.poolCapacity
  perType : ∀ eventType, e.perType eventType = e.launched.countP (Job.occupies eventType)
  maxInflight : ∀ eventType reg, e.cfg.registry.lookup eventType = some reg → 0 < reg.cfg.maxInflight →
    (e.perType eventType : Int) ≤ reg.cfg.maxInflight

variable {n : Nat}

/-- A step that changes neither the goroutines nor the slots. -/
theorem Balanced.frame (balanced : Balanced n e) (cfg : e'.cfg = e.cfg) (pool : e'.pool = e.pool)
    (perType : e'.perType = e.perType) (launched : e'.launched = e.launched)
    (dispatching : e'.loop.dispatching = e.loop.dispatching) : Balanced n e' where
  pool := by rw [pool, launched, dispatching, balanced.pool]
  capacity := by rw [pool, cfg]; exact balanced.capacity
  perType := by rw [perType, launched]; exact balanced.perType
  maxInflight := by rw [perType, cfg]; exact balanced.maxInflight

theorem countType_occupies (e : Engine) (job : Job) (count : Nat → Nat) (eventType : String) :
    e.countType job count eventType =
      if job.occupies eventType then count (e.perType eventType) else e.perType eventType := by
  unfold Engine.countType
  by_cases capped : job.capped = true
  · by_cases same : eventType = job.eventType
    · simp [Job.occupies, capped, same]
    · simp [Job.occupies, capped, same, Ne.symm same]
  · simp [Job.occupies, capped]

/-- The poll goroutine takes a slot of the pool. -/
theorem Balanced.hold (balanced : Balanced n e) {job : Job} {rest : List Action}
    (free : e.loop.dispatching = 0) (room : e.pool < e.cfg.poolCapacity) :
    Balanced n { e with pool := e.pool + 1, loop := .holding job rest } where
  pool := by
    have before := balanced.pool
    rw [free] at before
    simp only [Loop.dispatching, Engine.launched] at before ⊢
    omega
  capacity := room
  perType := balanced.perType
  maxInflight := balanced.maxInflight

/-- A goroutine starts: its slot of the pool is taken already, that of its type is free. -/
theorem Balanced.launch (balanced : Balanced n e) {job : Job} {actions : List Action}
    (held : e.loop.dispatching = 1)
    (known : e.cfg.registry.lookup job.eventType = some job.reg)
    (free : job.capped = true → (e.perType job.eventType : Int) < job.reg.cfg.maxInflight) :
    Balanced n (e.launch job actions) where
  pool := by
    have before := balanced.pool
    rw [held] at before
    simp only [Engine.launch, Engine.launched, Loop.dispatching, List.map_append, List.length_append,
      List.map_cons, List.map_nil, List.length_cons, List.length_nil] at before ⊢
    omega
  capacity := balanced.capacity
  perType eventType := by
    have before := balanced.perType eventType
    simp only [Engine.launch, Engine.launched, List.map_append, List.countP_append, List.map_cons, List.map_nil,
      countType_occupies, List.countP_singleton] at before ⊢
    split <;> omega
  maxInflight eventType reg found positive := by
    have before := balanced.maxInflight eventType reg found positive
    simp only [Engine.launch, countType_occupies]
    split
    · rename_i occupied
      obtain ⟨capped,rfl⟩ : job.capped = true ∧ job.eventType = eventType := by
        simpa [Job.occupies] using occupied
      cases known.symm.trans found
      have room := free capped
      omega
    · exact before

/-- A goroutine leaves with its slot of the pool, the slot of its type given back. -/
theorem Balanced.leave {s : Slots} (balanced : Balanced n s.engine) {i : Nat} {t : Task}
    (at_ : s.engine.tasks[i]? = some t) : Balanced (n + 1) (s.leave i t).engine := by
  obtain ⟨bound,rfl⟩ := List.getElem?_eq_some_iff.mp at_
  have perm : (s.engine.tasks[i].job :: (s.engine.tasks.eraseIdx i).map Task.job).Perm s.engine.launched :=
    (List.getElem_cons_eraseIdx_perm bound).map Task.job
  have account (eventType : String) := perm.countP_eq (Job.occupies eventType)
  simp only [List.countP_cons] at account
  refine ⟨?_,balanced.capacity,fun eventType => ?_,fun eventType reg found positive => ?_⟩
  · have before := balanced.pool
    have length := perm.length_eq
    simp only [Slots.leave, Engine.launched, List.length_cons] at before length ⊢
    omega
  · have before := balanced.perType eventType
    have counted := account eventType
    simp only [Slots.leave, Engine.launched, countType_occupies] at before counted ⊢
    split at counted
    · rw [if_pos ‹_›]
      omega
    · rw [if_neg ‹_›]
      omega
  · have before := balanced.maxInflight eventType reg found positive
    simp only [Slots.leave, countType_occupies]
    split <;> omega

/-- The deferred receive from the pool. -/
theorem Balanced.release (balanced : Balanced (n + 1) e) : Balanced n { e with pool := e.pool - 1 } where
  pool := by
    have before := balanced.pool
    simp only [Engine.launched] at before ⊢
    omega
  capacity := Nat.le_trans (Nat.sub_le _ _) balanced.capacity
  perType := balanced.perType
  maxInflight := balanced.maxInflight

theorem Stepped.balanced (stepped : Stepped e event e' call) (registered : Registered e)
    (balanced : Balanced n e) : Balanced n e' := by
  cases stepped with
  | hold at_ room _ => exact balanced.hold (by rw [at_]; rfl) room
  | @launch job rest at_ room uncapped =>
    have known := registered job (by simp [at_, Loop.jobs, Action.job?])
    -- the slot of the pool is taken and passed on within the step
    have held : Balanced n { e with pool := e.pool + 1, loop := .holding job rest } :=
      balanced.hold (by rw [at_]; rfl) room
    exact held.launch rfl known fun capped => absurd capped (by simp [uncapped])
  | @launchHeld job rest at_ room =>
    have known := registered job (by simp [at_, Loop.jobs])
    exact balanced.launch (by rw [at_]; rfl) known fun _ => room
  | @abandonHeld job rest at_ cancelled =>
    have before := balanced.pool
    refine ⟨?_,Nat.le_trans (Nat.sub_le _ _) balanced.capacity,balanced.perType,balanced.maxInflight⟩
    simp only [at_, Loop.dispatching, Engine.launched] at before ⊢
    omega
  | @finish i t err late outcome at_ committing => exact (Balanced.leave (s := ⟨e,[]⟩) balanced at_).release
  | idle at_ | poll at_ | claimed at_ | claimFailed at_ | dispatched at_ | noHandler at_ | released at_ | release at_
  | abandon at_ | wake at_ | stop at_ => exact balanced.frame rfl rfl rfl rfl (by rw [at_]; rfl)
  | notice at_ => exact balanced.frame rfl rfl rfl rfl (by rcases at_ with at_ | at_ <;> rw [at_] <;> rfl)
  | returns at_ | resolve at_ | ack at_ | commit at_ =>
    exact balanced.frame rfl rfl rfl (Engine.setPhase_launched at_ _) rfl
  | _ => exact balanced.frame rfl rfl rfl rfl rfl

end

/-! ### Runs -/

/-- The goroutines that have not given their slot of the pool back. -/
def Slots.unreleased (s : Slots) : Nat := s.engine.tasks.length + s.unwinding.count .globalPool

theorem count_globalPool {unwinding : List Deferred} {i : Nat} (at_ : unwinding[i]? = some .globalPool) :
    unwinding.count .globalPool = (unwinding.set i .inflight).count .globalPool + 1 := by
  obtain ⟨bound,same⟩ := List.getElem?_eq_some_iff.mp at_
  have one := List.count_pos_iff.mpr (same ▸ List.getElem_mem bound)
  rw [List.count_set bound, same, if_pos (beq_self_eq_true _), if_neg (by decide)]
  omega

theorem count_inflight {unwinding : List Deferred} {i : Nat} (at_ : unwinding[i]? = some .inflight) :
    (unwinding.eraseIdx i).count .globalPool = unwinding.count .globalPool := by
  obtain ⟨bound,same⟩ := List.getElem?_eq_some_iff.mp at_
  have count := (List.getElem_cons_eraseIdx_perm bound).count_eq Deferred.globalPool
  rwa [same, List.count_cons_of_ne (by decide)] at count

structure SlotsKept (cfg : EngineConfig) (s : Slots) : Prop where
  config : s.engine.cfg = cfg
  registered : Registered s.engine
  balanced : Balanced (s.unwinding.count .globalPool) s.engine

theorem newEngine_registered (cfg : EngineConfig) : Registered (newEngine cfg) := by
  intro job member
  cases member

theorem newEngine_balanced (cfg : EngineConfig) : Balanced 0 (newEngine cfg) :=
  ⟨rfl,Nat.zero_le _,fun _ => rfl,fun _ _ _ positive => Int.le_of_lt positive⟩

theorem newSlots_kept (cfg : EngineConfig) : SlotsKept cfg (newSlots cfg) where
  config := rfl
  registered := newEngine_registered cfg
  balanced := newEngine_balanced cfg

theorem SlotStepped.kept {cfg : EngineConfig} {s next : Slots} {event : SlotEvent} {call : Option Call}
    (stepped : SlotStepped s event next call) (kept : SlotsKept cfg s) : SlotsKept cfg next := by
  cases stepped with
  | engine _ step =>
    have engine := Engine.step_stepped step
    exact ⟨engine.cfg.trans kept.config,engine.registered kept.registered,engine.balanced kept.registered kept.balanced⟩
  | @perType i t err late outcome at_ committing =>
    have registered := Stepped.registered (.finish at_ committing) kept.registered
    refine ⟨kept.config,registered,?_⟩
    rw [Slots.leave, List.count_append]
    exact kept.balanced.leave at_
  | globalPool at_ =>
    have balanced := kept.balanced
    rw [count_globalPool at_] at balanced
    exact ⟨kept.config,kept.registered,balanced.release⟩
  | inflight at_ => exact ⟨kept.config,kept.registered,by rw [count_inflight at_]; exact kept.balanced⟩

theorem slotSystem_stepped {s next : Slots} {event : SlotEvent} (step : slotSystem.step s event = some next) :
    ∃ call, SlotStepped s event next call := by
  obtain ⟨⟨after,call⟩,stepped,rfl⟩ := Option.map_eq_some_iff.mp step
  exact ⟨call,Slots.step_stepped stepped⟩

theorem run_slotsKept {cfg : EngineConfig} {trace : List SlotEvent} {s : Slots}
    (run : slotSystem.run (newSlots cfg) trace = some s) : SlotsKept cfg s := by
  apply System.run_invariant (SlotsKept cfg) _ run (newSlots_kept cfg)
  intro s event next kept step
  obtain ⟨call,stepped⟩ := slotSystem_stepped step
  exact stepped.kept kept

/-! ### The deferred calls in one step -/

/-- Only the dispatch of a claim looks at the pool. -/
theorem Engine.step_pool (e : Engine) (pool : Nat) {event : Event} (running : event.finishes = false)
    (other : event ≠ .dispatch ∧ event ≠ .abandon) :
    ({ e with pool } : Engine).step event = (e.step event).map fun r => ({ r.1 with pool }, r.2) := by
  cases event with
  | dispatch => exact absurd rfl other.1
  | abandon => exact absurd rfl other.2
  | task i event =>
    simp only [Engine.step]
    cases e.tasks[i]? with
    | none => rfl
    | some t =>
      simp only [Option.bind_some]
      cases event with
      | finish => cases running
      | returns behaviour | resolve => simp only [Engine.runTask]; split <;> rfl
      | commit clock nextDelay =>
        simp only [Engine.runTask, Engine.commit]
        split
        · split
          · split <;> rfl
          · rfl
          · rfl
        · rfl
      | extend j clock => simp only [Engine.runTask]; cases t.job.msgs[j]? <;> rfl
  | _ =>
    simp only [Engine.step]
    repeat' split
    all_goals rfl

/-- A step finds the slots of `n` goroutines free already. -/
theorem Engine.step_less {e e' : Engine} {event : Event} {call : Option Call} {n : Nat} (fewer : n ≤ e.pool)
    (running : event.finishes = false) (step : e.step event = some (e', call)) :
    ({ e with pool := e.pool - n } : Engine).step event = some ({ e' with pool := e'.pool - n }, call) := by
  by_cases other : event ≠ .dispatch ∧ event ≠ .abandon
  · have same : e'.pool = e.pool := by
      cases Engine.step_stepped step with
      | finish => cases running
      | _ => first | rfl | exact absurd rfl other.1 | exact absurd rfl other.2
    rw [Engine.step_pool e _ running other, step, same]
    rfl
  · obtain rfl | rfl : event = .dispatch ∨ event = .abandon := by tauto
    · cases Engine.step_stepped step with
      | dispatched at_ | noHandler at_ | released at_ | release at_ => simp [Engine.step, Engine.dispatch, at_]
      | hold at_ room capped =>
        have less : e.pool - n < e.cfg.poolCapacity := by omega
        have same : e.pool - n + 1 = e.pool + 1 - n := by omega
        simp [Engine.step, Engine.dispatch, at_, less, capped, same]
      | launch at_ room uncapped =>
        have less : e.pool - n < e.cfg.poolCapacity := by omega
        have same : e.pool - n + 1 = e.pool + 1 - n := by omega
        simp [Engine.step, Engine.dispatch, at_, less, uncapped, Engine.launch, Engine.countType, same]
      | launchHeld at_ room => simp [Engine.step, Engine.dispatch, at_, room, Engine.launch, Engine.countType]
    · cases Engine.step_stepped step with
      | abandon at_ cancelled => simp [Engine.step, Engine.abandon, at_, cancelled]
      | abandonHeld at_ cancelled =>
        have same : e.pool - n - 1 = e.pool - 1 - n := by omega
        simp [Engine.step, Engine.abandon, at_, cancelled, same]

/-- The engine in which a goroutine makes all its deferred calls when it makes the first. -/
def Slots.coarse (s : Slots) : Engine :=
  { s.engine with pool := s.engine.pool - s.unwinding.count .globalPool }

def SlotEvent.coarse : SlotEvent → List Event
  | .engine event => [event]
  | .unwind _ => []

theorem SlotStepped.coarse {cfg : EngineConfig} {s next : Slots} {event : SlotEvent} {call : Option Call}
    (stepped : SlotStepped s event next call) (kept : SlotsKept cfg s) :
    engineSystem.run s.coarse event.coarse = some next.coarse := by
  have pool := kept.balanced.pool
  cases stepped with
  | engine running step =>
    have less := Engine.step_less (n := s.unwinding.count .globalPool) (by omega) running step
    simp only [SlotEvent.coarse, System.run, engineSystem, Slots.coarse, less]
    rfl
  | perType at_ committing =>
    have same : s.engine.pool - s.unwinding.count .globalPool - 1 =
        s.engine.pool - (s.unwinding.count .globalPool + 1) := by omega
    simp [SlotEvent.coarse, System.run, engineSystem, Engine.step, Engine.runTask, Slots.coarse, Slots.leave,
      Engine.countType, at_, committing, same]
  | globalPool at_ =>
    have one := count_globalPool at_
    simp only [SlotEvent.coarse, System.run, Slots.coarse, Option.some.injEq, Engine.mk.injEq, true_and, and_true]
    omega
  | inflight at_ => simp only [SlotEvent.coarse, System.run, Slots.coarse, count_inflight at_]

/-- Every run of the slots is a run of the engine. -/
theorem run_coarse {cfg : EngineConfig} {trace : List SlotEvent} {s : Slots}
    (run : slotSystem.run (newSlots cfg) trace = some s) :
    engineSystem.run (newEngine cfg) (trace.flatMap SlotEvent.coarse) = some s.coarse := by
  obtain ⟨after,ran,_,rfl⟩ := System.simulation (n := engineSystem)
    (fun s e => SlotsKept cfg s ∧ e = s.coarse) SlotEvent.coarse
    (fun s e event next related step => by
      obtain ⟨kept,rfl⟩ := related
      obtain ⟨call,stepped⟩ := slotSystem_stepped step
      exact ⟨next.coarse,stepped.coarse kept,stepped.kept kept,rfl⟩)
    run ⟨newSlots_kept cfg,rfl⟩
  exact ran

/-! ### The caps -/

def Task.isRunning (t : Task) : Bool := t.phase = .running

theorem Balanced.running_le {n : Nat} {e : Engine} (balanced : Balanced n e) :
    e.tasks.countP Task.isRunning ≤ e.cfg.poolCapacity := by
  have all := List.countP_le_length (p := Task.isRunning) (l := e.tasks)
  have pool := balanced.pool
  have capacity := balanced.capacity
  rw [Engine.launched, List.length_map] at pool
  omega

/-- The running invocations of a capped type each hold one of its slots. -/
theorem Balanced.runningType_le {n : Nat} {e : Engine} (balanced : Balanced n e) (registered : Registered e)
    {eventType : String} {reg : Registration} (found : e.cfg.registry.lookup eventType = some reg)
    (capped : 0 < reg.cfg.maxInflight) :
    (e.tasks.countP (fun t => t.isRunning && t.job.eventType = eventType) : Int) ≤ reg.cfg.maxInflight := by
  have holds : e.tasks.countP (fun t => t.isRunning && t.job.eventType = eventType) ≤ e.perType eventType := by
    rw [balanced.perType, Engine.launched, List.countP_map]
    apply List.countP_mono_left
    intro t member running
    obtain ⟨_,rfl⟩ : t.isRunning = true ∧ t.job.eventType = eventType := by simpa using running
    have known := registered t.job (List.mem_append_right _ (List.mem_map_of_mem member))
    cases known.symm.trans found
    simp [Job.occupies, Job.capped, capped]
  have bound := balanced.maxInflight eventType reg found capped
  omega

theorem SlotsKept.pool {cfg : EngineConfig} {s : Slots} (kept : SlotsKept cfg s) :
    s.engine.pool = s.unreleased + s.engine.loop.dispatching := by
  rw [kept.balanced.pool, Engine.launched, List.length_map]
  rfl

/-- A dispatch that gives up keeps no slot. -/
theorem abandon_gives_back {cfg : EngineConfig} {s next : Slots} (kept : SlotsKept cfg s)
    (step : slotSystem.step s (.engine .abandon) = some next) :
    next.engine.pool = next.unreleased ∧ next.unreleased = s.unreleased ∧
      next.engine.perType = s.engine.perType ∧ next.engine.launched = s.engine.launched := by
  obtain ⟨call,stepped⟩ := slotSystem_stepped step
  have after := (stepped.kept kept).pool
  cases stepped with
  | engine _ step =>
    cases Engine.step_stepped step with
    | abandon => exact ⟨after,rfl,rfl,rfl⟩
    | abandonHeld => exact ⟨after,rfl,rfl,rfl⟩

/-- In every state of every run: no more invocations run than the pool and the cap of their
type allow; the pool is filled by the goroutines that have not given their slot back and by
at most one dispatch, the semaphore of a type by its goroutines; a dispatch that the
cancelled context ends has taken nothing; and without goroutines and dispatch all slots are
free. -/
theorem slots_conserved (cfg : EngineConfig) (trace : List SlotEvent) (s : Slots)
    (run : slotSystem.run (newSlots cfg) trace = some s) :
    s.engine.tasks.countP Task.isRunning ≤ cfg.poolCapacity ∧
    (∀ eventType reg, cfg.registry.lookup eventType = some reg → 0 < reg.cfg.maxInflight →
      (s.engine.tasks.countP (fun t => t.isRunning && t.job.eventType = eventType) : Int) ≤ reg.cfg.maxInflight) ∧
    (s.engine.pool = s.unreleased + s.engine.loop.dispatching ∧ s.engine.loop.dispatching ≤ 1) ∧
    (∀ eventType, s.engine.perType eventType = s.engine.launched.countP (Job.occupies eventType)) ∧
    (∀ next, slotSystem.step s (.engine .abandon) = some next →
      next.engine.pool = next.unreleased ∧ next.unreleased = s.unreleased ∧
        next.engine.perType = s.engine.perType ∧ next.engine.launched = s.engine.launched) ∧
    (s.unreleased = 0 → s.engine.loop.dispatching = 0 →
      s.engine.pool = 0 ∧ ∀ eventType, s.engine.perType eventType = 0) := by
  have kept := run_slotsKept run
  have ⟨config,registered,balanced⟩ := kept
  subst config
  refine ⟨balanced.running_le,fun _ _ found capped => balanced.runningType_le registered found capped,
    ⟨kept.pool,?_⟩,balanced.perType,fun _ => abandon_gives_back kept,fun none idle => ⟨?_,fun eventType => ?_⟩⟩
  · unfold Loop.dispatching
    split <;> decide
  · rw [kept.pool, none, idle]
  · have empty : s.engine.tasks = [] := List.eq_nil_of_length_eq_zero (Nat.eq_zero_of_add_eq_zero_right none)
    rw [balanced.perType, Engine.launched, empty]
    rfl

def cappedMailer : EngineConfig :=
  ⟨⟨[("mail", ⟨false, ⟨10, 1, 0, none⟩⟩)], by simp, by simp⟩, "w", 10, 2, 30 * Duration.second, true⟩

/-- The second of two messages waits for the slot of the first when the context is
cancelled. -/
def crowdedOut : List SlotEvent :=
  [.engine .poll, .engine (.claimed [lastAttempt, lastAttempt] []), .engine .dispatch, .engine .dispatch,
    .engine .dispatch, .engine .cancel]

theorem slots_conserved_crowded :
    ∃ s next, slotSystem.run (newSlots cappedMailer) crowdedOut = some s ∧
      slotSystem.step s (.engine .abandon) = some next ∧ s.engine.pool = 2 ∧ s.unreleased = 1 ∧
      next.engine.pool = next.unreleased ∧ next.unreleased = s.unreleased ∧
      next.engine.perType = s.engine.perType ∧ next.engine.launched = s.engine.launched :=
  ⟨_,_,rfl,rfl,rfl,rfl,(slots_conserved cappedMailer crowdedOut _ rfl).2.2.2.2.1 _ rfl⟩

end Tickr
