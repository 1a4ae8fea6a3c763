import Tickr.EngineAcks
import Tickr.EngineSlots

/-! An engine finishes what it has claimed. Every step of the dispatch, of a handler
goroutine and of the flusher takes a piece off the work that is left, and while there is
work one of these steps can be taken: slots are free when no goroutine holds them, and the
flusher makes room for acknowledgements. Only the handlers themselves have to return. -/
namespace Tickr

open Transition

/-! ### The work that is left -/

/-- A message costs its goroutine one step, and the flusher two; an invocation needs two
slots and three steps around its messages. -/
def Action.work : Action → Nat
  | .noHandler _ => 1
  | .run job => 3 * job.msgs.length + 5

def Loop.work : Loop → Nat
  | .dispatch actions => total Action.work actions + 1
  | .holding job actions => 3 * job.msgs.length + 5 + total Action.work actions
  | .releasing msgs actions => msgs.length + 2 + total Action.work actions
  | _ => 0

def Phase.work (msgs : List InboundMessage) : Phase → Nat
  | .running => 3 * msgs.length + 3
  | .returned _ _ => 3 * msgs.length + 2
  | .committing _ _ _ rest => 3 * rest.length + 1

def Task.work (t : Task) : Nat := t.phase.work t.job.msgs

def Engine.work (e : Engine) : Nat :=
  e.loop.work + total Task.work e.tasks + 2 * e.succeedCh.length + e.buf.length

/-- The steps that get on with the work; a flush of nothing does not. -/
def Engine.works (e : Engine) : Event → Bool
  | .dispatch | .abandon | .receive => true
  | .flush => !e.buf.isEmpty
  | .task _ (.extend _ _) => false
  | .task _ _ => true
  | _ => false

def Event.isClaimed : Event → Bool
  | .claimed _ _ => true
  | _ => false

section
variable {e e' : Engine} {event : Event} {call : Option Call}

theorem Stepped.work (stepped : Stepped e event e' call) (unclaimed : event.isClaimed = false) :
    e'.work + (e.works event).toNat ≤ e.work := by
  have moved {i : Nat} {t : Task} (at_ : e.tasks[i]? = some t) (phase : Phase) :
      total Task.work (e.tasks.set i { t with phase }) + t.work =
        total Task.work e.tasks + phase.work t.job.msgs := total_set Task.work at_ _
  cases stepped with
  | claimed => cases unclaimed
  | dispatched at_ | noHandler at_ | hold at_ | released at_ | release at_ | abandon at_ | abandonHeld at_ =>
    simp only [Engine.work, Engine.works, at_, Loop.work, Action.work, total, List.length_cons, List.length_nil,
      Bool.toNat_true]
    omega
  | launch at_ | launchHeld at_ =>
    simp only [Engine.work, Engine.works, Engine.launch, at_, Loop.work, Action.work, total, total_append, Task.work,
      Phase.work, Bool.toNat_true]
    omega
  | @returns i t behaviour at_ running =>
    have shorter := moved at_ (.returned (t.job.invoke behaviour) e.ctxDone)
    simp only [Task.work, running, Phase.work] at shorter
    simp only [Engine.work, Engine.works, Engine.setPhase, Bool.toNat_true]
    omega
  | @resolve i t err late at_ returned =>
    have shorter := moved at_ (.committing err late (resolveOutcome e.ctxDone e.stopping err) t.job.msgs)
    simp only [Task.work, returned, Phase.work] at shorter
    simp only [Engine.work, Engine.works, Engine.setPhase, Bool.toNat_true]
    omega
  | @ack i t m err clock nextDelay outcome p late rest at_ committing =>
    have shorter := moved at_ (.committing err late outcome rest)
    simp only [Task.work, committing, Phase.work, List.length_cons] at shorter
    simp only [Engine.work, Engine.works, Engine.setPhase, List.length_append, List.length_cons, List.length_nil,
      Bool.toNat_true]
    omega
  | @commit i t m err clock nextDelay outcome c late rest at_ committing =>
    have shorter := moved at_ (.committing err late outcome rest)
    simp only [Task.work, committing, Phase.work, List.length_cons] at shorter
    simp only [Engine.work, Engine.works, Engine.setPhase, Bool.toNat_true]
    omega
  | @finish i t err late outcome at_ committing =>
    have shorter := total_eraseIdx Task.work at_
    simp only [Task.work, committing, Phase.work] at shorter
    simp only [Engine.work, Engine.works, Bool.toNat_true]
    omega
  | receive at_ =>
    simp only [Engine.work, Engine.works, at_, List.length_append, List.length_cons, List.length_nil, Bool.toNat_true]
    omega
  | flush =>
    simp only [Engine.work, Engine.works]
    cases e.buf <;> simp
  | notice at_ => rcases at_ with at_ | at_ <;> simp [Engine.work, Engine.works, at_, Loop.work]
  | idle at_ | poll at_ | claimFailed at_ | wake at_ | stop at_ => simp [Engine.work, Engine.works, at_, Loop.work]
  | cancel | extend | close => simp [Engine.work, Engine.works]
  | exit => simp only [Engine.work, Engine.works, Bool.toNat_false, List.length_nil]; omega

end

/-! ### What no step can undo -/

/-- The outcome of a committing task was resolved from its error. -/
def Phase.Resolved : Phase → Prop
  | .committing err _ outcome _ => ∃ ctxDone stopping, outcome = resolveOutcome ctxDone stopping err
  | _ => True

/-- Only a job of a capped type waits with a slot of the pool. -/
def Loop.Capped : Loop → Prop
  | .holding job _ => job.capped = true
  | _ => True

structure Lively (e : Engine) : Prop where
  registered : Registered e
  balanced : Balanced 0 e
  closing : Closing e
  resolved : ∀ t ∈ e.tasks, t.phase.Resolved
  capped : e.loop.Capped

section
variable {e e' : Engine} {event : Event} {call : Option Call}

theorem TaskMove.keeps {t : Task} {event : TaskEvent} {phase : Phase} (move : TaskMove e t event phase)
    (resolved : t.phase.Resolved) : phase.Resolved := by
  cases move with
  | returned => trivial
  | resolved => exact ⟨_,_,rfl⟩
  | committed committing =>
    rw [committing] at resolved
    exact resolved

theorem Stepped.lively (stepped : Stepped e event e' call) (lively : Lively e) : Lively e' where
  registered := stepped.registered lively.registered
  balanced := stepped.balanced lively.registered lively.balanced
  closing := stepped.closing lively.closing
  resolved t member := by
    cases stepped.tasks member with
    | kept kept => exact lively.resolved t kept
    | launched => trivial
    | moved at_ move => exact move.keeps (lively.resolved _ (List.mem_of_getElem? at_))
  capped := by
    cases stepped with
    | hold _ _ capped => exact capped
    | cancel | returns | resolve | ack | commit | finish | extend | receive | flush | close | exit =>
      exact lively.capped
    | _ => trivial

end

theorem newEngine_lively (cfg : EngineConfig) : Lively (newEngine cfg) where
  registered := newEngine_registered cfg
  balanced := newEngine_balanced cfg
  closing := newEngine_closing cfg
  resolved := by simp [newEngine]
  capped := trivial

theorem run_lively {e e' : Engine} {trace : List Event} (lively : Lively e)
    (run : engineSystem.run e trace = some e') : Lively e' :=
  run_keeps Stepped.lively run lively

/-! ### While there is work, some of it can be done -/

/-- What a handler returns, what the clock shows and what the retry policy answers is not
the engine's choice. -/
def Event.answers (behaviour : Behaviour) (clock : Time) (nextDelay : Duration) : Event → Prop
  | .task _ (.returns b) => b = behaviour
  | .task _ (.commit c d) => c = clock ∧ d = nextDelay
  | _ => True

/-- Some step gets on with the work whatever the handlers return. -/
def Engine.proceeds (e : Engine) (behaviour : Behaviour) (clock : Time) (nextDelay : Duration) : Prop :=
  ∃ event, e.works event = true ∧ event.answers behaviour clock nextDelay ∧ (engineSystem.step e event).isSome = true

theorem batchSize_pos (n : Int) : 0 < batchSizeOrDefault n := limitOr_pos (by decide) n

theorem poolCapacity_pos (cfg : EngineConfig) : 0 < cfg.poolCapacity := limitOr_pos (by decide) cfg.poolSize

section
variable {e : Engine} {behaviour : Behaviour} {clock : Time} {nextDelay : Duration}

theorem Lively.flusher_proceeds (lively : Lively e) (waiting : e.succeedCh ≠ [] ∨ e.buf ≠ []) :
    e.proceeds behaviour clock nextDelay := by
  by_cases full : e.buf = []
  · cases queued : e.succeedCh with
    | nil => simp [full, queued] at waiting
    | cons p rest =>
      exact ⟨.receive,rfl,trivial,by simp [engineSystem, Engine.step, queued, full, batchSize_pos]⟩
  · refine ⟨.flush,by simpa [Engine.works] using full,trivial,?_⟩
    have running : e.flusherDone = false := by
      by_contra exited
      exact full (lively.closing.exited (by simpa using exited)).2.2
    simp [engineSystem, Engine.step, running]

/-- A goroutine waits for nothing but room for an acknowledgement. -/
theorem Lively.task_proceeds (lively : Lively e) (room : e.succeedCh = []) {t : Task} {rest : List Task}
    (tasks : e.tasks = t :: rest) : e.proceeds behaviour clock nextDelay := by
  have resolved := lively.resolved t (by simp [tasks])
  have first : e.tasks[0]? = some t := by rw [tasks]; rfl
  have own (event : TaskEvent) : engineSystem.step e (.task 0 event) = (e.runTask 0 t event).map Prod.fst := by
    simp only [engineSystem, Engine.step, first, Option.bind_some]
  cases phase : t.phase with
  | running =>
    refine ⟨.task 0 (.returns behaviour),rfl,rfl,?_⟩
    simp only [own, Engine.runTask, phase, Option.map_some, Option.isSome_some]
  | returned err late =>
    refine ⟨.task 0 .resolve,rfl,trivial,?_⟩
    simp only [own, Engine.runTask, phase, Option.map_some, Option.isSome_some]
  | committing err late outcome msgs =>
    cases msgs with
    | nil =>
      refine ⟨.task 0 .finish,rfl,trivial,?_⟩
      simp only [own, Engine.runTask, phase, Option.map_some, Option.isSome_some]
    | cons m msgs =>
      rw [phase] at resolved
      obtain ⟨ctxDone,stopping,rfl⟩ := resolved
      refine ⟨.task 0 (.commit clock nextDelay),rfl,⟨rfl,rfl⟩,?_⟩
      have space : e.succeedCh.length < e.cfg.ackCapacity := by
        rw [room]
        exact Nat.mul_pos (batchSize_pos _) (by decide)
      have decided : (commitOutcome e.cfg.batchAcker e.cfg.workerID m t.job.reg.cfg err clock nextDelay
          (resolveOutcome ctxDone stopping err)).isSome = true := commitOutcome_isSome
      obtain ⟨commit,committed⟩ := Option.isSome_iff_exists.mp decided
      cases commit <;>
        simp only [own, Engine.runTask, Engine.commit, phase, committed, space, if_true, Option.map_some,
          Option.isSome_some]

/-- Without goroutines every slot is free. -/
theorem Lively.loop_proceeds (lively : Lively e) (idle : e.tasks = []) (left : 0 < e.loop.work) :
    e.proceeds behaviour clock nextDelay := by
  refine ⟨.dispatch,rfl,trivial,?_⟩
  have pool := lively.balanced.pool
  have capped := lively.capped
  have perType (eventType : String) : e.perType eventType = 0 := by
    rw [lively.balanced.perType, Engine.launched, idle]
    rfl
  rw [Engine.launched, idle] at pool
  simp only [engineSystem, Engine.step, Option.isSome_map]
  unfold Engine.dispatch
  cases loop : e.loop with
  | dispatch actions =>
    cases actions with
    | nil => rfl
    | cons action rest =>
      cases action with
      | noHandler m => rfl
      | run job =>
        have free : e.pool < e.cfg.poolCapacity := by
          rw [pool, loop]
          exact poolCapacity_pos _
        simp only [free, if_true]
        split <;> rfl
  | holding job rest =>
    rw [loop] at capped
    have positive : 0 < job.reg.cfg.maxInflight := of_decide_eq_true capped
    simp [perType, positive]
  | releasing msgs rest => cases msgs <;> rfl
  | _ => simp [loop, Loop.work] at left

theorem Lively.proceeds (lively : Lively e) (left : 0 < e.work) : e.proceeds behaviour clock nextDelay := by
  by_cases flushing : e.succeedCh ≠ [] ∨ e.buf ≠ []
  · exact lively.flusher_proceeds flushing
  · obtain ⟨channel,buffer⟩ : e.succeedCh = [] ∧ e.buf = [] := by simpa [not_or] using flushing
    cases tasks : e.tasks with
    | nil => exact lively.loop_proceeds tasks (by simpa [Engine.work, tasks, total, channel, buffer] using left)
    | cons t rest => exact lively.task_proceeds channel tasks

end

end Tickr
