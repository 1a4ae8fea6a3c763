import Tickr.Engine
import Tickr.PostgresRuns
import Tickr.Transition

/-! Graceful shutdown of one engine. Cancelling the worker's context and setting the
stopping flag are different steps of different goroutines; a handler may return in
between. -/
namespace Tickr

open Transition Postgres

def engineSystem : System Engine Event := ⟨fun e event => (e.step event).map Prod.fst⟩

/-- The completion of a message that a shutdown interrupted. -/
def shutdownRelease (workerID : String) (m : InboundMessage) : Call :=
  .releaseShutdown m.id m.attempt workerID "worker shutdown"

/-- The error of a handler that returned `context.Canceled`, however wrapped, after the
worker's context was cancelled. -/
def Phase.interrupted : Phase → Option GoError
  | .returned (some err) true => if err.isCanceled then some err else none
  | _ => none

/-- The task whose outcome a step resolves. -/
def Event.resolving : Event → Option Nat
  | .task i .resolve => some i
  | _ => none

/-- The outcome of an interrupted handler is resolved only once the stopping flag is set,
and its error does not ask for a skip as well. -/
def Heeded (e : Engine) (event : Event) : Prop :=
  ∀ err ∈ event.resolving.bind fun i => e.tasks[i]?.bind fun t => t.phase.interrupted,
    e.stopping = true ∧ isSkip err = false

instance (e : Engine) (event : Event) : Decidable (Heeded e event) :=
  inferInstanceAs (Decidable (∀ err ∈ _, _))

/-! ### The invariant of one task -/

/-- A late return finds the context cancelled, and a late `context.Canceled` is resolved
as a cancellation. -/
def Shielded (ctxDone : Bool) : Phase → Prop
  | .running => True
  | .returned _ late => late = true → ctxDone = true
  | .committing err late outcome _ => late = true → err.any GoError.isCanceled = true → outcome = .canceled

section
variable {e e' : Engine} {event : Event} {call : Option Call}

theorem Stepped.cancelled (stepped : Stepped e event e' call) (cancelled : e.ctxDone = true) :
    e'.ctxDone = true := by
  cases stepped <;> first | exact cancelled | rfl

theorem Shielded.mono {before after : Bool} {phase : Phase} (shielded : Shielded before phase)
    (implies : before = true → after = true) : Shielded after phase := by
  cases phase with
  | running => trivial
  | returned err late => exact fun isLate => implies (shielded isLate)
  | committing => exact shielded

theorem TaskMove.shielded {t : Task} {i : Nat} {event : TaskEvent} {phase : Phase} (at_ : e.tasks[i]? = some t)
    (move : TaskMove e t event phase) (heeded : Heeded e (.task i event)) (shielded : Shielded e.ctxDone t.phase) :
    Shielded e.ctxDone phase := by
  cases move with
  | returned => exact id
  | @resolved err late returned =>
    rw [returned] at shielded
    rintro rfl canceled
    obtain ⟨err,rfl,wraps⟩ := Option.any_eq_true _ _ |>.mp canceled
    obtain ⟨stopping,noSkip⟩ := heeded err (by
      simp [Event.resolving, at_, returned, Phase.interrupted, wraps])
    exact resolveOutcome_canceled.mpr ⟨err,rfl,noSkip,wraps,shielded rfl,stopping⟩
  | committed committing =>
    rw [committing] at shielded
    exact shielded

theorem Stepped.shielded (stepped : Stepped e event e' call) (heeded : Heeded e event)
    (shielded : ∀ t ∈ e.tasks, Shielded e.ctxDone t.phase) : ∀ t ∈ e'.tasks, Shielded e'.ctxDone t.phase := by
  intro t member
  refine Shielded.mono ?_ stepped.cancelled
  cases stepped.tasks member with
  | kept kept => exact shielded t kept
  | launched => trivial
  | moved at_ move => exact move.shielded at_ heeded (shielded _ (List.mem_of_getElem? at_))

end

theorem engineSystem_step {e e' : Engine} {event : Event} (step : engineSystem.step e event = some e') :
    ∃ call, e.step event = some (e', call) := by
  obtain ⟨⟨after,call⟩,stepped,rfl⟩ := Option.map_eq_some_iff.mp step
  exact ⟨call,stepped⟩

theorem engineSystem_stepped {e e' : Engine} {event : Event} (step : engineSystem.step e event = some e') :
    ∃ call, Stepped e event e' call := by
  obtain ⟨call,stepped⟩ := engineSystem_step step
  exact ⟨call,Engine.step_stepped stepped⟩

/-- What every step of the engine keeps, every run keeps. -/
theorem run_keeps {property : Engine → Prop}
    (keeps : ∀ {e event e' call}, Stepped e event e' call → property e → property e')
    {e e' : Engine} {trace : List Event} (run : engineSystem.run e trace = some e') (initial : property e) :
    property e' := by
  apply System.run_invariant property _ run initial
  intro e event e' holds step
  obtain ⟨call,stepped⟩ := engineSystem_stepped step
  exact keeps stepped holds

theorem run_cfg {cfg : EngineConfig} {trace : List Event} {e : Engine}
    (run : engineSystem.run (newEngine cfg) trace = some e) : e.cfg = cfg :=
  run_keeps (fun stepped same => stepped.cfg.trans same) run rfl

theorem run_shielded {cfg : EngineConfig} {trace : List Event} {e : Engine}
    (run : engineSystem.run (newEngine cfg) trace = some e)
    (heeded : engineSystem.Along Heeded (newEngine cfg) trace) :
    ∀ t ∈ e.tasks, Shielded e.ctxDone t.phase := by
  refine System.invariant Heeded (fun e => ∀ t ∈ e.tasks, Shielded e.ctxDone t.phase) ?_ run heeded ?_
  · intro e event e' shielded heeded step
    obtain ⟨call,stepped⟩ := engineSystem_stepped step
    exact stepped.shielded heeded shielded
  · intro t member
    cases member

/-! ### The write -/

theorem commitOutcome_shutdownRelease {batchAcker : Bool} {workerID : String} {m : InboundMessage}
    {cfg : HandlerConfig} {err : Option GoError} {clock : Time} {nextDelay : Duration} {outcome : Outcome} :
    commitOutcome batchAcker workerID m cfg err clock nextDelay outcome =
      some (.call (shutdownRelease workerID m)) ↔ outcome = .canceled := by
  constructor
  · intro committed
    cases commitOutcome_committed committed
    rfl
  · rintro rfl
    rfl

/-- What a release does to the row it names and to every other row. -/
theorem release_restores {pg : Postgres.Config} (s : Store pg) (env : Env) (id : MessageID) (attempt : Int)
    (workerID reason : String) {k : Uuid} {r : Row} (found : s.row k = some r) :
    ∃ r', (exec s env (.releaseShutdown id attempt workerID reason)).1.row k = some r' ∧
      (r'.status = .dead → r.status = .dead) ∧
      (id = .uuid k → r.status = .handling → r.attempt = attempt → 1 ≤ r.attempt →
        r'.status = .retrying ∧ r'.attempt = r.attempt - 1) := by
  cases id with
  | malformed text =>
    refine ⟨r,found,id,fun impossible => ?_⟩
    cases impossible
  | uuid mid =>
    refine ⟨_,(releaseStatement_row s (env.now 0) mid attempt workerID reason k).trans
      (by rw [found]; rfl),?_,?_⟩
    · rw [KeyedTable.when]
      split
      · intro impossible
        cases impossible
      · exact id
    · rintro named handling current counted
      cases named
      rw [KeyedTable.when, if_pos (holds_iff.mpr ⟨Store.row_id found,handling,current⟩)]
      exact ⟨rfl,max_eq_right (by omega)⟩

/-- In a run that resolves interrupted handlers only after the stopping flag is set, each
of their messages is released, which restores its attempt and never buries it. In every
state of such a run that is also when the next one will be. -/
theorem shutdown_keeps_attempt {pg : Postgres.Config} (cfg : EngineConfig) (trace : List Event) (e : Engine)
    (run : engineSystem.run (newEngine cfg) trace = some e)
    (heeded : engineSystem.Along Heeded (newEngine cfg) trace) :
    (∀ i t err outcome m rest, e.tasks[i]? = some t →
      t.phase = .committing (some err) true outcome (m :: rest) → err.isCanceled = true →
      (∀ clock nextDelay, e.step (.task i (.commit clock nextDelay)) =
        some (e.setPhase i t (.committing (some err) true outcome rest),
          some (shutdownRelease e.cfg.workerID m))) ∧
      ∀ (s : Store pg) env k r, s.row k = some r →
        ∃ r', (exec s env (shutdownRelease e.cfg.workerID m)).1.row k = some r' ∧
          (r'.status = .dead → r.status = .dead) ∧
          (m.id = .uuid k → r.status = .handling → r.attempt = m.attempt → 1 ≤ r.attempt →
            r'.status = .retrying ∧ r'.attempt = r.attempt - 1)) ∧
    ∀ i t err, e.tasks[i]? = some t → t.phase = .returned (some err) true → err.isCanceled = true →
      ∃ outcome, e.step (.task i .resolve) =
          some (e.setPhase i t (.committing (some err) true outcome t.job.msgs), none) ∧
        ∀ m clock nextDelay, commitOutcome e.cfg.batchAcker e.cfg.workerID m t.job.reg.cfg (some err)
            clock nextDelay outcome = some (.call (shutdownRelease e.cfg.workerID m)) ↔
          e.stopping = true ∧ isSkip err = false := by
  have shielded := run_shielded run heeded
  constructor
  · intro i t err outcome m rest at_ committing wraps
    obtain rfl : outcome = .canceled := by
      have own := shielded t (List.mem_of_getElem? at_)
      rw [committing] at own
      exact own rfl wraps
    refine ⟨fun clock nextDelay => ?_,fun s env k r found => release_restores s env _ _ _ _ found⟩
    simp only [Engine.step, at_, Option.bind_some, Engine.runTask, Engine.commit, committing,
      commitOutcome_shutdownRelease.mpr]
  · intro i t err at_ returned wraps
    have cancelled : e.ctxDone = true := by
      have own := shielded t (List.mem_of_getElem? at_)
      rw [returned] at own
      exact own rfl
    refine ⟨resolveOutcome e.ctxDone e.stopping (some err),?_,fun m clock nextDelay => ?_⟩
    · simp only [Engine.step, at_, Option.bind_some, Engine.runTask, returned]
    · rw [commitOutcome_shutdownRelease, resolveOutcome_canceled]
      constructor
      · rintro ⟨_,same,noSkip,_,_,stopping⟩
        cases same
        exact ⟨stopping,noSkip⟩
      · rintro ⟨stopping,noSkip⟩
        exact ⟨err,rfl,noSkip,wraps,cancelled,stopping⟩

/-! ### One message on its last attempt -/

def mailOnly : Registry := ⟨[("mail", ⟨false, ⟨10, 0, 0, none⟩⟩)], by simp, by simp⟩

def mailer : EngineConfig := ⟨mailOnly, "w", 10, 1, 30 * Duration.second, true⟩

/-- The message that the mailer's Claim returns from a table with one message. -/
def lastAttempt : InboundMessage :=
  scanMessage (claimSet 6 "w" 30 (enqueueRow (Env.quiet 5 7) 0 (plainParams "mail" 1)))

/-- The handler is running and the loop waits; then the context is cancelled and the
handler returns `context.Canceled`. -/
def interruption : List Event :=
  [.poll, .claimed [lastAttempt] [], .dispatch, .dispatch, .cancel, .task 0 (.returns (.returns (some .canceled)))]

theorem shutdown_keeps_attempt_stopped :
    ∃ e, engineSystem.run (newEngine mailer) (interruption ++ [.notice, .stop, .task 0 .resolve]) = some e ∧
      (e.step (.task 0 (.commit 9 0))).bind Prod.snd =
        some (.releaseShutdown (.uuid 7) 1 "w" "worker shutdown") :=
  ⟨_,rfl,congrArg (Option.bind · Prod.snd)
    (((@shutdown_keeps_attempt ⟨false, .full⟩ mailer
      (interruption ++ [.notice, .stop, .task 0 .resolve]) _ rfl (by decide +kernel)).1
      0 _ _ _ _ _ rfl rfl rfl).1 9 0)⟩

/-- The loop has not yet seen the cancelled context when the outcome is resolved, so the
message goes to DEAD on its only attempt. -/
theorem shutdown_burns_attempt :
    (claim (exec (Store.empty : Store ⟨false, .full⟩) (Env.quiet 5 7) (.enqueue (plainParams "mail" 1))).1
      (Env.quiet 6 0) mailer.claimParams).2 = [lastAttempt] ∧
    (engineSystem.run (newEngine mailer) (interruption ++ [.task 0 .resolve])).bind
      (fun e => e.tasks[0]?.map Task.phase) = some (.committing (some .canceled) true .retry [lastAttempt]) ∧
    (engineSystem.run (newEngine mailer) (interruption ++ [.task 0 .resolve])).bind
      (fun e => (e.step (.task 0 (.commit 9 0))).bind Prod.snd) =
        some (.fail ⟨.uuid 7, 1, "w", "context canceled", Time.zero, true⟩) ∧
    ((execute (Store.empty : Store ⟨false, .full⟩)
      [(Env.quiet 5 7, .enqueue (plainParams "mail" 1)), (Env.quiet 6 0, .claim mailer.claimParams),
       (Env.quiet 9 0, .fail ⟨.uuid 7, 1, "w", "context canceled", Time.zero, true⟩)]).row 7).map Row.status =
        some .dead := by
  decide +kernel

end Tickr
