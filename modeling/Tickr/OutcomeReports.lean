import Tickr.EngineWrites
import Tickr.HandlerResults

/-! What the metrics hear of an attempt, beside what is written. A goroutine reports the
outcome of all its messages when it has resolved it, and then writes for one message after
the other; between the two, reported outcomes wait in its task. -/
namespace Tickr

open Transition

/-- A call of `HandlerCompleted`: the message whose type and attempt it names, and the
outcome. -/
abbrev Report := InboundMessage × Outcome

def Engine.reports (e : Engine) : Event → List Report
  | .task i .resolve => e.tasks[i]?.elim [] fun t =>
    match t.phase with
    | .returned err _ => t.job.msgs.map fun m => (m, resolveOutcome e.ctxDone e.stopping err)
    | _ => []
  | _ => []

/-- The end of an attempt: what was reported of it, and what is written. -/
structure Conclusion where
  job : Job
  message : InboundMessage
  reported : Outcome
  write : Commit

def Conclusion.report (w : Conclusion) : Report := (w.message, w.reported)

/-- What a step writes for the next message of its task. -/
def Engine.concludes (e : Engine) (event : Event) : List Conclusion :=
  match event with
  | .task i (.commit _ _) => e.tasks[i]?.elim [] fun t =>
    match t.phase with
    | .committing _ _ outcome (m :: _) => (e.commits event).toList.map fun write => ⟨t.job, m, outcome, write⟩
    | _ => []
  | _ => []

def Task.unwritten (t : Task) : List Report :=
  match t.phase with
  | .committing _ _ outcome rest => rest.map fun m => (m, outcome)
  | _ => []

/-- The reported outcomes that are still to be written. -/
def Engine.unwritten (e : Engine) : List Report := e.tasks.flatMap Task.unwritten

/-- What a write makes of its message. -/
def Commit.outcome : Commit → Option Outcome
  | .ack _ | .call (.succeed _ _ _) => some .success
  | .call (.releaseShutdown _ _ _ _) => some .canceled
  | .call (.fail p) => some (if p.dead then .dead else .retry)
  | _ => none

/-- Each outcome is reported exactly when it is written. -/
def Matches (reported : Outcome) (write : Commit) : Prop :=
  ∀ outcome, reported = outcome ↔ write.outcome = some outcome

/-- The attempt does not fail for good. -/
def Lasting (m : InboundMessage) (cfg : HandlerConfig) (shutdown : Bool) (err : Option GoError) : Prop :=
  ∀ e, err = some e → ¬e.Skips → ¬(shutdown = true ∧ .canceled ∈ e.tree) → ¬e.DeadLetters ∧ ¬Exhausted m cfg e

/-! ### One attempt -/

theorem Commit.outcome_acknowledges {write : Commit} (acks : write.acknowledges = true) :
    write.outcome = some .success := by
  unfold Commit.acknowledges at acks
  split at acks
  · rfl
  · rfl
  · cases acks

theorem matches_iff_eq {reported : Outcome} {write : Commit} : Matches reported write ↔ write.outcome = some reported := by
  constructor
  · intro same
    exact (same reported).mp rfl
  · intro same outcome
    rw [same, Option.some.injEq]

/-- Of an error that is neither a skip nor a cancellation in a shutdown. -/
theorem lasting_failed_iff {m : InboundMessage} {cfg : HandlerConfig} {shutdown : Bool} {err : GoError}
    (unskipped : ¬err.Skips) (undisturbed : ¬(shutdown = true ∧ .canceled ∈ err.tree)) :
    Lasting m cfg shutdown (some err) ↔ ¬(err.DeadLetters ∨ Exhausted m cfg err) := by
  rw [not_or]
  constructor
  · intro lasting
    exact lasting err rfl unskipped undisturbed
  · rintro alive e ⟨⟩ _ _
    exact alive

section
variable {job : Job} {batchAcker ctxDone stopping : Bool} {workerID : String} {behaviour : Behaviour}
  {m : InboundMessage} {clock : Time} {nextDelay : Duration} {write : Commit}

/-- The report matches the write unless the attempt fails for good. -/
theorem matches_iff
    (written : job.concludes batchAcker workerID ctxDone stopping behaviour m clock nextDelay = some write) :
    Matches (resolveOutcome ctxDone stopping (job.invoke behaviour)) write ↔
      Lasting m job.reg.cfg (ctxDone && stopping) (job.invoke behaviour) := by
  rw [matches_iff_eq]
  by_cases skipped : ∀ e, job.invoke behaviour = some e → e.Skips
  · obtain ⟨c,same,acks⟩ := @concludes_success job batchAcker ctxDone stopping workerID behaviour m clock nextDelay skipped
    cases written.symm.trans same
    rw [resolveOutcome_skipped skipped]
    exact iff_of_true (Commit.outcome_acknowledges acks) fun e came unskipped => absurd (skipped e came) unskipped
  · simp only [not_forall] at skipped
    obtain ⟨err,came,unskipped⟩ := skipped
    have only {e : GoError} (same : job.invoke behaviour = some e) : err = e := Option.some.inj (came.symm.trans same)
    by_cases disturbed : (ctxDone && stopping) = true ∧ .canceled ∈ err.tree
    · cases written.symm.trans (concludes_release came unskipped disturbed.2 disturbed.1)
      have resolved : resolveOutcome ctxDone stopping (job.invoke behaviour) = .canceled :=
        commitOutcome_shutdownRelease.mp written
      rw [resolved]
      refine iff_of_true rfl ?_
      intro e same _ undisturbed
      exact absurd (only same ▸ disturbed) undisturbed
    · cases written.symm.trans (concludes_fail came unskipped disturbed)
      rw [came, resolveOutcome_retry unskipped disturbed, lasting_failed_iff unskipped disturbed, ← deadAfter_iff,
        Bool.not_eq_true]
      cases dead : deadAfter m job.reg.cfg err .retry <;> simp [Commit.outcome, failParams, dead]

end

/-! ### Steps -/

section
variable {e e' : Engine} {event : Event} {call : Option Call}

/-- What is reported and not yet written, was so before or has just been reported. -/
theorem Stepped.reported (stepped : Stepped e event e' call) (x : Report) :
    e'.unwritten.count x + ((e.concludes event).map Conclusion.report).count x =
      e.unwritten.count x + (e.reports event).count x := by
  have replaced {i : Nat} {t : Task} (at_ : e.tasks[i]? = some t) (phase : Phase) :
      ((e.tasks.set i { t with phase }).flatMap Task.unwritten).count x + t.unwritten.count x =
        (e.tasks.flatMap Task.unwritten).count x + (Task.unwritten { t with phase }).count x := by
    rw [count_flatMap_set Task.unwritten x at_, count_flatMap_erase Task.unwritten x at_]
    omega
  have wrote {i : Nat} {t : Task} {err : Option GoError} {late : Bool} {outcome : Outcome} {m : InboundMessage}
      {rest : List InboundMessage} {clock : Time} {nextDelay : Duration} {write : Commit}
      (at_ : e.tasks[i]? = some t) (committing : t.phase = .committing err late outcome (m :: rest))
      (committed : commitOutcome e.cfg.batchAcker e.cfg.workerID m t.job.reg.cfg err clock nextDelay outcome = some write) :
      ((e.tasks.set i { t with phase := .committing err late outcome rest }).flatMap Task.unwritten).count x +
          ((e.concludes (.task i (.commit clock nextDelay))).map Conclusion.report).count x =
        (e.tasks.flatMap Task.unwritten).count x + (e.reports (.task i (.commit clock nextDelay))).count x := by
    have moved := replaced at_ (.committing err late outcome rest)
    simp only [Task.unwritten, committing, List.map_cons, List.count_cons] at moved
    simp only [Engine.concludes, Engine.commits, Engine.reports, at_, committing, committed, Option.elim,
      Option.bind_some, Option.toList_some, List.map_cons, List.map_nil, Conclusion.report, List.count_cons, List.count_nil]
    omega
  unfold Engine.unwritten
  cases stepped with
  | launch | launchHeld => simp [Engine.launch, Engine.concludes, Engine.reports, Task.unwritten]
  | @returns i t behaviour at_ running =>
    have moved := replaced at_ (.returned (t.job.invoke behaviour) e.ctxDone)
    simp only [Task.unwritten, running, List.count_nil] at moved
    simp only [Engine.setPhase, Engine.concludes, Engine.reports, List.map_nil, List.count_nil]
    omega
  | @resolve i t err late at_ returned =>
    have moved := replaced at_ (.committing err late (resolveOutcome e.ctxDone e.stopping err) t.job.msgs)
    simp only [Task.unwritten, returned, List.count_nil] at moved
    simp only [Engine.setPhase, Engine.concludes, Engine.reports, at_, returned, Option.elim, List.map_nil, List.count_nil]
    omega
  | ack at_ committing committed => exact wrote at_ committing committed
  | commit at_ committing committed => exact wrote at_ committing committed
  | finish at_ committing =>
    rw [count_flatMap_erase Task.unwritten x at_]
    simp [Task.unwritten, committing, Engine.concludes, Engine.reports]
  | _ => simp [Engine.concludes, Engine.reports]

/-- A task holds what its handler came back with, the outcome that was resolved from it, and
messages of its own. -/
def Phase.Sound (job : Job) : Phase → Prop
  | .running => True
  | .returned err _ => ∃ behaviour, err = job.invoke behaviour
  | .committing err _ outcome rest => rest ⊆ job.msgs ∧ ∃ behaviour ctxDone stopping,
      err = job.invoke behaviour ∧ outcome = resolveOutcome ctxDone stopping (job.invoke behaviour)

theorem TaskMove.sound {t : Task} {event : TaskEvent} {phase : Phase} (move : TaskMove e t event phase)
    (sound : t.phase.Sound t.job) : phase.Sound t.job := by
  cases move with
  | returned => exact ⟨_,rfl⟩
  | resolved returned =>
    rw [returned] at sound
    obtain ⟨behaviour,rfl⟩ := sound
    exact ⟨List.Subset.refl _,behaviour,e.ctxDone,e.stopping,rfl,rfl⟩
  | committed committing =>
    rw [committing] at sound
    exact ⟨List.Subset.trans (List.subset_cons_self _ _) sound.1,sound.2⟩

theorem Stepped.sound (stepped : Stepped e event e' call) (sound : ∀ t ∈ e.tasks, t.phase.Sound t.job) :
    ∀ t ∈ e'.tasks, t.phase.Sound t.job := by
  intro t member
  cases stepped.tasks member with
  | kept kept => exact sound t kept
  | launched => trivial
  | moved at_ move => exact move.sound (sound _ (List.mem_of_getElem? at_))

/-- What a handler did, and what the engine read while it ended the attempt. -/
structure Ending where
  behaviour : Behaviour
  ctxDone : Bool
  stopping : Bool
  clock : Time
  nextDelay : Duration

/-- A conclusion is about a message of its job, and both its report and its write follow from
one ending. -/
structure Conclusion.From (cfg : EngineConfig) (w : Conclusion) (end_ : Ending) : Prop where
  message : w.message ∈ w.job.msgs
  reported : w.reported = resolveOutcome end_.ctxDone end_.stopping (w.job.invoke end_.behaviour)
  written : w.job.concludes cfg.batchAcker cfg.workerID end_.ctxDone end_.stopping end_.behaviour w.message
    end_.clock end_.nextDelay = some w.write

theorem Engine.concludes_from (sound : ∀ t ∈ e.tasks, t.phase.Sound t.job) {w : Conclusion}
    (member : w ∈ e.concludes event) : ∃ end_, w.From e.cfg end_ := by
  unfold Engine.concludes at member
  split at member
  · rename_i i clock nextDelay
    cases at_ : e.tasks[i]? with
    | none => simp [at_] at member
    | some t =>
      have own := sound t (List.mem_of_getElem? at_)
      rw [at_, Option.elim] at member
      split at member
      · rename_i err late outcome m rest committing
        rw [committing] at own
        obtain ⟨inside,behaviour,ctxDone,stopping,rfl,rfl⟩ := own
        obtain ⟨write,commits,rfl⟩ := List.mem_map.mp member
        refine ⟨⟨behaviour,ctxDone,stopping,clock,nextDelay⟩,inside List.mem_cons_self,rfl,?_⟩
        rw [Option.mem_toList] at commits
        simpa only [Engine.commits, at_, Option.bind_some, committing, Job.concludes] using commits
      · cases member
  · cases member

end

/-! ### Runs -/

/-- In every run the outcomes reported are, message by message, those of the attempts written
for and of those still to be written for; and the report of an attempt matches its write
exactly when the attempt does not fail for good. -/
theorem reports_match_iff (cfg : EngineConfig) (trace : List Event) (e : Engine)
    (run : engineSystem.run (newEngine cfg) trace = some e) :
    (engineSystem.log Engine.reports (newEngine cfg) trace).Perm
      ((engineSystem.log Engine.concludes (newEngine cfg) trace).map Conclusion.report ++ e.unwritten) ∧
    ∀ w ∈ engineSystem.log Engine.concludes (newEngine cfg) trace, ∃ end_, w.From cfg end_ ∧
      (Matches w.reported w.write ↔
        Lasting w.message w.job.reg.cfg (end_.ctxDone && end_.stopping) (w.job.invoke end_.behaviour)) := by
  constructor
  · rw [System.log_hom (List.map Conclusion.report) rfl (fun _ _ => List.map_append)]
    apply System.log_perm Engine.unwritten _ _ _ run
    intro e event e' step
    obtain ⟨call,stepped⟩ := engineSystem_stepped step
    rw [List.perm_iff_count]
    intro x
    have counted := stepped.reported x
    simp only [List.count_append]
    omega
  · intro w member
    obtain ⟨end_,from_⟩ := System.log_forall (fun e => e.cfg = cfg ∧ ∀ t ∈ e.tasks, t.phase.Sound t.job)
      (fun w => ∃ end_, Conclusion.From cfg w end_) (by
        rintro e event e' ⟨rfl,sound⟩ step
        obtain ⟨call,stepped⟩ := engineSystem_stepped step
        exact ⟨⟨stepped.cfg,stepped.sound sound⟩,fun w => Engine.concludes_from sound⟩)
      run ⟨rfl,fun t impossible => by cases impossible⟩ w member
    refine ⟨end_,from_,?_⟩
    rw [from_.reported]
    exact matches_iff from_.written

/-! ### Two attempts -/

/-- The handler fails on the only attempt, or on the first of several. -/
def failing (m : InboundMessage) : List Event :=
  [.poll, .claimed [m] [], .dispatch, .dispatch, .task 0 (.returns (.returns (some (.text "boom")))),
    .task 0 .resolve, .task 0 (.commit 9 1)]

theorem reports_match_iff_retrying : ∃ e, ∃ w : Conclusion,
    engineSystem.run (newEngine mailer) (failing { lastAttempt with maxAttempts := 2 }) = some e ∧
    engineSystem.log Engine.concludes (newEngine mailer) (failing { lastAttempt with maxAttempts := 2 }) = [w] ∧
    (engineSystem.log Engine.reports (newEngine mailer) (failing { lastAttempt with maxAttempts := 2 })).Perm
      ([w.report] ++ e.unwritten) ∧
    Matches w.reported w.write ∧ ∃ end_, w.From mailer end_ ∧
      Lasting w.message w.job.reg.cfg (end_.ctxDone && end_.stopping) (w.job.invoke end_.behaviour) := by
  obtain ⟨perm,each⟩ := reports_match_iff mailer (failing { lastAttempt with maxAttempts := 2 }) _ rfl
  refine ⟨_,_,rfl,rfl,perm,matches_iff_eq.mpr rfl,?_⟩
  obtain ⟨end_,from_,same⟩ := each _ (List.mem_singleton_self _)
  exact ⟨end_,from_,same.mp (matches_iff_eq.mpr rfl)⟩

/-- The message goes to DEAD, and the metrics hear of a retry. -/
theorem reports_mismatch : ∃ e, ∃ w : Conclusion,
    engineSystem.run (newEngine mailer) (failing lastAttempt) = some e ∧
    engineSystem.log Engine.concludes (newEngine mailer) (failing lastAttempt) = [w] ∧
    engineSystem.log Engine.reports (newEngine mailer) (failing lastAttempt) = [(lastAttempt, .retry)] ∧
    w.write.outcome = some .dead ∧ ¬Matches w.reported w.write := by
  refine ⟨_,_,rfl,rfl,rfl,rfl,?_⟩
  intro same
  cases (same .retry).mp rfl

end Tickr
