import Tickr.Engine
import Tickr.Transition

/-! The extender of one attempt. At each tick it asks the storage to extend the lease of
every message of the attempt; a refusal cancels the attempt's context and ends the loop, an
error is logged and left to the next tick. -/
namespace Tickr

open Transition

inductive ExtendResult where
  | extended
  | refused
  | errored
  deriving DecidableEq, Repr

/-- `leases` are the ends of the last leases granted, message by message: first those of the
claim. The loop of a single handler is that of a batch of one. -/
structure ExtendLoop where
  lease : Duration
  leases : List Time
  ctxDone : Bool
  handlerDone : Bool
  exited : Bool
  deriving DecidableEq, Repr

/-- `expire` is the end of the attempt's context for any other reason: its own deadline, or
the worker's context. -/
inductive ExtendEvent where
  | tick (clock : Time) (answer : Nat → ExtendResult)
  | expire
  | finish
  | leave

def extendBatchLoop (cfg : EngineConfig) (claimed : List Time) : ExtendLoop :=
  ⟨leaseOrDefault cfg.lease, claimed, false, false, false⟩

def extendLoop (cfg : EngineConfig) (claimed : Time) : ExtendLoop := extendBatchLoop cfg [claimed]

/-- One pass over the messages: the leases after it, and whether it was cut short by a
refusal. -/
def extendAll (until_ : Time) : (Nat → ExtendResult) → List Time → List Time × Bool
  | _, [] => ([], false)
  | answer, end_ :: rest =>
    match answer 0 with
    | .refused => (end_ :: rest, true)
    | .errored => let later := extendAll until_ (fun i => answer (i + 1)) rest; (end_ :: later.1, later.2)
    | .extended => let later := extendAll until_ (fun i => answer (i + 1)) rest; (until_ :: later.1, later.2)

def ExtendLoop.step (x : ExtendLoop) : ExtendEvent → Option ExtendLoop
  | .tick clock answer =>
    if x.exited then none
    else
      let pass := extendAll (clock + x.lease) answer x.leases
      some { x with leases := pass.1, ctxDone := x.ctxDone || pass.2, exited := pass.2 }
  | .expire => some { x with ctxDone := true }
  | .finish => some { x with handlerDone := true }
  | .leave => if (x.ctxDone || x.handlerDone) && !x.exited then some { x with exited := true } else none

def extendSystem : System ExtendLoop ExtendEvent := ⟨ExtendLoop.step⟩

/-- The last lease granted for some message of the attempt has ended. -/
def Lapsed (clock : Time) (x : ExtendLoop) : Prop := ∃ end_ ∈ x.leases, end_ < clock

/-! ### One pass -/

section
variable {until_ : Time} {answer : Nat → ExtendResult} {leases : List Time}

theorem extendAll_refused : (extendAll until_ answer leases).2 = true ↔
    ∃ i < leases.length, answer i = .refused := by
  induction leases generalizing answer with
  | nil => simp [extendAll]
  | cons end_ rest ih =>
    rw [List.length_cons, Nat.exists_lt_succ_left]
    cases first : answer 0 with
    | refused => simp [extendAll, first]
    | errored | extended => simp [extendAll, first, ih]

/-- A pass that is not cut short leaves a lease that has ended only where Extend errors. -/
theorem lapsed_extendAll {clock : Time} (whole : (extendAll until_ answer leases).2 = false)
    (renewed : clock ≤ until_) :
    (∃ end_ ∈ (extendAll until_ answer leases).1, end_ < clock) ↔
      ∃ i old, leases[i]? = some old ∧ old < clock ∧ answer i = .errored := by
  induction leases generalizing answer with
  | nil => simp [extendAll]
  | cons old rest ih =>
    rw [← Nat.or_exists_add_one]
    cases first : answer 0 with
    | refused => simp [extendAll, first] at whole
    | errored =>
      simp only [extendAll, first] at whole
      simp [extendAll, first, ← ih whole]
    | extended =>
      simp only [extendAll, first] at whole
      simp [extendAll, first, ← ih whole, Int.not_lt.mpr renewed]

end

/-! ### Runs -/

theorem run_lease {cfg : EngineConfig} {claimed : List Time} {events : List ExtendEvent} {x : ExtendLoop}
    (run : extendSystem.run (extendBatchLoop cfg claimed) events = some x) : x.lease = leaseOrDefault cfg.lease := by
  apply System.run_invariant (fun x : ExtendLoop => x.lease = leaseOrDefault cfg.lease) _ run rfl
  intro x event next same step
  cases event with
  | tick clock answer =>
    simp only [extendSystem, ExtendLoop.step] at step
    split at step
    · cases step
    · cases step; exact same
  | expire | finish => cases step; exact same
  | leave =>
    simp only [extendSystem, ExtendLoop.step] at step
    split at step
    · cases step; exact same
    · cases step

/-- At every tick of every run, a lease that has ended finds the attempt cancelled exactly
when no Extend errors for a message whose lease has ended before, unless another message of
the attempt is refused at this tick or the context had ended already. -/
theorem lapse_cancels_iff (cfg : EngineConfig) (claimed : List Time) (events : List ExtendEvent) (x next : ExtendLoop)
    (clock : Time) (answer : Nat → ExtendResult)
    (run : extendSystem.run (extendBatchLoop cfg claimed) events = some x)
    (tick : extendSystem.step x (.tick clock answer) = some next) :
    (Lapsed clock next → next.ctxDone = true) ↔
      ∀ i end_, x.leases[i]? = some end_ → end_ < clock → answer i = .errored →
        x.ctxDone = true ∨ ∃ j < x.leases.length, answer j = .refused := by
  simp only [extendSystem, ExtendLoop.step] at tick
  split at tick
  · cases tick
  · cases tick
    have refused := @extendAll_refused (clock + x.lease) answer x.leases
    have renewed : clock ≤ clock + x.lease := by
      have positive := leaseOrDefault_pos cfg.lease
      rw [← run_lease run] at positive
      exact Int.le_add_of_nonneg_right (Int.le_of_lt positive)
    by_cases stopped : x.ctxDone = true ∨ (extendAll (clock + x.lease) answer x.leases).2 = true
    · refine iff_of_true (fun _ => by simpa using stopped) fun _ _ _ _ _ => ?_
      rwa [← refused]
    · have whole := Bool.eq_false_iff.mpr (not_or.mp stopped).2
      rw [← refused]
      simp only [Bool.or_eq_true, stopped, imp_false, Lapsed, lapsed_extendAll whole renewed, not_exists, not_and]

/-! ### An outage -/

/-- Two messages whose leases end at 30 s, with a tick every ten seconds. -/
def outage (last : Nat → ExtendResult) : List ExtendEvent :=
  [.tick (10 * Duration.second) fun _ => .errored, .tick (20 * Duration.second) fun _ => .errored,
    .tick (30 * Duration.second) last]

def attempted : ExtendLoop := extendBatchLoop ⟨newRegistry, "w", 0, 0, 0, true⟩ [30 * Duration.second, 30 * Duration.second]

/-- The storage is reached again in time, and one of the messages turns out to be lost later. -/
theorem lapse_cancels_iff_reached : ∃ x next,
    extendSystem.run attempted (outage fun _ => .extended) = some x ∧
    extendSystem.step x (.tick (61 * Duration.second) fun i => if i = 0 then .errored else .refused) = some next ∧
    Lapsed (61 * Duration.second) next ∧ next.ctxDone = true := by
  have lapsed : Lapsed (61 * Duration.second) ⟨30 * Duration.second,
      [60 * Duration.second, 60 * Duration.second], true, false, true⟩ := ⟨60 * Duration.second,by simp,by decide⟩
  refine ⟨_,_,rfl,rfl,lapsed,?_⟩
  refine (lapse_cancels_iff ⟨newRegistry, "w", 0, 0, 0, true⟩ [30 * Duration.second, 30 * Duration.second]
    (outage fun _ => .extended) _ _ (61 * Duration.second) (fun i => if i = 0 then .errored else .refused) rfl rfl).mpr
    ?_ lapsed
  intro i end_ _ _ _
  exact Or.inr ⟨1,by decide,rfl⟩

/-- The leases have ended, and the handler goes on. -/
theorem lapse_unnoticed : ∃ x next,
    extendSystem.run attempted (outage fun _ => .errored) = some x ∧
    extendSystem.step x (.tick (40 * Duration.second) fun _ => .errored) = some next ∧
    Lapsed (40 * Duration.second) next ∧ next.ctxDone = false :=
  ⟨_,_,rfl,rfl,⟨30 * Duration.second,List.mem_cons_self,by decide⟩,rfl⟩

end Tickr
