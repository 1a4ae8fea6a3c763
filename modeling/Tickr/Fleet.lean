import Tickr.Engine
import Tickr.PostgresTally
import Tickr.Transition

/-! Any number of engines over one PostgreSQL store. A call of an engine is executed at
once or stays on its way, to be executed at any later moment or never; an engine may die
between any two of its steps. Everybody else (producers, operators, the reclaimer and the
janitor, workers that are not modelled) acts on the store directly. -/
namespace Tickr

open Transition Postgres

variable {pg : Postgres.Config}

/-- A handler invocation that came back: what it was given, and its result after
`safeInvoke` or `safeInvokeBatch`. -/
structure Invocation where
  msgs : List InboundMessage
  err : Option GoError

/-- `tallies` and `returned` only record what happened. -/
structure Fleet (pg : Postgres.Config) where
  store : Store pg
  engines : List Engine
  wire : List Call
  tallies : Uuid → Tally
  returned : List Invocation

def newFleet : Fleet pg := ⟨Store.empty, [], [], fun _ => ⟨0, 0⟩, []⟩

/-- `sent = none` leaves the engine's call on the wire. -/
inductive FleetLabel where
  | start (cfg : EngineConfig)
  | crash (i : Nat)
  | operate (env : Env) (op : Operation)
  | arrive (j : Nat) (env : Env)
  | engine (i : Nat) (event : Event) (sent : Option Env)

def Fleet.exec (f : Fleet pg) (env : Env) (call : Call) : Fleet pg :=
  { f with
    store := (Postgres.exec f.store env call).1
    tallies := fun k => (f.tallies k).count k call (Postgres.exec f.store env call).2
      (f.store.row k ≠ (Postgres.exec f.store env call).1.row k) }

/-- A claim that came back brought what the storage returned. -/
def Event.answeredBy : Event → Reply → Bool
  | .claimed msgs _, .messages out => msgs = out
  | .claimed _ _, _ => false
  | _, _ => true

/-- Only a claim that came back needs its answer. -/
def Event.unanswered : Event → Bool
  | .claimed _ _ => false
  | _ => true

def Engine.invocation (e : Engine) : Event → Option Invocation
  | .task i (.returns behaviour) => e.tasks[i]?.map fun t => ⟨t.job.msgs, t.job.invoke behaviour⟩
  | _ => none

/-- Engine `i` moves from `e` to `e'`. -/
def Fleet.move (f : Fleet pg) (i : Nat) (e e' : Engine) (event : Event) : Fleet pg :=
  { f with engines := f.engines.set i e', returned := f.returned ++ (e.invocation event).toList }

def Fleet.send (f : Fleet pg) (event : Event) : Option Call → Option Env → Option (Fleet pg)
  | none, _ => some f
  | some call, some env =>
    if event.answeredBy (Postgres.exec f.store env call).2 then some (f.exec env call) else none
  | some call, none => if event.unanswered then some { f with wire := f.wire ++ [call] } else none

def Fleet.step (f : Fleet pg) : FleetLabel → Option (Fleet pg)
  | .start cfg => some { f with engines := f.engines ++ [newEngine cfg] }
  | .crash i => some { f with engines := f.engines.eraseIdx i }
  | .operate env op => some (f.exec env op.call)
  | .arrive j env => f.wire[j]?.map fun call => { f with wire := f.wire.eraseIdx j }.exec env call
  | .engine i event sent =>
    f.engines[i]?.bind fun e => (e.step event).bind fun result =>
      (f.move i e result.1 event).send event result.2 sent

def fleetSystem (pg : Postgres.Config) : System (Fleet pg) FleetLabel := ⟨Fleet.step⟩

/-- One constructor for each path through `Fleet.step`. -/
inductive Advanced (f : Fleet pg) : FleetLabel → Fleet pg → Prop where
  | start : Advanced f (.start cfg) { f with engines := f.engines ++ [newEngine cfg] }
  | crash : Advanced f (.crash i) { f with engines := f.engines.eraseIdx i }
  | operate : Advanced f (.operate env op) (f.exec env op.call)
  | arrive : f.wire[j]? = some call →
      Advanced f (.arrive j env) ({ f with wire := f.wire.eraseIdx j }.exec env call)
  | silent : f.engines[i]? = some e → Stepped e event e' none →
      Advanced f (.engine i event sent) (f.move i e e' event)
  | answered : f.engines[i]? = some e → Stepped e event e' (some call) →
      event.answeredBy (Postgres.exec f.store env call).2 = true →
      Advanced f (.engine i event (some env)) ((f.move i e e' event).exec env call)
  | delayed : f.engines[i]? = some e → Stepped e event e' (some call) → event.unanswered = true →
      Advanced f (.engine i event none) { f.move i e e' event with wire := f.wire ++ [call] }

theorem Fleet.step_advanced {f f' : Fleet pg} {label : FleetLabel} (step : f.step label = some f') :
    Advanced f label f' := by
  cases label with
  | start cfg => cases step; exact .start
  | crash i => cases step; exact .crash
  | operate env op => cases step; exact .operate
  | arrive j env =>
    obtain ⟨call,there,rfl⟩ := Option.map_eq_some_iff.mp step
    exact .arrive there
  | engine i event sent =>
    obtain ⟨e,at_,rest⟩ := Option.bind_eq_some_iff.mp step
    obtain ⟨⟨e',call⟩,stepped,sending⟩ := Option.bind_eq_some_iff.mp rest
    have moved := Engine.step_stepped stepped
    cases call with
    | none => cases sending; exact .silent at_ moved
    | some call =>
      cases sent with
      | some env =>
        simp only [Fleet.send] at sending
        split at sending
        · cases sending; exact .answered at_ moved ‹_›
        · cases sending
      | none =>
        simp only [Fleet.send] at sending
        split at sending
        · cases sending; exact .delayed at_ moved ‹_›
        · cases sending

/-! ### What engines ask of the store -/

/-- The calls that an engine issues: it never inserts, requeues, reclaims or purges. -/
def Call.issued : Call → Bool
  | .claim _ | .succeed _ _ _ | .batchSucceed _ | .fail _ | .releaseShutdown _ _ _ _ | .extend _ _ _ => true
  | _ => false

section
variable {e e' : Engine} {event : Event} {call : Option Call}

theorem Engine.flushed_eq {c : Call} (flushed : e.flushed = some c) : c = .batchSucceed e.buf := by
  unfold Engine.flushed at flushed
  split at flushed
  · cases flushed
  · exact (Option.some.inj flushed).symm

theorem Stepped.issued {c : Call} (stepped : Stepped e event e' call) (calls : call = some c) :
    c.issued = true := by
  cases stepped with
  | flush | exit => rw [Engine.flushed_eq calls]; rfl
  | commit _ _ committed =>
    cases calls
    cases commitOutcome_committed committed <;> rfl
  | _ => cases calls <;> rfl

theorem Event.received_of_unanswered (unanswered : event.unanswered = true) : event.received = [] := by
  cases event with
  | claimed => cases unanswered
  | _ => rfl

theorem Stepped.received_of_silent (stepped : Stepped e event e' call) (silent : call = none) :
    event.received = [] := by
  cases stepped with
  | claimed => cases silent
  | _ => rfl

/-- What has just been handed to the engine is what the storage returned. -/
theorem Stepped.received_of_answered {s : Store pg} {env : Env} {c : Call} (stepped : Stepped e event e' call)
    (calls : call = some c) (answered : event.answeredBy (Postgres.exec s env c).2 = true) :
    event.received = [] ∨ ∃ p, c = .claim p ∧ event.received = (Postgres.claim s env p).2 := by
  cases stepped with
  | claimed =>
    cases calls
    exact Or.inr ⟨_,rfl,of_decide_eq_true answered⟩
  | _ => exact Or.inl rfl

end

theorem exec_keeps_absent {s : Store pg} {env : Env} {call : Call} {k : Uuid} (issued : call.issued = true)
    (absent : s.row k = none) : (Postgres.exec s env call).1.row k = none := by
  have step := exec_row s env call k
  rw [absent] at step
  cases found : (Postgres.exec s env call).1.row k with
  | none => rfl
  | some r =>
    rw [found] at step
    cases step <;> cases issued

end Tickr
