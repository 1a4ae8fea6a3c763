import Mathlib.Data.List.Count
import Tickr.EngineShutdown

/-! The pace of the run loop. Between two polls the loop waits in a select for the worker's
context, its timer and the channel of the listener. The listener forwards notifications to
a channel of one place and closes it when it exits; a closed channel can be received from
again and again. -/
namespace Tickr

/-- A timer whose expiry has not been received when it is stopped or reset forgets it. -/
inductive Timer where
  | armed (delay : Duration)
  | fired
  | stopped
  deriving DecidableEq, Repr

/-- The channel that `Listen` returns. -/
structure NotifyChannel where
  pending : Bool
  closed : Bool
  deriving DecidableEq, Repr

/-- The run loop with its timer. `claimed` is what the last `pollOnce` returned, and a
worker without a listener has no channel. -/
structure Poller where
  engine : Engine
  pollInterval : Duration
  pollMaxBackoff : Duration
  currentDelay : Duration
  claimed : Nat
  timer : Timer
  notify : Option NotifyChannel

def pollIntervalOrDefault (d : Duration) : Duration := if d ≤ 0 then 100 * Duration.millisecond else d

def pollMaxBackoffOrDefault (d : Duration) : Duration := if d ≤ 0 then 2 * Duration.second else d

def newPoller (cfg : EngineConfig) (pollInterval pollMaxBackoff : Duration) (listening : Bool) : Poller where
  engine := newEngine cfg
  pollInterval := pollIntervalOrDefault pollInterval
  pollMaxBackoff := pollMaxBackoffOrDefault pollMaxBackoff
  currentDelay := pollIntervalOrDefault pollInterval
  claimed := 0
  timer := .armed (pollIntervalOrDefault pollInterval)
  notify := if listening then some ⟨false, false⟩ else none

/-- A step of the engine other than the one that leaves the select, an expiry of the
timer, a step of the listener, or the receive that ends the select. -/
inductive PollLabel where
  | engine (event : Event)
  | expire
  | signal
  | hangUp
  | timer
  | notified
  | hungUp
  deriving DecidableEq, Repr

def Loop.atTop : Loop → Bool
  | .top => true
  | _ => false

def Loop.isWaiting : Loop → Bool
  | .waiting => true
  | _ => false

def Loop.isDraining : Loop → Bool
  | .draining => true
  | _ => false

def Poller.backoff (p : Poller) : Duration :=
  if 0 < p.claimed then p.pollInterval
  else if p.pollMaxBackoff < 2 * p.currentDelay then p.pollMaxBackoff
  else 2 * p.currentDelay

def Event.claims (claimed : Nat) : Event → Nat
  | .poll => 0
  | .claimed msgs _ => msgs.length
  | _ => claimed

/-- What the loop does around a step of the engine: it resets the timer when it enters the
select and stops it when it leaves for `drain`. -/
def Poller.follow (p : Poller) (event : Event) (e : Engine) : Poller :=
  let q := { p with claimed := event.claims p.claimed }
  if e.loop.isWaiting && !p.engine.loop.isWaiting then
    { q with engine := e, currentDelay := q.backoff, timer := .armed q.backoff }
  else if e.loop.isDraining && p.engine.loop.isWaiting then { q with engine := e, timer := .stopped }
  else { q with engine := e }

def Poller.wake (p : Poller) : Option Engine := (p.engine.step .wake).map Prod.fst

def Poller.step (p : Poller) : PollLabel → Option Poller
  | .engine event =>
    if event = .wake then none else (p.engine.step event).map fun r => p.follow event r.1
  | .expire =>
    match p.timer with
    | .armed _ => some { p with timer := .fired }
    | _ => none
  | .signal =>
    match p.notify with
    | some ch => if ch.closed then none else some { p with notify := some { ch with pending := true } }
    | none => none
  | .hangUp =>
    match p.notify with
    | some ch => if ch.closed then none else some { p with notify := some { ch with closed := true } }
    | none => none
  | .timer =>
    if p.timer = .fired then p.wake.map fun engine => { p with engine, timer := .stopped } else none
  | .notified =>
    match p.notify with
    | some ch =>
      if ch.pending then
        p.wake.map fun engine =>
          { p with
            engine
            timer := .stopped
            currentDelay := p.pollInterval
            notify := some { ch with pending := false } }
      else none
    | none => none
  | .hungUp =>
    match p.notify with
    | some ch =>
      if ch.closed && !ch.pending then
        p.wake.map fun engine => { p with engine, timer := .stopped, currentDelay := p.pollInterval }
      else none
    | none => none

def pollSystem : Transition.System Poller PollLabel := ⟨Poller.step⟩

/-- The listener hangs up only once the worker's context is cancelled. -/
def Listening (p : Poller) (label : PollLabel) : Prop := label = .hangUp → p.engine.ctxDone = true

instance (p : Poller) (label : PollLabel) : Decidable (Listening p label) :=
  inferInstanceAs (Decidable (_ → _))

/-! ### What a step can do -/

/-- The loop after the receive that ends its select. -/
def Poller.woken (p : Poller) : Engine := { p.engine with loop := .top }

/-- One constructor for each path through `Poller.step`. -/
inductive Polled (p : Poller) : PollLabel → Poller → Prop where
  | engine : event ≠ .wake → p.engine.step event = some (e, call) → Polled p (.engine event) (p.follow event e)
  | expire : Polled p .expire { p with timer := .fired }
  | signal : p.notify = some ch → Polled p .signal { p with notify := some { ch with pending := true } }
  | hangUp : p.notify = some ch → Polled p .hangUp { p with notify := some { ch with closed := true } }
  | timer : p.timer = .fired → Polled p .timer { p with engine := p.woken, timer := .stopped }
  | notified : p.notify = some ch →
      Polled p .notified { p with
        engine := p.woken
        timer := .stopped
        currentDelay := p.pollInterval
        notify := some { ch with pending := false } }
  | hungUp : p.notify = some ch → ch.closed = true →
      Polled p .hungUp { p with engine := p.woken, timer := .stopped, currentDelay := p.pollInterval }

variable {p next : Poller} {e e' : Engine} {event : Event} {call : Option Call}

/-- Only the wake-up leads to the top of the loop. -/
theorem Stepped.atTop (stepped : Stepped e event e' call) (other : event ≠ .wake)
    (top : e'.loop.atTop = true) : e.loop.atTop = true ∧ event ≠ .poll := by
  cases stepped with
  | wake => exact absurd rfl other
  | idle | poll | notice | claimed | claimFailed | dispatched | noHandler | hold | launch | launchHeld | released
  | release | abandon | abandonHeld | stop => cases top
  | _ => exact ⟨top,by simp⟩

theorem Engine.step_poll {r : Engine × Option Call} (step : e.step .poll = some r) :
    e.loop.atTop = true ∧ e.ctxDone = false ∧ r.1.loop.atTop = false := by
  simp only [Engine.step] at step
  split at step
  · rename_i top
    split at step
    · cases step
    · rename_i live
      refine ⟨by rw [top]; rfl,Bool.eq_false_iff.mpr live,?_⟩
      split at step <;> cases step <;> rfl
  · cases step

theorem Poller.wake_eq {engine : Engine} (woken : p.wake = some engine) : engine = p.woken := by
  obtain ⟨⟨after,call⟩,step,rfl⟩ := Option.map_eq_some_iff.mp woken
  cases Engine.step_stepped step with
  | wake waiting => rfl

/-- What the loop does around a step of the engine, field by field. -/
theorem Poller.follow_spec (p : Poller) (event : Event) (e : Engine) :
    (p.follow event e).engine = e ∧ (p.follow event e).notify = p.notify ∧
    ((p.follow event e).timer = .fired → p.timer = .fired) := by
  unfold Poller.follow
  dsimp only
  split
  · refine ⟨rfl,rfl,?_⟩
    intro fired
    cases fired
  · split
    · refine ⟨rfl,rfl,?_⟩
      intro fired
      cases fired
    · exact ⟨rfl,rfl,id⟩

theorem Poller.step_polled {label : PollLabel} (step : p.step label = some next) : Polled p label next := by
  cases label with
  | engine event =>
    simp only [Poller.step] at step
    split at step
    · cases step
    · rename_i other
      obtain ⟨⟨e,call⟩,stepped,rfl⟩ := Option.map_eq_some_iff.mp step
      exact .engine other stepped
  | expire =>
    simp only [Poller.step] at step
    split at step
    · cases step; exact .expire
    · cases step
  | signal =>
    simp only [Poller.step] at step
    split at step
    · split at step
      · cases step
      · cases step; exact .signal ‹_›
    · cases step
  | hangUp =>
    simp only [Poller.step] at step
    split at step
    · split at step
      · cases step
      · cases step; exact .hangUp ‹_›
    · cases step
  | timer =>
    simp only [Poller.step] at step
    split at step
    · obtain ⟨engine,woken,rfl⟩ := Option.map_eq_some_iff.mp step
      cases Poller.wake_eq woken
      exact .timer ‹_›
    · cases step
  | notified =>
    simp only [Poller.step] at step
    split at step
    · split at step
      · obtain ⟨engine,woken,rfl⟩ := Option.map_eq_some_iff.mp step
        cases Poller.wake_eq woken
        exact .notified ‹_›
      · cases step
    · cases step
  | hungUp =>
    simp only [Poller.step] at step
    split at step
    · split at step
      · rename_i closed
        obtain ⟨engine,woken,rfl⟩ := Option.map_eq_some_iff.mp step
        cases Poller.wake_eq woken
        exact .hungUp ‹_› (Bool.and_eq_true_iff.mp closed).1
      · cases step
    · cases step

/-! ### Accounting -/

/-- The loop is about to poll. -/
def Poller.asking (p : Poller) : Bool := p.engine.loop.atTop && !p.engine.ctxDone

/-- One poll is due at the top of the loop, and one for an expiry not yet received. -/
def Poller.potential (p : Poller) : Nat := p.asking.toNat + (decide (p.timer = .fired)).toNat

def PollLabel.polls (label : PollLabel) : Nat := if label = .engine .poll then 1 else 0

def PollLabel.prompts (label : PollLabel) : Nat :=
  (if label = .expire then 1 else 0) + if label = .notified then 1 else 0

/-- A closed channel is that of a cancelled worker. -/
def Attended (p : Poller) : Prop := ∀ ch ∈ p.notify, ch.closed = true → p.engine.ctxDone = true

theorem toNat_le_toNat {a b : Bool} (implies : a = true → b = true) : a.toNat ≤ b.toNat := by
  cases a with
  | false => exact Nat.zero_le _
  | true => rw [implies rfl]

theorem engine_paid (attended : Attended p) (other : event ≠ .wake) (stepped : p.engine.step event = some (e, call)) :
    Attended (p.follow event e) ∧ (p.follow event e).potential + (PollLabel.engine event).polls ≤ p.potential := by
  obtain ⟨engine,notify,timer⟩ := p.follow_spec event e
  have cancelled := (Engine.step_stepped stepped).cancelled
  constructor
  · intro ch listed closed
    rw [notify] at listed
    rw [engine]
    exact cancelled (attended ch listed closed)
  · have fired : (decide ((p.follow event e).timer = .fired)).toNat ≤ (decide (p.timer = .fired)).toNat :=
      toNat_le_toNat fun on => decide_eq_true (timer (of_decide_eq_true on))
    simp only [Poller.potential, Poller.asking, engine]
    by_cases polls : event = .poll
    · subst polls
      obtain ⟨top,live,after⟩ := Engine.step_poll stepped
      simp only [after, top, live, PollLabel.polls, if_true, Bool.false_and, Bool.not_false, Bool.and_self,
        Bool.toNat_false, Bool.toNat_true]
      omega
    · have asking : (e.loop.atTop && !e.ctxDone).toNat ≤ (p.engine.loop.atTop && !p.engine.ctxDone).toNat := by
        refine toNat_le_toNat fun on => ?_
        rw [Bool.and_eq_true, Bool.not_eq_true'] at on ⊢
        refine ⟨((Engine.step_stepped stepped).atTop other on.1).1,?_⟩
        by_contra done
        rw [cancelled (Bool.not_eq_false _ |>.mp done)] at on
        cases on.2
      have free : (PollLabel.engine event).polls = 0 := by simp [PollLabel.polls, polls]
      omega

/-- The receive that ends the select takes the loop to its top and forgets the timer. -/
theorem woken_potential (p : Poller) (delay : Duration) (notify : Option NotifyChannel) :
    ({ p with engine := p.woken, timer := .stopped, currentDelay := delay, notify } : Poller).potential =
      (!p.engine.ctxDone).toNat := by
  simp [Poller.potential, Poller.asking, Poller.woken, Loop.atTop]

theorem Polled.paid {label : PollLabel} (polled : Polled p label next) (attended : Attended p)
    (listening : Listening p label) :
    Attended next ∧ next.potential + label.polls ≤ p.potential + label.prompts := by
  have bound := Bool.toNat_le (!p.engine.ctxDone)
  cases polled with
  | engine other stepped =>
    obtain ⟨kept,paid⟩ := engine_paid attended other stepped
    exact ⟨kept,Nat.le_trans paid (Nat.le_add_right _ _)⟩
  | expire =>
    refine ⟨attended,?_⟩
    simp [Poller.potential, Poller.asking, PollLabel.polls, PollLabel.prompts]
  | signal listed =>
    refine ⟨?_,Nat.le_refl _⟩
    intro ch same closed
    cases same
    exact attended _ listed closed
  | hangUp => exact ⟨fun _ _ _ => listening rfl,Nat.le_refl _⟩
  | timer fired =>
    refine ⟨attended,?_⟩
    have due : p.potential = p.asking.toNat + 1 := by simp [Poller.potential, fired]
    rw [woken_potential, due]
    simp only [PollLabel.polls, PollLabel.prompts, reduceCtorEq, if_false]
    omega
  | notified listed =>
    constructor
    · intro ch same closed
      cases same
      exact attended _ listed closed
    · rw [woken_potential]
      simp only [PollLabel.polls, PollLabel.prompts, reduceCtorEq, if_false, if_true]
      omega
  | hungUp listed closed =>
    have done := attended _ listed closed
    refine ⟨fun _ _ _ => done,?_⟩
    rw [woken_potential, done]
    exact Nat.zero_le _

/-! ### Backoff -/

/-- The delays that the loop may wait for. -/
def Poller.allows (p : Poller) (delay : Duration) : Prop :=
  min p.pollInterval p.pollMaxBackoff ≤ delay ∧ delay ≤ max p.pollInterval p.pollMaxBackoff

structure Paced (p : Poller) : Prop where
  positive : 0 < p.pollInterval ∧ 0 < p.pollMaxBackoff
  current : p.allows p.currentDelay
  timer : ∀ delay, p.timer = .armed delay → p.allows delay

theorem Poller.allows_interval (p : Poller) : p.allows p.pollInterval :=
  ⟨Int.min_le_left _ _,Int.le_max_left _ _⟩

theorem doubled_bounds {interval backoff current : Int} (positive : 0 < interval ∧ 0 < backoff)
    (low : min interval backoff ≤ current) (within : 2 * current ≤ backoff) :
    min interval backoff ≤ 2 * current ∧ 2 * current ≤ max interval backoff := by
  omega

theorem Paced.backoff (paced : Paced p) (claimed : Nat) : p.allows { p with claimed }.backoff := by
  unfold Poller.backoff
  split
  · exact p.allows_interval
  · split
    · exact ⟨Int.min_le_right _ _,Int.le_max_right _ _⟩
    · rename_i within
      exact doubled_bounds paced.positive paced.current.1 (Int.not_lt.mp within)

theorem Polled.paced {label : PollLabel} (polled : Polled p label next) (paced : Paced p) :
    Paced next ∧ next.pollInterval = p.pollInterval ∧ next.pollMaxBackoff = p.pollMaxBackoff := by
  have backoff := paced.backoff
  obtain ⟨positive,current,timer⟩ := paced
  cases polled with
  | engine =>
    unfold Poller.follow
    dsimp only
    split
    · refine ⟨⟨positive,backoff _,?_⟩,rfl,rfl⟩
      intro delay armed
      cases armed
      exact backoff _
    · split
      · exact ⟨⟨positive,current,fun _ impossible => by cases impossible⟩,rfl,rfl⟩
      · exact ⟨⟨positive,current,timer⟩,rfl,rfl⟩
  | expire | timer => exact ⟨⟨positive,current,fun _ impossible => by cases impossible⟩,rfl,rfl⟩
  | signal | hangUp => exact ⟨⟨positive,current,timer⟩,rfl,rfl⟩
  | notified | hungUp =>
    exact ⟨⟨positive,p.allows_interval,fun _ impossible => by cases impossible⟩,rfl,rfl⟩

/-! ### A closed channel -/

/-- The loop waits on a channel that the listener has closed and that holds no value. -/
structure Deserted (p : Poller) : Prop where
  waiting : p.engine.loop = .waiting
  live : p.engine.ctxDone = false
  closed : p.notify = some ⟨false, true⟩

/-- The loop follows the engine through any of its own steps. -/
theorem Poller.run_events (events : List Event) (others : ∀ event ∈ events, event ≠ .wake)
    (steps : engineSystem.run p.engine events = some e) :
    ∃ next, pollSystem.run p (events.map .engine) = some next ∧ next.engine = e ∧ next.notify = p.notify := by
  induction events generalizing p with
  | nil =>
    cases steps
    exact ⟨p,rfl,rfl,rfl⟩
  | cons event rest ih =>
    obtain ⟨_,first,later⟩ := Transition.System.run_cons.mp steps
    obtain ⟨⟨middle,call⟩,stepped,rfl⟩ := Option.map_eq_some_iff.mp first
    obtain ⟨engine,notify,_⟩ := p.follow_spec event middle
    have follows : p.step (.engine event) = some (p.follow event middle) := by
      simp [Poller.step, others event List.mem_cons_self, stepped]
    obtain ⟨next,run,reached,kept⟩ := @ih (p.follow event middle)
      (fun other member => others other (List.mem_cons_of_mem _ member)) (by rw [engine]; exact later)
    exact ⟨next,Transition.System.run_cons.mpr ⟨_,follows,run⟩,reached,kept.trans notify⟩

/-- A poll that finds nothing. -/
theorem Engine.empty_poll (top : e.loop = .top) (live : e.ctxDone = false) :
    ∃ events, engineSystem.run e events = some { e with loop := .waiting } ∧
      (∀ event ∈ events, event ≠ .wake) ∧ events.count .poll = 1 := by
  by_cases idle : e.stopping = true ∨ e.cfg.registry.eventTypes = []
  · refine ⟨[.poll],?_,by simp,rfl⟩
    simp [Transition.System.run, engineSystem, Engine.step, top, live, idle]
  · refine ⟨[.poll,.claimed [] [],.dispatch],?_,by simp,rfl⟩
    have order : ([] : List String).isPerm [] = true := rfl
    simp [Transition.System.run, engineSystem, Engine.step, top, live, idle, batchTypes, plan, Engine.dispatch, order]

/-- One round through the loop. -/
theorem Deserted.round (deserted : Deserted p) :
    ∃ trace next, pollSystem.run p trace = some next ∧ Deserted next ∧
      trace.count (.engine .poll) = 1 ∧ trace.count .expire = 0 ∧ trace.count .notified = 0 := by
  obtain ⟨waiting,live,closed⟩ := deserted
  have woken : p.wake = some { p.engine with loop := .top } := by simp [Poller.wake, Engine.step, waiting]
  have receive : p.step .hungUp = some { p with
      engine := { p.engine with loop := .top }, timer := .stopped, currentDelay := p.pollInterval } := by
    simp [Poller.step, closed, woken]
  obtain ⟨events,steps,others,once⟩ := @Engine.empty_poll { p.engine with loop := .top } rfl live
  obtain ⟨next,run,engine,notify⟩ := @Poller.run_events { p with
      engine := { p.engine with loop := .top }, timer := .stopped, currentDelay := p.pollInterval } _ events others steps
  refine ⟨.hungUp :: events.map .engine,next,Transition.System.run_cons.mpr ⟨_,receive,run⟩,?_,?_,?_,?_⟩
  · exact ⟨by rw [engine],by rw [engine]; exact live,notify.trans closed⟩
  · rw [List.count_cons_of_ne (by simp), List.count_map_of_injective _ _ (fun _ _ => PollLabel.engine.inj), once]
  · simp [List.count_eq_zero]
  · simp [List.count_eq_zero]

/-- A listener that has hung up lets the loop poll without end. -/
theorem Deserted.polls (deserted : Deserted p) (n : Nat) :
    ∃ trace next, pollSystem.run p trace = some next ∧
      trace.count (.engine .poll) = n ∧ trace.count .expire = 0 ∧ trace.count .notified = 0 := by
  induction n generalizing p with
  | zero => exact ⟨[],p,rfl,rfl,rfl,rfl⟩
  | succ n ih =>
    obtain ⟨first,middle,run,still,once,noExpiry,noNotice⟩ := deserted.round
    obtain ⟨rest,final,runs,polls,noExpiries,noNotices⟩ := ih still
    refine ⟨first ++ rest,final,?_,?_,?_,?_⟩
    · rw [Transition.System.run_append, run]
      exact runs
    · rw [List.count_append, once, polls, Nat.add_comm]
    · rw [List.count_append, noExpiry, noExpiries]
    · rw [List.count_append, noNotice, noNotices]

/-! ### Runs -/

theorem total_polls (trace : List PollLabel) :
    Transition.total PollLabel.polls trace = trace.count (.engine .poll) := by
  induction trace with
  | nil => rfl
  | cons label rest ih => simp [Transition.total, PollLabel.polls, List.count_cons, ih, Nat.add_comm]

theorem total_prompts (trace : List PollLabel) :
    Transition.total PollLabel.prompts trace = trace.count .expire + trace.count .notified := by
  induction trace with
  | nil => rfl
  | cons label rest ih =>
    simp only [Transition.total, ih, PollLabel.prompts, List.count_cons, beq_iff_eq]
    omega

section
variable (cfg : EngineConfig) (pollInterval pollMaxBackoff : Duration) (listening : Bool)

theorem newPoller_attended : Attended (newPoller cfg pollInterval pollMaxBackoff listening) := by
  intro ch listed closed
  cases listening with
  | false => cases listed
  | true =>
    cases listed
    cases closed

theorem newPoller_paced : Paced (newPoller cfg pollInterval pollMaxBackoff listening) := by
  have interval : 0 < pollIntervalOrDefault pollInterval := by
    unfold pollIntervalOrDefault
    split
    · decide
    · rename_i positive
      exact Int.not_le.mp positive
  have backoff : 0 < pollMaxBackoffOrDefault pollMaxBackoff := by
    unfold pollMaxBackoffOrDefault
    split
    · decide
    · rename_i positive
      exact Int.not_le.mp positive
  have allowed : (newPoller cfg pollInterval pollMaxBackoff listening).allows (pollIntervalOrDefault pollInterval) :=
    ⟨Int.min_le_left _ _,Int.le_max_left _ _⟩
  refine ⟨⟨interval,backoff⟩,allowed,?_⟩
  intro delay armed
  cases armed
  exact allowed

/-- In every run in which the listener hangs up only once the worker's context is
cancelled, the loop polls at most once more than timer expiries and notifications that it
receives, and its timer is never set to less than the shorter or more than the longer of
the two configured delays. Once the listener has hung up on a waiting live worker, the
loop can go on to any number of polls without either. -/
theorem polls_paced (trace : List PollLabel) (p : Poller)
    (run : pollSystem.run (newPoller cfg pollInterval pollMaxBackoff listening) trace = some p)
    (listens : pollSystem.Along Listening (newPoller cfg pollInterval pollMaxBackoff listening) trace) :
    trace.count (.engine .poll) ≤ 1 + trace.count .expire + trace.count .notified ∧
    (∀ delay, p.timer = .armed delay →
      0 < min (pollIntervalOrDefault pollInterval) (pollMaxBackoffOrDefault pollMaxBackoff) ∧
      min (pollIntervalOrDefault pollInterval) (pollMaxBackoffOrDefault pollMaxBackoff) ≤ delay ∧
      delay ≤ max (pollIntervalOrDefault pollInterval) (pollMaxBackoffOrDefault pollMaxBackoff)) ∧
    ∀ next, p.step .hangUp = some next → ¬Listening p .hangUp → p.engine.loop = .waiting →
      p.notify = some ⟨false, false⟩ → ∀ n, ∃ more final, pollSystem.run next more = some final ∧
        more.count (.engine .poll) = n ∧ more.count .expire = 0 ∧ more.count .notified = 0 := by
  refine ⟨?_,?_,?_⟩
  · have paid := Transition.System.account Listening Attended Poller.potential PollLabel.polls PollLabel.prompts
      (fun p label next attended listens step => (Poller.step_polled step).paid attended listens) run listens
      (newPoller_attended cfg pollInterval pollMaxBackoff listening)
    have first : (newPoller cfg pollInterval pollMaxBackoff listening).potential = 1 := rfl
    rw [total_prompts, total_polls, first] at paid
    omega
  · have paced := Transition.System.run_invariant (fun q : Poller => Paced q ∧
        q.pollInterval = pollIntervalOrDefault pollInterval ∧
        q.pollMaxBackoff = pollMaxBackoffOrDefault pollMaxBackoff) ?_ run
      ⟨newPoller_paced cfg pollInterval pollMaxBackoff listening,rfl,rfl⟩
    · obtain ⟨paced,interval,backoff⟩ := paced
      intro delay armed
      rw [← interval, ← backoff]
      exact ⟨Int.lt_min.mpr paced.positive,paced.timer delay armed⟩
    · rintro q label q' ⟨paced,interval,backoff⟩ step
      obtain ⟨kept,sameInterval,sameBackoff⟩ := (Poller.step_polled step).paced paced
      exact ⟨kept,sameInterval.trans interval,sameBackoff.trans backoff⟩
  · intro next step unattended waiting open_ n
    simp only [Poller.step, open_, Bool.false_eq_true, if_false, Option.some.injEq] at step
    subst step
    have live : p.engine.ctxDone = false := by
      simpa [Listening] using unattended
    exact @Deserted.polls { p with notify := some ⟨false,true⟩ } ⟨waiting,live,rfl⟩ n

end

/-- A poll that finds nothing, from the top of the loop to its select. -/
def fruitless : List PollLabel := [.engine .poll, .engine (.claimed [] []), .engine .dispatch]

/-- The listener loses its connection while the worker waits. -/
def desertedTrace : List PollLabel :=
  fruitless ++ [.hangUp, .hungUp] ++ fruitless ++ [.hungUp] ++ fruitless ++ [.hungUp] ++ fruitless

/-- Four polls, and neither an expiry nor a notification. -/
theorem polls_unpaced :
    (pollSystem.run (newPoller mailer 0 0 true) desertedTrace).isSome = true ∧
      desertedTrace.count (.engine .poll) = 4 ∧ desertedTrace.count .expire = 0 ∧
      desertedTrace.count .notified = 0 := by
  decide +kernel

/-- Two notifications that were coalesced, then the timer. -/
def promptedTrace : List PollLabel :=
  fruitless ++ [.signal, .signal, .notified] ++ fruitless ++ [.expire, .timer] ++ fruitless

theorem polls_paced_prompted :
    ∃ p, pollSystem.run (newPoller mailer 0 0 true) promptedTrace = some p ∧
      pollSystem.Along Listening (newPoller mailer 0 0 true) promptedTrace ∧
      p.timer = .armed (400 * Duration.millisecond) ∧ promptedTrace.count (.engine .poll) = 3 ∧
      promptedTrace.count (.engine .poll) ≤ 1 + promptedTrace.count .expire + promptedTrace.count .notified :=
  ⟨_,rfl,by decide +kernel,by decide +kernel,by decide +kernel,
    (polls_paced mailer 0 0 true promptedTrace _ rfl (by decide +kernel)).1⟩

end Tickr
