import Tickr.PollLoop

/-! Wake-ups. The listener drops a notification when one is pending already, the loop may be in
the middle of a poll when it comes, and the timer may end the select in its place. What counts
is that a poll starts after it: until then the channel keeps the signal or the loop is on its
way to the poll. -/
namespace Tickr

open Transition

/-- The next poll is due before the next select, or there is none any more. -/
def Loop.between : Loop → Bool
  | .top | .draining | .drained => true
  | _ => false

/-- A poll is under way. -/
def Loop.polling : Loop → Bool
  | .claiming _ | .dispatch _ | .holding _ _ | .releasing _ _ => true
  | _ => false

def Loop.leaving : Loop → Bool
  | .draining | .drained => true
  | _ => false

def Poller.signalled (p : Poller) : Prop := ∃ ch, p.notify = some ch ∧ ch.pending = true

def Poller.alerted (p : Poller) : Prop := p.engine.loop.between = true ∨ p.signalled

/-- The loop leaves for `drain` only once its context is cancelled. -/
def Engine.attends (e : Engine) : Prop := e.loop.leaving = true → e.ctxDone = true

/-- Where a poll takes the loop: into its claim, or back to the select if the worker is about to
stop or has no handler. -/
def Engine.pollsTo (e : Engine) : Loop :=
  if e.stopping || e.cfg.registry.eventTypes = [] then .waiting else .claiming e.cfg.claimParams

/-! ### Steps -/

section
variable {e e' : Engine} {event : Event} {call : Option Call}

theorem Stepped.between (stepped : Stepped e event e' call) (asleep : event ≠ .wake) (other : event ≠ .poll)
    (between : e.loop.between = true) : e'.loop.between = true := by
  cases stepped with
  | idle | poll => exact absurd rfl other
  | wake => exact absurd rfl asleep
  | notice | stop => rfl
  | claimed at_ | claimFailed at_ | dispatched at_ | noHandler at_ | hold at_ | launch at_ | launchHeld at_
  | released at_ | release at_ | abandon at_ | abandonHeld at_ =>
    rw [at_] at between
    cases between
  | _ => exact between

theorem Stepped.attends (stepped : Stepped e event e' call) (attends : e.attends) : e'.attends := by
  intro leaving
  cases stepped with
  | cancel => rfl
  | notice _ done => exact done
  | stop at_ => exact attends (by rw [at_]; rfl)
  | idle | poll | claimed | claimFailed | dispatched | noHandler | hold | launch | launchHeld | released | release
  | abandon | abandonHeld | wake => cases leaving
  | _ => exact attends leaving

/-- While the context is live only a poll takes the loop from its top, and only a wake-up
from its select. -/
theorem Stepped.stays (stepped : Stepped e event e' call) (asleep : event ≠ .wake) (other : event ≠ .poll)
    (live : e.ctxDone = false) (at_ : e.loop = .top ∨ e.loop = .waiting) : e'.loop = e.loop := by
  have apart {loop : Loop} (is : e.loop = loop) (inside : loop.polling = true) : False := by
    rcases at_ with top | waiting
    · cases is.symm.trans top
      cases inside
    · cases is.symm.trans waiting
      cases inside
  cases stepped with
  | idle | poll => exact absurd rfl other
  | wake => exact absurd rfl asleep
  | notice _ done => cases live.symm.trans done
  | stop is =>
    rcases at_ with top | waiting
    · cases is.symm.trans top
    · cases is.symm.trans waiting
  | claimed is | claimFailed is | dispatched is | noHandler is | hold is | launch is | launchHeld is
  | released is | release is | abandon is | abandonHeld is => exact (apart is rfl).elim
  | _ => rfl

end

section
variable {p next : Poller} {label : PollLabel}

theorem Polled.alerted (polled : Polled p label next) (other : label ≠ .engine .poll) (alerted : p.alerted) :
    next.alerted := by
  cases polled with
  | engine asleep step =>
    rename_i event e call
    obtain ⟨engine,notify,_⟩ := p.follow_spec event e
    refine alerted.imp (fun between => ?_) fun ⟨ch,held,pending⟩ => ⟨ch,notify.trans held,pending⟩
    rw [engine]
    exact (Engine.step_stepped step).between asleep (fun same => other (congrArg _ same)) between
  | expire => exact alerted
  | signal => exact Or.inr ⟨_,rfl,rfl⟩
  | hangUp held =>
    refine alerted.imp id fun ⟨ch,same,pending⟩ => ⟨_,rfl,?_⟩
    cases held.symm.trans same
    exact pending
  | timer | notified | hungUp => exact Or.inl rfl

theorem Polled.attends (polled : Polled p label next) (attends : p.engine.attends) : next.engine.attends := by
  cases polled with
  | engine _ step =>
    rw [(p.follow_spec _ _).1]
    exact (Engine.step_stepped step).attends attends
  | expire | signal | hangUp => exact attends
  | timer | notified | hungUp => exact fun leaving => nomatch leaving

theorem Polled.stays (polled : Polled p label next) (other : label ≠ .engine .poll) (live : p.engine.ctxDone = false)
    (at_ : p.engine.loop = .top ∨ p.engine.loop = .waiting) :
    next.engine.loop = .top ∨ next.engine.loop = p.engine.loop := by
  cases polled with
  | engine asleep step =>
    rw [(p.follow_spec _ _).1]
    exact Or.inr ((Engine.step_stepped step).stays asleep (fun same => other (congrArg _ same)) live at_)
  | expire | signal | hangUp => exact Or.inr rfl
  | timer | notified | hungUp => exact Or.inl rfl

end

/-! ### Runs -/

theorem run_attends {p q : Poller} {trace : List PollLabel} (run : pollSystem.run p trace = some q)
    (attends : p.engine.attends) : q.engine.attends :=
  System.run_invariant (fun p => p.engine.attends)
    (fun _ _ _ attends step => (Poller.step_polled step).attends attends) run attends

/-- Nothing but the start of a poll uses up a notification. -/
theorem run_alerted {p q : Poller} {trace : List PollLabel} (run : pollSystem.run p trace = some q)
    (sent : .signal ∈ trace) (unpolled : .engine .poll ∉ trace) : q.alerted := by
  obtain ⟨earlier,later,rfl⟩ := List.append_of_mem sent
  rw [System.run_append, Option.bind_eq_some_iff] at run
  obtain ⟨middle,_,rest⟩ := run
  obtain ⟨after,step,rest⟩ := System.run_cons.mp rest
  have polled : Polled middle .signal after := Poller.step_polled step
  have alerted : after.alerted := by
    cases polled with
    | signal => exact Or.inr ⟨_,rfl,rfl⟩
  have others : ∀ label ∈ later, label ≠ .engine .poll := by
    rintro _ member rfl
    exact unpolled (by simp [member])
  exact System.invariant (fun _ label => label ≠ .engine .poll) Poller.alerted
    (fun _ _ _ alerted other step => (Poller.step_polled step).alerted other alerted) rest
    (System.along_labels others) alerted

/-- A continuation in which the loop comes back from each poll, and neither passes over a pending
signal for ever nor stops for ever at its top. The timer need not expire. -/
structure Continued (p : Poller) (state : Nat → Poller) (label : Nat → PollLabel) : Prop where
  start : state 0 = p
  path : pollSystem.Path state label
  returns : ∀ n, ∃ k, n ≤ k ∧ (state k).engine.loop.polling = false
  receives : pollSystem.Fair state label .notified
  polls : pollSystem.Fair state label (.engine .poll)

section
variable {p q : Poller}

/-- A signal can be received as soon as the loop waits for one. -/
theorem Poller.notified_step (waiting : p.engine.loop = .waiting) (signalled : p.signalled) :
    ∃ q, p.step .notified = some q ∧ q.engine = { p.engine with loop := .top } := by
  obtain ⟨ch,held,pending⟩ := signalled
  have woken : p.wake = some { p.engine with loop := .top } := by simp [Poller.wake, Engine.step, waiting]
  refine ⟨{ p with
    engine := { p.engine with loop := .top }
    timer := .stopped
    currentDelay := p.pollInterval
    notify := some { ch with pending := false } },?_,rfl⟩
  simp [Poller.step, held, pending, woken]

theorem Poller.poll_step (top : p.engine.loop = .top) (live : p.engine.ctxDone = false) :
    ∃ q, p.step (.engine .poll) = some q ∧ q.engine.loop = p.engine.pollsTo := by
  have step : p.engine.step .poll = some ({ p.engine with loop := p.engine.pollsTo }, none) := by
    simp only [Engine.step, top, live, Bool.false_eq_true, if_false, Engine.pollsTo]
    split <;> rfl
  refine ⟨p.follow .poll { p.engine with loop := p.engine.pollsTo },by simp [Poller.step, step],?_⟩
  rw [(p.follow_spec _ _).1]

/-- A poll starts at the top of the loop. -/
theorem Poller.polled (taken : p.step (.engine .poll) = some q) :
    p.engine.loop = .top ∧ q.engine.loop = p.engine.pollsTo := by
  have starts : p.engine.loop = .top ∧ p.engine.ctxDone = false := by
    have polled : Polled p (.engine .poll) q := Poller.step_polled taken
    cases polled with
    | engine _ step =>
      simp only [Engine.step] at step
      split at step
      · rename_i top
        split at step
        · cases step
        · rename_i live
          exact ⟨top,Bool.eq_false_iff.mpr live⟩
      · cases step
  obtain ⟨_,same,loop⟩ := Poller.poll_step starts.1 starts.2
  cases same.symm.trans taken
  exact ⟨starts.1,loop⟩

/-- Whatever the schedule, a poll starts after the notification. -/
theorem Continued.poll {state : Nat → Poller} {label : Nat → PollLabel} (continued : Continued p state label)
    (alerted : p.alerted) (attends : p.engine.attends) :
    ∃ n, label n = .engine .poll ∨ (state n).engine.ctxDone = true := by
  by_contra never
  have unpolled (n : Nat) : label n ≠ .engine .poll := fun poll => never ⟨n,Or.inl poll⟩
  have live (n : Nat) : (state n).engine.ctxDone = false :=
    Bool.eq_false_of_not_eq_true fun done => never ⟨n,Or.inr done⟩
  have polled (n : Nat) : Polled (state n) (label n) (state (n + 1)) := Poller.step_polled (continued.path n)
  have kept (n : Nat) : (state n).alerted ∧ (state n).engine.attends := by
    induction n with
    | zero => exact continued.start ▸ ⟨alerted,attends⟩
    | succ n ih => exact ⟨(polled n).alerted (unpolled n) ih.1,(polled n).attends ih.2⟩
  -- the loop gets to its top: from a select it is the signal that takes it there
  obtain ⟨k,top⟩ : ∃ k, (state k).engine.loop = .top := by
    obtain ⟨k,_,returned⟩ := continued.returns 0
    have left (leaving : (state k).engine.loop.leaving = true) : False := by
      cases (live k).symm.trans ((kept k).2 leaving)
    cases loop : (state k).engine.loop with
    | top => exact ⟨k,loop⟩
    | waiting =>
      obtain ⟨k,_,top⟩ := continued.receives.leads (fun n => (state n).engine.loop = .waiting)
        (fun n => (state n).engine.loop = .top)
        (fun n waiting => by
          have stays := (polled n).stays (unpolled n) (live n) (Or.inr waiting)
          rw [waiting] at stays
          exact stays.symm)
        (fun n waiting disabled => by
          have signalled : (state n).signalled := (kept n).1.resolve_left (by simp [waiting, Loop.between])
          obtain ⟨q,step,_⟩ := Poller.notified_step waiting signalled
          cases step.symm.trans disabled)
        (fun n waiting taken => by
          have step := polled n
          rw [taken] at step
          generalize state (n + 1) = after at step
          cases step with
          | notified => rfl)
        loop
      exact ⟨k,top⟩
    | draining | drained => exact (left (by rw [loop]; rfl)).elim
    | _ => rw [loop] at returned; cases returned
  -- and there only a poll can follow
  obtain ⟨_,_,impossible⟩ := continued.polls.leads (fun n => (state n).engine.loop = .top) (fun _ => False)
    (fun n top => by
      have stays := (polled n).stays (unpolled n) (live n) (Or.inl top)
      rw [top, or_self] at stays
      exact Or.inl stays)
    (fun n top disabled => by
      obtain ⟨q,step,_⟩ := Poller.poll_step top (live n)
      cases step.symm.trans disabled)
    (fun n _ taken => unpolled n taken) top
  exact impossible

end

/-- If the listener has sent since the last poll began, a loop that waits finds the signal in the
channel and can poll at once; and every continuation gets to a poll, whether or not the timer
expires, unless the worker is shut down. -/
theorem wakeUps_kept (cfg : EngineConfig) (pollInterval pollMaxBackoff : Duration) (earlier later : List PollLabel)
    (p : Poller) (ran : pollSystem.run (newPoller cfg pollInterval pollMaxBackoff true) (earlier ++ later) = some p)
    (sent : .signal ∈ later) (unpolled : .engine .poll ∉ later) :
    (p.engine.loop = .waiting → p.signalled ∧ ∃ q, p.step .notified = some q ∧
      (p.engine.ctxDone = false → ∃ r, q.step (.engine .poll) = some r ∧ r.engine.loop = q.engine.pollsTo)) ∧
    ∀ state label, Continued p state label →
      ∃ n, (label n = .engine .poll ∧ (state n).engine.loop = .top ∧
          (state (n + 1)).engine.loop = (state n).engine.pollsTo) ∨
        (state n).engine.ctxDone = true := by
  rw [System.run_append, Option.bind_eq_some_iff] at ran
  obtain ⟨polled,before,after⟩ := ran
  have alerted := run_alerted after sent unpolled
  have attends := run_attends after (run_attends before fun leaving => nomatch leaving)
  refine ⟨fun waiting => ?_,fun state label continued => ?_⟩
  · have signalled : p.signalled := alerted.resolve_left (by simp [waiting, Loop.between])
    obtain ⟨q,received,engine⟩ := Poller.notified_step waiting signalled
    refine ⟨signalled,q,received,fun live => Poller.poll_step ?_ ?_⟩
    · rw [engine]
    · rw [engine]
      exact live
  · obtain ⟨n,poll | done⟩ := continued.poll alerted attends
    · have step := continued.path n
      rw [poll] at step
      exact ⟨n,Or.inl ⟨poll,Poller.polled step⟩⟩
    · exact ⟨n,Or.inr done⟩

/-! ### A signal in the middle of each poll -/

def mailPoller (loop : Loop) (currentDelay : Duration) (timer : Timer) (pending : Bool) : Poller :=
  { newPoller mailer 0 0 true with
    engine := { newEngine mailer with loop }
    currentDelay
    timer
    notify := some ⟨pending, false⟩ }

/-- The loop while a claim that finds nothing is under way, and the step that it takes next. -/
def disturbed : Nat → Poller × PollLabel
  | 0 => (mailPoller (.claiming mailer.claimParams) (100 * Duration.millisecond) .stopped true,
      .engine (.claimed [] []))
  | 1 => (mailPoller (.dispatch []) (100 * Duration.millisecond) .stopped true, .engine .dispatch)
  | 2 => (mailPoller .waiting (200 * Duration.millisecond) (.armed (200 * Duration.millisecond)) true, .notified)
  | 3 => (mailPoller .top (100 * Duration.millisecond) .stopped false, .engine .poll)
  | _ => (mailPoller (.claiming mailer.claimParams) (100 * Duration.millisecond) .stopped false, .signal)

theorem disturbed_step : ∀ i < 5, pollSystem.step (disturbed i).1 (disturbed i).2 =
    some (disturbed ((i + 1) % 5)).1
  | 0, _ | 1, _ | 2, _ | 3, _ | 4, _ => rfl

theorem disturbed_continued :
    Continued (disturbed 0).1 (fun n => (disturbed (n % 5)).1) (fun n => (disturbed (n % 5)).2) where
  start := rfl
  path n := by
    rw [disturbed_step (n % 5) (Nat.mod_lt n (by decide)), Nat.mod_add_mod]
  returns n := ⟨5 * n + 2,by omega,by rw [Nat.mul_add_mod]; rfl⟩
  receives n := ⟨5 * n + 2,by omega,Or.inl (congrArg (fun i => (disturbed i).2) (Nat.mul_add_mod 5 n 2))⟩
  polls n := ⟨5 * n + 3,by omega,Or.inl (congrArg (fun i => (disturbed i).2) (Nat.mul_add_mod 5 n 3))⟩

theorem disturbed_live : ∀ i < 5, (disturbed i).1.engine.ctxDone = false ∧
    (disturbed i).1.engine.pollsTo = .claiming mailer.claimParams
  | 0, _ | 1, _ | 2, _ | 3, _ | 4, _ => ⟨rfl,rfl⟩

/-- Signals in the middle of two polls. -/
def signalledTwice : List PollLabel :=
  [.engine .poll,.signal,.engine (.claimed [] []),.engine .dispatch,.notified,.engine .poll]

theorem wakeUps_kept_disturbed :
    pollSystem.run (newPoller mailer 0 0 true) (signalledTwice ++ [.signal]) = some (disturbed 0).1 ∧
    pollSystem.Path (fun n => (disturbed (n % 5)).1) (fun n => (disturbed (n % 5)).2) ∧
    ∃ n, (disturbed (n % 5)).2 = .engine .poll ∧ (disturbed (n % 5)).1.engine.loop = .top ∧
      (disturbed ((n + 1) % 5)).1.engine.loop = .claiming mailer.claimParams := by
  obtain ⟨n,⟨poll,top,loop⟩ | done⟩ := (wakeUps_kept mailer 0 0 signalledTwice [.signal] (disturbed 0).1 rfl (by simp)
    (by simp)).2 _ _ disturbed_continued
  · exact ⟨rfl,disturbed_continued.path,n,poll,top,loop.trans (disturbed_live (n % 5) (Nat.mod_lt n (by decide))).2⟩
  · cases (disturbed_live (n % 5) (Nat.mod_lt n (by decide))).1.symm.trans done

end Tickr
