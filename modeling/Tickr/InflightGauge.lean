import Tickr.OutcomeReports

/-! The gauge of running handlers. A handler goroutine reports each of its messages to the metrics
when it starts and again when the outcome is known, one call at a time, and the calls of all
goroutines of an engine come in any order. The Prometheus gauge goes up and down with them; the
OpenTelemetry one is a map of counts that never goes below zero. -/
namespace Tickr

open Transition

inductive Meter where
  | handlerStarted (m : InboundMessage)
  | handlerCompleted (m : InboundMessage) (outcome : Outcome)
  deriving DecidableEq, Repr

def promInflight (gauge : String → Int) : Meter → String → Int
  | .handlerStarted m => fun t => if t = m.type then gauge t + 1 else gauge t
  | .handlerCompleted m _ => fun t => if t = m.type then gauge t - 1 else gauge t

def otelInflight (counts : String → Nat) : Meter → String → Nat
  | .handlerStarted m => fun t => if t = m.type then counts t + 1 else counts t
  | .handlerCompleted m _ => fun t => if t = m.type ∧ 0 < counts t then counts t - 1 else counts t

/-- `outbox` has the calls that each goroutine of `engine.tasks` has come to and not made yet. -/
structure Metered where
  engine : Engine
  outbox : List (List Meter)
  prom : String → Int
  otel : String → Nat

inductive MeterEvent where
  | engine (event : Event)
  | emit (i : Nat)
  deriving DecidableEq, Repr

def newMetered (cfg : EngineConfig) : Metered := ⟨newEngine cfg, [], fun _ => 0, fun _ => 0⟩

/-- The goroutine that takes the step, if it is one that runs a handler. Its extender is another. -/
def Event.goroutine : Event → Option Nat
  | .task _ (.extend _ _) => none
  | .task i _ => some i
  | _ => none

def Metered.outboxAfter (s : Metered) (event : Event) (next : Engine) : List (List Meter) :=
  (match event with
    | .task i .resolve => s.outbox.set i ((s.engine.reports event).map fun r => .handlerCompleted r.1 r.2)
    | .task i .finish => s.outbox.eraseIdx i
    | _ => s.outbox) ++
  (next.tasks.drop s.engine.tasks.length).map fun t => t.job.msgs.map .handlerStarted

/-- A goroutine makes its calls before it goes on. -/
def Metered.step (s : Metered) : MeterEvent → Option Metered
  | .engine event =>
    if event.goroutine.all fun i => s.outbox[i]? = some [] then
      (s.engine.step event).map fun r => { s with engine := r.1, outbox := s.outboxAfter event r.1 }
    else none
  | .emit i =>
    match s.outbox[i]? with
    | some (call :: rest) =>
      some { s with
        outbox := s.outbox.set i rest
        prom := promInflight s.prom call
        otel := otelInflight s.otel call }
    | _ => none

def meterSystem : System Metered MeterEvent := ⟨Metered.step⟩

/-! ### Counting -/

def Meter.starts (type : String) : Meter → Nat
  | .handlerStarted m => if type = m.type then 1 else 0
  | .handlerCompleted _ _ => 0

def Meter.completes (type : String) : Meter → Nat
  | .handlerStarted _ => 0
  | .handlerCompleted m _ => if type = m.type then 1 else 0

/-- The messages of a type that a goroutine holds until it has resolved their outcome. -/
def Task.active (type : String) (t : Task) : Nat :=
  match t.phase with
  | .running | .returned _ _ => total (fun m => if type = m.type then 1 else 0) t.job.msgs
  | .committing _ _ _ _ => 0

def Metered.active (s : Metered) (type : String) : Nat := total (Task.active type) s.engine.tasks

def Metered.toStart (s : Metered) (type : String) : Nat := total (total (Meter.starts type)) s.outbox

def Metered.toComplete (s : Metered) (type : String) : Nat := total (total (Meter.completes type)) s.outbox

/-- Each goroutine has yet to start at most what it holds. -/
def Fits (tasks : List Task) (outbox : List (List Meter)) : Prop :=
  ∀ (i : Nat) (t : Task) (out : List Meter), tasks[i]? = some t → outbox[i]? = some out →
    ∀ type, total (Meter.starts type) out ≤ t.active type

/-- Both gauges have what has been started and not been completed. -/
structure Metered.Sound (s : Metered) : Prop where
  aligned : s.outbox.length = s.engine.tasks.length
  fits : Fits s.engine.tasks s.outbox
  counted : ∀ type, s.otel type + s.toStart type = s.active type + s.toComplete type
  same : ∀ type, s.prom type = s.otel type

/-! ### Steps -/

/-- What a step of the engine does to the goroutines and to the calls that they have come to. -/
inductive Lanes (tasks : List Task) (outbox : List (List Meter)) : List Task → List (List Meter) → Prop where
  | same : Lanes tasks outbox tasks outbox
  | launched (job : Job) :
      Lanes tasks outbox (tasks ++ [⟨job, .running⟩]) (outbox ++ [job.msgs.map .handlerStarted])
  | moved {i : Nat} {t : Task} {phase : Phase} {out : List Meter} : tasks[i]? = some t → outbox[i]? = some [] →
      (∀ type, total (Meter.starts type) out = 0) →
      (∀ type, Task.active type { t with phase } + total (Meter.completes type) out = t.active type) →
      Lanes tasks outbox (tasks.set i { t with phase }) (outbox.set i out)
  | finished {i : Nat} {t : Task} : tasks[i]? = some t → outbox[i]? = some [] → (∀ type, t.active type = 0) →
      Lanes tasks outbox (tasks.eraseIdx i) (outbox.eraseIdx i)

theorem total_starts_started (type : String) (msgs : List InboundMessage) :
    total (Meter.starts type) (msgs.map .handlerStarted) = total (fun m => if type = m.type then 1 else 0) msgs ∧
    total (Meter.completes type) (msgs.map .handlerStarted) = 0 := by
  induction msgs with
  | nil => exact ⟨rfl,rfl⟩
  | cons m rest ih => exact ⟨congrArg _ ih.1,(Nat.zero_add _).trans ih.2⟩

theorem total_completes_completed (type : String) (outcome : Outcome) (msgs : List InboundMessage) :
    total (Meter.completes type) (msgs.map fun m => .handlerCompleted m outcome) =
      total (fun m => if type = m.type then 1 else 0) msgs ∧
    total (Meter.starts type) (msgs.map fun m => .handlerCompleted m outcome) = 0 := by
  induction msgs with
  | nil => exact ⟨rfl,rfl⟩
  | cons m rest ih => exact ⟨congrArg _ ih.1,(Nat.zero_add _).trans ih.2⟩

theorem set_nothing {outbox : List (List Meter)} {i : Nat} (idle : outbox[i]? = some []) : outbox.set i [] = outbox := by
  obtain ⟨bound,is⟩ := List.getElem?_eq_some_iff.mp idle
  rw [← is, List.set_getElem_self]

theorem Stepped.lanes {s : Metered} {event : Event} {e : Engine} {call : Option Call} (stepped : Stepped s.engine event e call)
    (idle : ∀ i, event.goroutine = some i → s.outbox[i]? = some []) :
    Lanes s.engine.tasks s.outbox e.tasks (s.outboxAfter event e) := by
  have unchanged : Lanes s.engine.tasks s.outbox s.engine.tasks (s.outbox ++
      (s.engine.tasks.drop s.engine.tasks.length).map fun t => t.job.msgs.map Meter.handlerStarted) := by
    rw [List.drop_length, List.map_nil, List.append_nil]
    exact .same
  have launched (job : Job) : Lanes s.engine.tasks s.outbox (s.engine.tasks ++ [⟨job, .running⟩]) (s.outbox ++
      ((s.engine.tasks ++ [(⟨job, .running⟩ : Task)]).drop s.engine.tasks.length).map fun t =>
        t.job.msgs.map Meter.handlerStarted) := by
    rw [List.drop_left]
    exact .launched job
  have shorter {tasks : List Task} (length : tasks.length ≤ s.engine.tasks.length) :
      ((tasks.drop s.engine.tasks.length).map fun t => t.job.msgs.map Meter.handlerStarted) = [] := by
    rw [List.drop_of_length_le length, List.map_nil]
  have stays {i : Nat} {t : Task} {phase : Phase} (at_ : s.engine.tasks[i]? = some t) (idle : s.outbox[i]? = some [])
      (same : ∀ type, Task.active type { t with phase } = t.active type) :
      Lanes s.engine.tasks s.outbox (s.engine.tasks.set i { t with phase }) (s.outbox ++
        ((s.engine.tasks.set i { t with phase }).drop s.engine.tasks.length).map fun t =>
          t.job.msgs.map Meter.handlerStarted) := by
    rw [shorter (Nat.le_of_eq List.length_set), List.append_nil]
    have moved : Lanes _ _ (s.engine.tasks.set i { t with phase }) (s.outbox.set i []) :=
      .moved at_ idle (fun _ => rfl) same
    rwa [set_nothing idle] at moved
  cases stepped with
  | launch => exact launched _
  | launchHeld => exact launched _
  | returns at_ running => exact stays at_ (idle _ rfl) fun type => by simp only [Task.active, running]
  | @resolve i t err late at_ returned =>
    simp only [Metered.outboxAfter, Engine.setPhase, Engine.reports, at_, Option.elim, returned, List.map_map]
    rw [shorter (Nat.le_of_eq List.length_set), List.append_nil]
    have reported := fun type => total_completes_completed type (resolveOutcome s.engine.ctxDone s.engine.stopping err) t.job.msgs
    refine .moved at_ (idle i rfl) (fun type => (reported type).2) fun type => ?_
    simp only [Task.active, returned]
    exact (Nat.zero_add _).trans (reported type).1
  | ack at_ committing => exact stays at_ (idle _ rfl) fun type => by simp only [Task.active, committing]
  | commit at_ committing => exact stays at_ (idle _ rfl) fun type => by simp only [Task.active, committing]
  | finish at_ committing =>
    simp only [Metered.outboxAfter]
    rw [shorter (List.length_eraseIdx_le ..), List.append_nil]
    exact .finished at_ (idle _ rfl) fun type => by simp only [Task.active, committing]
  | _ => exact unchanged

section
variable {tasks tasks' : List Task} {outbox outbox' : List (List Meter)}

theorem Lanes.aligned (lanes : Lanes tasks outbox tasks' outbox') (aligned : outbox.length = tasks.length) :
    outbox'.length = tasks'.length := by
  cases lanes with
  | same => exact aligned
  | launched => simp [aligned]
  | moved => simp [aligned]
  | finished => rw [List.length_eraseIdx, List.length_eraseIdx, aligned]

theorem Lanes.balanced (lanes : Lanes tasks outbox tasks' outbox') (type : String) :
    total (Task.active type) tasks' + total (total (Meter.completes type)) outbox' + total (total (Meter.starts type)) outbox =
      total (Task.active type) tasks + total (total (Meter.completes type)) outbox + total (total (Meter.starts type)) outbox' := by
  cases lanes with
  | same => rfl
  | launched job =>
    obtain ⟨started,completed⟩ := total_starts_started type job.msgs
    simp only [total_append, total, started, completed, Task.active]
    omega
  | @moved i t phase out at_ idle none same =>
    have active := total_set (Task.active type) at_ { t with phase }
    have completes := total_set (total (Meter.completes type)) idle out
    have starts := total_set (total (Meter.starts type)) idle out
    have silent := none type
    have kept := same type
    simp only [total] at completes starts
    omega
  | finished at_ idle done =>
    have active := total_eraseIdx (Task.active type) at_
    have completes := total_eraseIdx (total (Meter.completes type)) idle
    have starts := total_eraseIdx (total (Meter.starts type)) idle
    have gone := done type
    simp only [total] at completes starts
    omega

theorem Lanes.fits (lanes : Lanes tasks outbox tasks' outbox') (aligned : outbox.length = tasks.length)
    (fits : Fits tasks outbox) : Fits tasks' outbox' := by
  intro j u out at_ given type
  cases lanes with
  | same => exact fits j u out at_ given type
  | launched job =>
    rw [List.getElem?_append] at at_ given
    rw [aligned] at given
    split at at_
    · rw [if_pos ‹_›] at given
      exact fits j u out at_ given type
    · rw [if_neg ‹_›] at given
      rw [List.getElem?_singleton] at at_ given
      split at at_
      · rw [if_pos ‹_›] at given
        cases at_
        cases given
        exact Nat.le_of_eq (total_starts_started type job.msgs).1
      · cases at_
  | @moved i t phase new here idle none same =>
    rw [List.getElem?_set] at at_ given
    by_cases mine : i = j
    · subst mine
      have bound := (List.getElem?_eq_some_iff.mp idle).1
      rw [if_pos rfl, if_pos bound] at given
      cases given
      rw [none type]
      exact Nat.zero_le _
    · rw [if_neg mine] at at_ given
      exact fits j u out at_ given type
  | @finished i t here idle done =>
    rw [List.getElem?_eraseIdx] at at_ given
    split at at_
    · rw [if_pos ‹_›] at given
      exact fits j u out at_ given type
    · rw [if_neg ‹_›] at given
      exact fits (j + 1) u out at_ given type

theorem Fits.total (fits : Fits tasks outbox) (aligned : outbox.length = tasks.length) (type : String) :
    total (Transition.total (Meter.starts type)) outbox ≤ Transition.total (Task.active type) tasks := by
  induction tasks generalizing outbox with
  | nil =>
    rw [List.eq_nil_of_length_eq_zero aligned]
    exact Nat.le_refl 0
  | cons t rest ih =>
    cases outbox with
    | nil => cases aligned
    | cons out others =>
      have here := fits 0 t out rfl rfl type
      have later := ih (fun i => fits (i + 1)) (Nat.succ.inj aligned)
      exact Nat.add_le_add here later

end

section
variable {s next : Metered}

theorem Metered.Sound.start (cfg : EngineConfig) : (newMetered cfg).Sound where
  aligned := rfl
  fits := fun _ _ _ at_ => by cases at_
  counted := fun _ => rfl
  same := fun _ => rfl

theorem Metered.Sound.engine (sound : s.Sound) {event : Event} {e : Engine} {call : Option Call}
    (idle : ∀ i, event.goroutine = some i → s.outbox[i]? = some []) (stepped : Stepped s.engine event e call) :
    Metered.Sound { s with engine := e, outbox := s.outboxAfter event e } where
  aligned := (stepped.lanes idle).aligned sound.aligned
  fits := (stepped.lanes idle).fits sound.aligned sound.fits
  counted := by
    intro type
    have before := sound.counted type
    have balanced := (stepped.lanes idle).balanced type
    simp only [Metered.toStart, Metered.active, Metered.toComplete] at *
    omega
  same := sound.same

/-- A message that is about to be completed has been started. -/
theorem Metered.Sound.positive (sound : s.Sound) {i : Nat} {m : InboundMessage} {outcome : Outcome} {rest : List Meter}
    (at_ : s.outbox[i]? = some (.handlerCompleted m outcome :: rest)) : 0 < s.otel m.type := by
  have counted := sound.counted m.type
  have fits := sound.fits.total sound.aligned m.type
  have pending := total_eraseIdx (total (Meter.completes m.type)) at_
  simp only [total, Meter.completes, if_true] at pending
  simp only [Metered.toStart, Metered.active, Metered.toComplete] at counted
  omega

/-- Both adapters follow a call that is due. -/
theorem inflight_moved (call : Meter) (due : ∀ m outcome, call = .handlerCompleted m outcome → 0 < s.otel m.type)
    (type : String) :
    otelInflight s.otel call type + call.completes type = s.otel type + call.starts type ∧
    (s.prom type = s.otel type → promInflight s.prom call type = otelInflight s.otel call type) := by
  cases call with
  | handlerStarted m =>
    simp only [otelInflight, promInflight, Meter.completes, Meter.starts]
    split <;> omega
  | handlerCompleted m outcome =>
    have positive := due m outcome rfl
    simp only [otelInflight, promInflight, Meter.completes, Meter.starts]
    by_cases mine : type = m.type
    · rw [mine, if_pos ⟨rfl,positive⟩, if_pos rfl, if_pos rfl]
      omega
    · rw [if_neg (fun both => mine both.1), if_neg mine, if_neg mine]
      omega

theorem Metered.Sound.emit (sound : s.Sound) {i : Nat} {call : Meter} {rest : List Meter}
    (at_ : s.outbox[i]? = some (call :: rest)) :
    Metered.Sound { s with
      outbox := s.outbox.set i rest
      prom := promInflight s.prom call
      otel := otelInflight s.otel call } := by
  have moved := inflight_moved call fun m outcome is => sound.positive (is ▸ at_)
  refine ⟨List.length_set.trans sound.aligned,fun j t out task given type => ?_,fun type => ?_,
    fun type => (moved type).2 (sound.same type)⟩
  · rw [List.getElem?_set] at given
    split at given
    · rename_i mine
      subst mine
      rw [if_pos (List.getElem?_eq_some_iff.mp at_).1] at given
      cases given
      exact Nat.le_trans (Nat.le_add_left _ _) (sound.fits i t _ task at_ type)
    · exact sound.fits j t out task given type
  · have before := sound.counted type
    have now := (moved type).1
    have starts := total_set (total (Meter.starts type)) at_ rest
    have completes := total_set (total (Meter.completes type)) at_ rest
    simp only [total] at starts completes
    simp only [Metered.toStart, Metered.active, Metered.toComplete] at *
    omega

theorem Metered.Sound.step (sound : s.Sound) {event : MeterEvent} (step : meterSystem.step s event = some next) :
    next.Sound := by
  cases event with
  | engine event =>
    change (if _ then _ else _) = _ at step
    split at step
    · rename_i ready
      obtain ⟨r,stepped,rfl⟩ := Option.map_eq_some_iff.mp step
      refine sound.engine (fun i mine => ?_) (Engine.step_stepped stepped)
      rw [mine] at ready
      exact of_decide_eq_true ready
    · cases step
  | emit i =>
    change (match s.outbox[i]? with | some (call :: rest) => _ | _ => _) = _ at step
    split at step
    · cases step
      exact sound.emit ‹_›
    · cases step

/-- Both gauges agree at every moment of every run, whatever the order of the calls: they show the
messages that have been started and not been completed, and nothing once no handler is left. -/
theorem inflight_gauges_agree (cfg : EngineConfig) (trace : List MeterEvent) (s : Metered)
    (run : meterSystem.run (newMetered cfg) trace = some s) :
    (∀ type, s.prom type = s.otel type ∧ s.otel type + s.toStart type = s.active type + s.toComplete type) ∧
    ((∀ out ∈ s.outbox, out = []) → ∀ type, s.otel type = s.active type) ∧
    (s.engine.tasks = [] → ∀ type, s.prom type = 0) := by
  have sound : s.Sound := System.run_invariant Metered.Sound (fun _ _ _ holds step => holds.step step) run (.start cfg)
  refine ⟨fun type => ⟨sound.same type,sound.counted type⟩,fun quiet type => ?_,fun none type => ?_⟩
  · have counted := sound.counted type
    have silent (weight : Meter → Nat) : total (total weight) s.outbox = 0 :=
      total_eq_zero _ fun out member => by rw [quiet out member, total]
    rwa [Metered.toStart, Metered.toComplete, silent, silent] at counted
  · have counted := sound.counted type
    have silent : s.outbox = [] := List.eq_nil_of_length_eq_zero (sound.aligned.trans (congrArg List.length none))
    rw [Metered.toStart, Metered.toComplete, Metered.active, silent, none] at counted
    rw [sound.same type]
    exact congrArg Int.ofNat counted

end

/-- A handler that has come back, and whose outcome has not been reported yet. -/
def oneRunning : List MeterEvent :=
  [.engine .poll, .engine (.claimed [lastAttempt] []), .engine .dispatch, .emit 0,
    .engine (.task 0 (.returns (.returns none))), .engine (.task 0 .resolve)]

theorem inflight_gauges_agree_running : ∃ s, meterSystem.run (newMetered mailer) oneRunning = some s ∧
    s.prom lastAttempt.type = 1 ∧ s.active lastAttempt.type = 0 ∧ s.toComplete lastAttempt.type = 1 ∧
    s.prom lastAttempt.type = s.otel lastAttempt.type ∧
    s.otel lastAttempt.type + s.toStart lastAttempt.type = s.active lastAttempt.type + s.toComplete lastAttempt.type :=
  ⟨_,rfl,rfl,rfl,rfl,(inflight_gauges_agree mailer oneRunning _ rfl).1 lastAttempt.type⟩

end Tickr
