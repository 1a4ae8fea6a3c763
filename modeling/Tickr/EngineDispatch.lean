import Tickr.EngineProgress
import Tickr.EngineWrites

/-! From a claim to its completions. The poll goroutine decides on the actions of the plan
one after the other: it fails a message without a handler, starts a goroutine for a job, or
gives the job up when the context is cancelled before it has its slots. Every message of the
claim is in one of these decisions, and every message that was ever received is completed
once or waits for it. -/
namespace Tickr

open Transition

/-- What becomes of an action. -/
inductive Dispatched where
  | noHandler (m : InboundMessage)
  | released (job : Job)
  | invoked (job : Job)

def Dispatched.action : Dispatched → Action
  | .noHandler m => .noHandler m
  | .released job | .invoked job => .run job

def Dispatched.started : Dispatched → Option Job
  | .invoked job => some job
  | _ => none

/-- The decision that a step takes. -/
def Engine.dispatches (e : Engine) : Event → List Dispatched
  | .dispatch =>
    match e.loop with
    | .dispatch (.noHandler m :: _) => [.noHandler m]
    | .dispatch (.run job :: _) => if job.capped then [] else [.invoked job]
    | .holding job _ => [.invoked job]
    | _ => []
  | .abandon =>
    match e.loop with
    | .dispatch (.run job :: _) | .holding job _ => [.released job]
    | _ => []
  | _ => []

def beforeDispatch (workerID : String) (m : InboundMessage) : Call :=
  .releaseShutdown m.id m.attempt workerID "shutdown before dispatch"

/-- The calls with which the poll goroutine ends what it does not hand to a handler. -/
def Dispatched.calls (workerID : String) : Dispatched → List Call
  | .noHandler m => [.fail (noHandlerParams workerID m)]
  | .released job => job.msgs.map (beforeDispatch workerID)
  | .invoked _ => []

/-- The calls that follow from the decision of a step. -/
def Engine.prescribes (e : Engine) (event : Event) : List Call :=
  (e.dispatches event).flatMap (Dispatched.calls e.cfg.workerID)

/-- The call that the poll goroutine issues while it dispatches. -/
def Engine.settles (e : Engine) : Event → List Call
  | .dispatch => ((e.step .dispatch).bind Prod.snd).toList
  | _ => []

def Loop.releases (workerID : String) : Loop → List Call
  | .releasing msgs _ => msgs.map (beforeDispatch workerID)
  | _ => []

def Loop.undecided : Loop → List Action
  | .dispatch actions | .releasing _ actions => actions
  | .holding job actions => .run job :: actions
  | _ => []

/-- What a claim adds to the actions to decide on. -/
def Engine.planned (e : Engine) : Event → List Action
  | .claimed msgs order => plan e.cfg.registry msgs order
  | _ => []

/-- The jobs of the goroutines that a step starts. -/
def Engine.starts (e : Engine) (event : Event) : List Job :=
  (e.step event).elim [] fun r => r.1.launched.drop e.launched.length

/-- The message and attempt that a step acknowledges, fails or releases. -/
def Engine.completes (e : Engine) (event : Event) : List Tag :=
  (e.posts event).map BatchSucceedParam.tag ++ completionsOf ((e.step event).bind Prod.snd)

def Engine.worked (e : Engine) (event : Event) : List Event := if e.works event then [event] else []

section
variable {e e' : Engine} {event : Event} {call : Option Call}

theorem Stepped.decides (stepped : Stepped e event e' call) :
    e.loop.undecided ++ e.planned event =
      (e.dispatches event).map Dispatched.action ++ e'.loop.undecided := by
  cases stepped with
  | launch at_ _ uncapped => simp [at_, Loop.undecided, Engine.planned, Engine.dispatches, uncapped, Dispatched.action, Engine.launch]
  | hold at_ _ capped => simp [at_, Loop.undecided, Engine.planned, Engine.dispatches, capped]
  | notice at_ => rcases at_ with at_ | at_ <;> simp [at_, Loop.undecided, Engine.planned, Engine.dispatches]
  | idle at_ | poll at_ | claimed at_ | claimFailed at_ | dispatched at_ | noHandler at_ | launchHeld at_ | released at_
  | release at_ | abandon at_ | abandonHeld at_ | wake at_ | stop at_ =>
    simp [at_, Loop.undecided, Engine.planned, Engine.dispatches, Dispatched.action, Engine.launch]
  | _ => simp [Engine.planned, Engine.dispatches, Engine.setPhase]

theorem Stepped.settles (step : e.step event = some (e', call)) :
    e.loop.releases e.cfg.workerID ++ e.prescribes event =
      e.settles event ++ e'.loop.releases e'.cfg.workerID := by
  have stepped := Engine.step_stepped step
  rw [stepped.cfg]
  have issued (same : event = .dispatch) : e.settles event = call.toList := by
    subst same
    rw [Engine.settles, step]
    rfl
  cases stepped with
  | hold at_ _ capped => simp [issued rfl, at_, Engine.prescribes, Engine.dispatches, capped, Loop.releases]
  | launch at_ _ uncapped =>
    simp [issued rfl, at_, Engine.prescribes, Engine.dispatches, uncapped, Dispatched.calls, Loop.releases, Engine.launch]
  | dispatched at_ | noHandler at_ | launchHeld at_ | released at_ | release at_ =>
    simp [issued rfl, at_, Engine.prescribes, Engine.dispatches, Dispatched.calls, Loop.releases, Engine.launch,
      beforeDispatch]
  | notice at_ =>
    rcases at_ with at_ | at_ <;>
      simp [Engine.settles, at_, Engine.prescribes, Engine.dispatches, Loop.releases]
  | idle at_ | poll at_ | claimed at_ | claimFailed at_ | abandon at_ | abandonHeld at_ | wake at_ | stop at_ =>
    simp [Engine.settles, at_, Engine.prescribes, Engine.dispatches, Dispatched.calls, Loop.releases]
  | _ => simp [Engine.settles, Engine.prescribes, Engine.dispatches, Engine.setPhase]

theorem Stepped.starts (stepped : Stepped e event e' call) :
    e'.launched.drop e.launched.length = (e.dispatches event).filterMap Dispatched.started := by
  have kept (same : e'.launched = e.launched) : e'.launched.drop e.launched.length = [] := by
    rw [same, List.drop_length]
  cases stepped with
  | launch at_ _ uncapped =>
    simp [Engine.launched, Engine.launch, Engine.dispatches, at_, uncapped, Dispatched.started]
  | launchHeld at_ => simp [Engine.launched, Engine.launch, Engine.dispatches, at_, Dispatched.started]
  | finish at_ =>
    apply List.drop_eq_nil_of_le
    simp only [Engine.launched, List.length_map]
    exact List.length_eraseIdx_le _ _
  | hold at_ _ capped => exact (kept rfl).trans (by simp [Engine.dispatches, at_, capped])
  | dispatched at_ | noHandler at_ | released at_ | release at_ | abandon at_ | abandonHeld at_ =>
    exact (kept rfl).trans (by simp [Engine.dispatches, at_, Dispatched.started])
  | returns at_ | resolve at_ | ack at_ | commit at_ => exact kept (Engine.setPhase_launched at_ _)
  | _ => exact kept rfl

theorem Stepped.completes (step : e.step event = some (e', call)) :
    (e.pending ++ event.received.map InboundMessage.tag).Perm (e.completes event ++ e'.pending) := by
  apply List.perm_iff_count.mpr
  intro x
  have counted := (Engine.step_stepped step).pending x
  have issued : (e.step event).bind Prod.snd = call := by rw [step]; rfl
  simp only [Engine.completes, issued, List.count_append]
  omega

end

/-! ### Runs -/

section
variable {s e : Engine} {trace : List Event}

theorem run_decides (run : engineSystem.run s trace = some e) :
    s.loop.undecided ++ engineSystem.log Engine.planned s trace =
      (engineSystem.log Engine.dispatches s trace).map Dispatched.action ++ e.loop.undecided := by
  rw [System.log_hom (List.map Dispatched.action) rfl fun _ _ => List.map_append]
  refine System.log_conserved (fun e => e.loop.undecided) Engine.planned
    (fun e event => (e.dispatches event).map Dispatched.action) ?_ run
  intro e event e' step
  obtain ⟨call,stepped⟩ := engineSystem_stepped step
  exact stepped.decides

theorem run_prescribes (run : engineSystem.run s trace = some e) :
    (engineSystem.log Engine.dispatches s trace).flatMap (Dispatched.calls s.cfg.workerID) =
      engineSystem.log Engine.prescribes s trace := by
  rw [System.log_hom (List.flatMap (Dispatched.calls s.cfg.workerID)) rfl fun _ _ => List.flatMap_append]
  apply System.log_congr (fun e => e.cfg = s.cfg) _ run rfl
  intro e event e' same step
  obtain ⟨call,stepped⟩ := engineSystem_stepped step
  exact ⟨stepped.cfg.trans same,by rw [Engine.prescribes, same]⟩

/-- The poll goroutine issues the calls of its decisions, in order and each once. -/
theorem run_settles (run : engineSystem.run s trace = some e) :
    s.loop.releases s.cfg.workerID ++
        (engineSystem.log Engine.dispatches s trace).flatMap (Dispatched.calls s.cfg.workerID) =
      engineSystem.log Engine.settles s trace ++ e.loop.releases e.cfg.workerID := by
  rw [run_prescribes run]
  apply System.log_conserved (fun e => e.loop.releases e.cfg.workerID) Engine.prescribes Engine.settles _ run
  intro e event e' step
  obtain ⟨call,step⟩ := engineSystem_step step
  exact Stepped.settles step

theorem run_completes (run : engineSystem.run s trace = some e) :
    (s.pending ++ engineSystem.log (fun _ event => event.received.map InboundMessage.tag) s trace).Perm
      (engineSystem.log Engine.completes s trace ++ e.pending) := by
  apply System.log_perm Engine.pending _ Engine.completes _ run
  intro e event e' step
  obtain ⟨call,step⟩ := engineSystem_step step
  exact Stepped.completes step

theorem run_starts (run : engineSystem.run s trace = some e) :
    engineSystem.log Engine.starts s trace =
      (engineSystem.log Engine.dispatches s trace).filterMap Dispatched.started := by
  rw [System.log_hom (List.filterMap Dispatched.started) rfl fun _ _ => List.filterMap_append]
  apply System.log_congr (fun _ => True) _ run trivial
  intro e event e' _ step
  obtain ⟨call,step⟩ := engineSystem_step step
  refine ⟨trivial,?_⟩
  rw [Engine.starts, step]
  exact (Engine.step_stepped step).starts

/-- Without a new claim, only so many steps can get on with the work. -/
theorem run_worked (run : engineSystem.run s trace = some e) (unclaimed : ∀ event ∈ trace, event.isClaimed = false) :
    e.work + (engineSystem.log Engine.worked s trace).length ≤ s.work := by
  apply System.log_bound (fun event => event.isClaimed = false) Engine.work _ run unclaimed
  intro e event e' unclaimed step
  obtain ⟨call,stepped⟩ := engineSystem_stepped step
  have less := stepped.work unclaimed
  unfold Engine.worked
  split <;> simp_all

theorem run_unplanned (unclaimed : ∀ event ∈ trace, event.isClaimed = false) :
    engineSystem.log Engine.planned s trace = [] := by
  induction trace generalizing s with
  | nil => rfl
  | cons event rest ih =>
    have nothing : s.planned event = [] := by
      have now := unclaimed event List.mem_cons_self
      cases event <;> first | rfl | cases now
    simp only [System.log, nothing, List.nil_append]
    cases engineSystem.step s event with
    | none => rfl
    | some next => exact ih fun event member => unclaimed event (List.mem_cons_of_mem _ member)

end

theorem pending_work {e : Engine} (pending : e.pending ≠ []) : 0 < e.work := by
  apply Nat.pos_of_ne_zero
  intro none
  apply pending
  simp only [Engine.work, Nat.add_eq_zero_iff] at none
  obtain ⟨⟨⟨loop,tasks⟩,_⟩,_⟩ := none
  have idle : e.tasks = [] := by
    cases listed : e.tasks with
    | nil => rfl
    | cons t rest =>
      rw [listed, total] at tasks
      unfold Task.work Phase.work at tasks
      split at tasks <;> omega
  have silent : e.loop.msgs = [] := by
    cases at_ : e.loop <;> first | rfl | simp [at_, Loop.work] at loop
  simp [Engine.pending, idle, silent]

/-- What has been decided on for one claim, and the actions that it has still to decide on. -/
structure ClaimDispatched (r : Registry) (msgs : List InboundMessage) (dispatched : List Dispatched)
    (undecided : List Action) : Prop where
  /-- Each message is in one decision, or in one action to come. -/
  partition : ((dispatched.map Dispatched.action ++ undecided).flatMap Action.msgs).Perm msgs
  /-- Each decision is about one message or one chunk, by the registration of its type. -/
  planned : ∀ action ∈ dispatched.map Dispatched.action ++ undecided, Planned r msgs action
  /-- The chunks of a type are its messages in claim order. -/
  chunks : ∀ eventType, r.batched eventType = true →
    ((dispatched.map Dispatched.action ++ undecided).filterMap (Action.chunkOf eventType)).flatten =
      ofType eventType msgs

theorem claimed_releases {s e : Engine} {msgs : List InboundMessage} {order : List String} {later : List Event}
    (run : engineSystem.run s (.claimed msgs order :: later) = some e) (workerID : String) :
    s.loop.releases workerID = [] := by
  obtain ⟨next,step,_⟩ := System.run_cons.mp run
  obtain ⟨call,stepped⟩ := engineSystem_stepped step
  cases stepped with
  | claimed at_ _ =>
    rw [at_]
    rfl

theorem claim_dispatched {cfg : EngineConfig} {earlier later : List Event} {msgs : List InboundMessage}
    {order : List String} {s e : Engine} (reached : engineSystem.run (newEngine cfg) earlier = some s)
    (run : engineSystem.run s (.claimed msgs order :: later) = some e)
    (unclaimed : ∀ event ∈ later, event.isClaimed = false) :
    ClaimDispatched cfg.registry msgs (engineSystem.log Engine.dispatches s (.claimed msgs order :: later))
      e.loop.undecided := by
  obtain ⟨next,step,_⟩ := System.run_cons.mp run
  obtain ⟨call,stepped⟩ := engineSystem_stepped step
  obtain rfl := run_cfg reached
  have planned : engineSystem.log Engine.planned s (.claimed msgs order :: later) =
      plan s.cfg.registry msgs order := by
    rw [System.log, step, Option.elim, run_unplanned unclaimed, List.append_nil]
    rfl
  cases stepped with
  | claimed at_ perm =>
    have ranged := ranged_of_isPerm perm
    have whole : (engineSystem.log Engine.dispatches s (.claimed msgs order :: later)).map Dispatched.action ++
        e.loop.undecided = plan s.cfg.registry msgs order := by
      rw [← run_decides run, planned, at_]
      rfl
    refine ⟨?_,fun action member => ?_,fun eventType batched => ?_⟩
    · rw [whole]
      exact plan_perm ranged
    · rw [whole] at member
      exact plan_planned ranged member
    · rw [whole]
      exact plan_chunks ranged batched

/-- In every run from a claim to before the next one, wherever the context is cancelled: the
decisions so far and the actions to come partition the claimed messages, by type and in
chunks as registered; the goroutines that are started are those of the jobs decided on, and
the calls of the poll goroutine are those of the others. In every run as a whole, what was
received has been completed once, under its own id and attempt, or is pending; and what is
pending cannot be put off for ever, if the handlers return, since some step can get on with
it and only so many such steps are left. -/
theorem claim_completed_once (cfg : EngineConfig) (earlier later : List Event) (msgs : List InboundMessage)
    (order : List String) (s e : Engine) (reached : engineSystem.run (newEngine cfg) earlier = some s)
    (run : engineSystem.run s (.claimed msgs order :: later) = some e)
    (unclaimed : ∀ event ∈ later, event.isClaimed = false) :
    ClaimDispatched cfg.registry msgs (engineSystem.log Engine.dispatches s (.claimed msgs order :: later))
      e.loop.undecided ∧
    engineSystem.log Engine.starts s (.claimed msgs order :: later) =
      (engineSystem.log Engine.dispatches s (.claimed msgs order :: later)).filterMap Dispatched.started ∧
    engineSystem.log Engine.settles s (.claimed msgs order :: later) ++ e.loop.releases cfg.workerID =
      (engineSystem.log Engine.dispatches s (.claimed msgs order :: later)).flatMap
        (Dispatched.calls cfg.workerID) ∧
    (engineSystem.log Engine.completes (newEngine cfg) (earlier ++ .claimed msgs order :: later) ++ e.pending).Perm
      (engineSystem.log (fun _ event => event.received.map InboundMessage.tag) (newEngine cfg)
        (earlier ++ .claimed msgs order :: later)) ∧
    ∀ next e', engineSystem.run e next = some e' → (∀ event ∈ next, event.isClaimed = false) →
      (engineSystem.log Engine.worked e next).length ≤ e.work ∧
      (e'.pending ≠ [] → ∀ behaviour clock nextDelay, e'.proceeds behaviour clock nextDelay) := by
  have whole : engineSystem.run (newEngine cfg) (earlier ++ .claimed msgs order :: later) = some e := by
    rw [System.run_append, reached]
    exact run
  have settled := run_settles run
  rw [run_cfg reached, run_cfg whole, claimed_releases run] at settled
  refine ⟨claim_dispatched reached run unclaimed,run_starts run,settled.symm,(run_completes whole).symm,?_⟩
  intro next e' continued idle
  have bound := run_worked continued idle
  have lively := run_lively (run_lively (newEngine_lively cfg) whole) continued
  exact ⟨by omega,fun pending _ _ _ => lively.proceeds (pending_work pending)⟩

/-- One handler for single mails, one for reports in batches of two, and a pool of two. -/
def office : EngineConfig :=
  ⟨⟨[("mail", ⟨false, ⟨10, 0, 0, none⟩⟩), ("report", ⟨true, ⟨10, 0, 2, none⟩⟩)], by simp, by simp⟩, "w", 10, 2,
    30 * Duration.second, true⟩

def delivery (id : Uuid) (type : String) : InboundMessage :=
  { lastAttempt with id := .uuid id, type }

def deliveries : List InboundMessage :=
  [delivery 1 "mail", delivery 2 "fax", delivery 3 "report", delivery 4 "report", delivery 5 "report"]

/-- The context is cancelled while the second chunk waits for a slot of the pool. -/
def cancelledDispatch : List Event :=
  [.dispatch, .dispatch, .dispatch, .cancel, .abandon, .dispatch, .dispatch, .dispatch]

theorem claim_completed_once_office :
    ∃ s e, engineSystem.run (newEngine office) [.poll] = some s ∧
      engineSystem.run s (.claimed deliveries ["report"] :: cancelledDispatch) = some e ∧
      (engineSystem.log Engine.dispatches s (.claimed deliveries ["report"] :: cancelledDispatch)).map
        (fun d => d.action.msgs.map InboundMessage.id) =
        [[.uuid 1], [.uuid 2], [.uuid 3, .uuid 4], [.uuid 5]] ∧
      e.pending = [(.uuid 1, 1), (.uuid 3, 1), (.uuid 4, 1)] ∧
      ClaimDispatched office.registry deliveries
        (engineSystem.log Engine.dispatches s (.claimed deliveries ["report"] :: cancelledDispatch))
        e.loop.undecided :=
  ⟨_,_,rfl,rfl,rfl,rfl,
    (claim_completed_once office [.poll] cancelledDispatch deliveries ["report"] _ _ rfl rfl (by decide)).1⟩

end Tickr
