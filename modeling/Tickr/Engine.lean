import Tickr.Outcome

/-! One worker engine. The run loop, the handler goroutines, their lease extenders and the
ack flusher each take one step at a time; an event names the step and everything that the
code leaves to chance there. A step may issue one storage call; what the storage answers to
a claim is part of the event that receives it. -/
namespace Tickr

structure EngineConfig where
  registry : Registry
  workerID : String
  batchSize : Int
  poolSize : Int
  lease : Duration
  batchAcker : Bool

def batchSizeOrDefault (n : Int) : Nat := limitOr 100 n

def leaseOrDefault (d : Duration) : Duration := if d ≤ 0 then 30 * Duration.second else d

theorem leaseOrDefault_pos (d : Duration) : 0 < leaseOrDefault d := by
  unfold leaseOrDefault
  split
  · decide
  · exact Int.not_le.mp ‹_›

def EngineConfig.poolCapacity (cfg : EngineConfig) : Nat := limitOr 32 cfg.poolSize

def EngineConfig.ackCapacity (cfg : EngineConfig) : Nat := batchSizeOrDefault cfg.batchSize * 4

def EngineConfig.claimParams (cfg : EngineConfig) : ClaimParams :=
  ⟨cfg.workerID, batchSizeOrDefault cfg.batchSize, leaseOrDefault cfg.lease, cfg.registry.eventTypes⟩

/-! ### What one claim is split into -/

/-- One handler invocation: a single message, or a chunk for a batch handler. -/
structure Job where
  eventType : String
  reg : Registration
  msgs : List InboundMessage

inductive Action where
  | noHandler (m : InboundMessage)
  | run (job : Job)

def Registry.batched (r : Registry) (eventType : String) : Bool :=
  (r.lookup eventType).any Registration.batch

/-- What the claim loop does at once with a message; batch messages are set aside. -/
def singleAction (r : Registry) (m : InboundMessage) : Option Action :=
  match r.lookup m.type with
  | none => some (.noHandler m)
  | some reg => if reg.batch then none else some (.run ⟨m.type, reg, [m]⟩)

def batchTypes (r : Registry) (msgs : List InboundMessage) : List String :=
  ((msgs.map InboundMessage.type).filter r.batched).eraseDups

def chunkSize (maxBatchSize : Int) (length : Nat) : Nat :=
  if maxBatchSize ≤ 0 ∨ (length : Int) < maxBatchSize then length else maxBatchSize.toNat

/-- The slices `msgs[i:i+size]`; one round for each element is more than enough. -/
def chunks (size : Nat) : Nat → List α → List (List α)
  | 0, _ | _, [] => []
  | rounds + 1, msgs => msgs.take size :: chunks size rounds (msgs.drop size)

/-- `dispatchBatches` for one event type. -/
def batchActions (r : Registry) (msgs : List InboundMessage) (eventType : String) : List Action :=
  match r.lookup eventType with
  | none => []
  | some reg =>
    let group := msgs.filter fun m => m.type = eventType
    (chunks (chunkSize reg.cfg.maxBatchSize group.length) group.length group).map fun chunk =>
      .run ⟨eventType, reg, chunk⟩

/-- `order` is the order in which the map of batch groups happens to be ranged over. -/
def plan (r : Registry) (msgs : List InboundMessage) (order : List String) : List Action :=
  msgs.filterMap (singleAction r) ++ order.flatMap (batchActions r msgs)

def noHandlerParams (workerID : String) (m : InboundMessage) : FailParams :=
  ⟨m.id, m.attempt, workerID, "no handler registered for event type " ++ quote m.type, Time.zero, true⟩

/-! ### State -/

inductive Loop where
  | top
  | claiming (p : ClaimParams)
  | dispatch (actions : List Action)
  | holding (job : Job) (actions : List Action)
  | releasing (msgs : List InboundMessage) (actions : List Action)
  | waiting
  | draining
  | drained

/-- `ctxDone` remembers whether the worker's context was cancelled when the handler
returned. -/
inductive Phase where
  | running
  | returned (err : Option GoError) (ctxDone : Bool)
  | committing (err : Option GoError) (ctxDone : Bool) (outcome : Outcome) (rest : List InboundMessage)
  deriving DecidableEq, Repr

structure Task where
  job : Job
  phase : Phase

/-- `closed` and `flusherDone` are the two channels that `drain` and `ackFlusher` close.
Without a BatchAcker the flusher's steps find nothing to do. -/
structure Engine where
  cfg : EngineConfig
  ctxDone : Bool
  stopping : Bool
  loop : Loop
  pool : Nat
  perType : String → Nat
  tasks : List Task
  succeedCh : List BatchSucceedParam
  closed : Bool
  buf : List BatchSucceedParam
  flusherDone : Bool

def newEngine (cfg : EngineConfig) : Engine :=
  ⟨cfg, false, false, .top, 0, fun _ => 0, [], [], false, [], false⟩

/-- A step of one handler goroutine, or of its extender. -/
inductive TaskEvent where
  | returns (behaviour : Behaviour)
  | resolve
  | commit (clock : Time) (nextDelay : Duration)
  | finish
  | extend (message : Nat) (clock : Time)
  deriving DecidableEq, Repr

inductive Event where
  | cancel
  | poll
  | notice
  | claimed (msgs : List InboundMessage) (order : List String)
  | claimFailed
  | dispatch
  | abandon
  | wake
  | stop
  | task (i : Nat) (event : TaskEvent)
  | receive
  | flush
  | close
  | exit
  deriving DecidableEq, Repr

/-! ### Steps -/

def Job.capped (job : Job) : Bool := 0 < job.reg.cfg.maxInflight

def Job.invoke (job : Job) : Behaviour → Option GoError :=
  if job.reg.batch then safeInvokeBatch else safeInvoke

/-- The per-type semaphores after a slot of a capped type was taken or given back. -/
def Engine.countType (e : Engine) (job : Job) (count : Nat → Nat) : String → Nat :=
  if job.capped then fun t => if t = job.eventType then count (e.perType t) else e.perType t
  else e.perType

def Engine.launch (e : Engine) (job : Job) (actions : List Action) : Engine :=
  { e with
    loop := .dispatch actions
    perType := e.countType job (· + 1)
    tasks := e.tasks ++ [⟨job, .running⟩] }

/-- The rest of `pollOnce` after the claim, one message, slot or release at a time. -/
def Engine.dispatch (e : Engine) : Option (Engine × Option Call) :=
  match e.loop with
  | .dispatch [] => some ({ e with loop := .waiting }, none)
  | .dispatch (.noHandler m :: rest) =>
    some ({ e with loop := .dispatch rest }, some (.fail (noHandlerParams e.cfg.workerID m)))
  | .dispatch (.run job :: rest) =>
    if e.pool < e.cfg.poolCapacity then
      if job.capped then some ({ e with pool := e.pool + 1, loop := .holding job rest }, none)
      else some (Engine.launch { e with pool := e.pool + 1 } job rest, none)
    else none
  | .holding job rest =>
    if (e.perType job.eventType : Int) < job.reg.cfg.maxInflight then some (e.launch job rest, none)
    else none
  | .releasing [] rest => some ({ e with loop := .dispatch rest }, none)
  | .releasing (m :: ms) rest =>
    some ({ e with loop := .releasing ms rest },
      some (.releaseShutdown m.id m.attempt e.cfg.workerID "shutdown before dispatch"))
  | _ => none

/-- The `ctx.Done()` branch of the two slot selects. -/
def Engine.abandon (e : Engine) : Option (Engine × Option Call) :=
  if e.ctxDone then
    match e.loop with
    | .dispatch (.run job :: rest) => some ({ e with loop := .releasing job.msgs rest }, none)
    | .holding job rest => some ({ e with pool := e.pool - 1, loop := .releasing job.msgs rest }, none)
    | _ => none
  else none

def Engine.setPhase (e : Engine) (i : Nat) (t : Task) (phase : Phase) : Engine :=
  { e with tasks := e.tasks.set i { t with phase } }

/-- `commitOutcome` for the next message of task `i`; an ack waits for room. -/
def Engine.commit (e : Engine) (i : Nat) (t : Task) (clock : Time) (nextDelay : Duration) :
    Option (Engine × Option Call) :=
  match t.phase with
  | .committing err late outcome (m :: rest) =>
    match commitOutcome e.cfg.batchAcker e.cfg.workerID m t.job.reg.cfg err clock nextDelay outcome with
    | some (.ack p) =>
      if e.succeedCh.length < e.cfg.ackCapacity then
        some ({ e.setPhase i t (.committing err late outcome rest) with succeedCh := e.succeedCh ++ [p] }, none)
      else none
    | some (.call c) => some (e.setPhase i t (.committing err late outcome rest), some c)
    | none => none
  | _ => none

/-- `runHandler` and `runBatchHandler`. -/
def Engine.runTask (e : Engine) (i : Nat) (t : Task) : TaskEvent → Option (Engine × Option Call)
  | .returns behaviour =>
    match t.phase with
    | .running => some (e.setPhase i t (.returned (t.job.invoke behaviour) e.ctxDone), none)
    | _ => none
  | .resolve =>
    match t.phase with
    | .returned err late =>
      some (e.setPhase i t (.committing err late (resolveOutcome e.ctxDone e.stopping err) t.job.msgs), none)
    | _ => none
  | .commit clock nextDelay => e.commit i t clock nextDelay
  | .finish =>
    match t.phase with
    | .committing _ _ _ [] =>
      some ({ e with
        tasks := e.tasks.eraseIdx i
        pool := e.pool - 1
        perType := e.countType t.job (· - 1) }, none)
    | _ => none
  | .extend j clock =>
    t.job.msgs[j]?.map fun m =>
      (e, some (.extend m.id e.cfg.workerID (clock + leaseOrDefault e.cfg.lease)))

/-- What a flush passes on, if there is anything to pass on. -/
def Engine.flushed (e : Engine) : Option Call := if e.buf = [] then none else some (.batchSucceed e.buf)

def Engine.step (e : Engine) : Event → Option (Engine × Option Call)
  | .cancel => some ({ e with ctxDone := true }, none)
  | .poll =>
    match e.loop with
    | .top =>
      if e.ctxDone then none
      else if e.stopping || e.cfg.registry.eventTypes = [] then some ({ e with loop := .waiting }, none)
      else some ({ e with loop := .claiming e.cfg.claimParams }, none)
    | _ => none
  | .notice =>
    match e.loop with
    | .top | .waiting => if e.ctxDone then some ({ e with loop := .draining }, none) else none
    | _ => none
  | .claimed msgs order =>
    match e.loop with
    | .claiming p =>
      if order.isPerm (batchTypes e.cfg.registry msgs) then
        some ({ e with loop := .dispatch (plan e.cfg.registry msgs order) }, some (.claim p))
      else none
    | _ => none
  | .claimFailed =>
    match e.loop with
    | .claiming p => some ({ e with loop := .waiting }, some (.claim p))
    | _ => none
  | .dispatch => e.dispatch
  | .abandon => e.abandon
  | .wake =>
    match e.loop with
    | .waiting => some ({ e with loop := .top }, none)
    | _ => none
  | .stop =>
    match e.loop with
    | .draining => some ({ e with loop := .drained, stopping := true }, none)
    | _ => none
  | .task i event => e.tasks[i]?.bind fun t => e.runTask i t event
  | .receive =>
    match e.succeedCh with
    | p :: rest =>
      if e.buf.length < batchSizeOrDefault e.cfg.batchSize then
        some ({ e with succeedCh := rest, buf := e.buf ++ [p] }, none)
      else none
    | [] => none
  | .flush => if e.flusherDone then none else some ({ e with buf := [] }, e.flushed)
  | .close =>
    match e.loop, e.tasks with
    | .drained, [] => if e.closed then none else some ({ e with closed := true }, none)
    | _, _ => none
  | .exit =>
    if e.closed && e.succeedCh.isEmpty && !e.flusherDone then
      some ({ e with buf := [], flusherDone := true }, e.flushed)
    else none

/-! ### What a step can do -/

/-- One constructor for each path through `Engine.step`, with its guards. -/
inductive Stepped (e : Engine) : Event → Engine → Option Call → Prop where
  | cancel : Stepped e .cancel { e with ctxDone := true } none
  | idle : e.loop = .top → Stepped e .poll { e with loop := .waiting } none
  | poll : e.loop = .top → e.ctxDone = false → e.stopping = false →
      Stepped e .poll { e with loop := .claiming e.cfg.claimParams } none
  | notice : e.loop = .top ∨ e.loop = .waiting → e.ctxDone = true →
      Stepped e .notice { e with loop := .draining } none
  | claimed : e.loop = .claiming p → order.isPerm (batchTypes e.cfg.registry msgs) = true →
      Stepped e (.claimed msgs order) { e with loop := .dispatch (plan e.cfg.registry msgs order) }
        (some (.claim p))
  | claimFailed : e.loop = .claiming p → Stepped e .claimFailed { e with loop := .waiting } (some (.claim p))
  | dispatched : e.loop = .dispatch [] → Stepped e .dispatch { e with loop := .waiting } none
  | noHandler : e.loop = .dispatch (.noHandler m :: rest) →
      Stepped e .dispatch { e with loop := .dispatch rest }
        (some (.fail (noHandlerParams e.cfg.workerID m)))
  | hold : e.loop = .dispatch (.run job :: rest) → e.pool < e.cfg.poolCapacity → job.capped = true →
      Stepped e .dispatch { e with pool := e.pool + 1, loop := .holding job rest } none
  | launch : e.loop = .dispatch (.run job :: rest) → e.pool < e.cfg.poolCapacity → job.capped = false →
      Stepped e .dispatch (Engine.launch { e with pool := e.pool + 1 } job rest) none
  | launchHeld : e.loop = .holding job rest →
      (e.perType job.eventType : Int) < job.reg.cfg.maxInflight →
      Stepped e .dispatch (e.launch job rest) none
  | released : e.loop = .releasing [] rest → Stepped e .dispatch { e with loop := .dispatch rest } none
  | release : e.loop = .releasing (m :: ms) rest →
      Stepped e .dispatch { e with loop := .releasing ms rest }
        (some (.releaseShutdown m.id m.attempt e.cfg.workerID "shutdown before dispatch"))
  | abandon : e.loop = .dispatch (.run job :: rest) → e.ctxDone = true →
      Stepped e .abandon { e with loop := .releasing job.msgs rest } none
  | abandonHeld : e.loop = .holding job rest → e.ctxDone = true →
      Stepped e .abandon { e with pool := e.pool - 1, loop := .releasing job.msgs rest } none
  | wake : e.loop = .waiting → Stepped e .wake { e with loop := .top } none
  | stop : e.loop = .draining → Stepped e .stop { e with loop := .drained, stopping := true } none
  | returns : e.tasks[i]? = some t → t.phase = .running →
      Stepped e (.task i (.returns behaviour))
        (e.setPhase i t (.returned (t.job.invoke behaviour) e.ctxDone)) none
  | resolve : e.tasks[i]? = some t → t.phase = .returned err late →
      Stepped e (.task i .resolve)
        (e.setPhase i t (.committing err late (resolveOutcome e.ctxDone e.stopping err) t.job.msgs)) none
  | ack : e.tasks[i]? = some t → t.phase = .committing err late outcome (m :: rest) →
      commitOutcome e.cfg.batchAcker e.cfg.workerID m t.job.reg.cfg err clock nextDelay outcome =
        some (.ack p) →
      e.succeedCh.length < e.cfg.ackCapacity →
      Stepped e (.task i (.commit clock nextDelay))
        { e.setPhase i t (.committing err late outcome rest) with succeedCh := e.succeedCh ++ [p] } none
  | commit : e.tasks[i]? = some t → t.phase = .committing err late outcome (m :: rest) →
      commitOutcome e.cfg.batchAcker e.cfg.workerID m t.job.reg.cfg err clock nextDelay outcome =
        some (.call c) →
      Stepped e (.task i (.commit clock nextDelay))
        (e.setPhase i t (.committing err late outcome rest)) (some c)
  | finish : e.tasks[i]? = some t → t.phase = .committing err late outcome [] →
      Stepped e (.task i .finish)
        { e with
          tasks := e.tasks.eraseIdx i
          pool := e.pool - 1
          perType := e.countType t.job (· - 1) } none
  | extend : e.tasks[i]? = some t → t.job.msgs[j]? = some m →
      Stepped e (.task i (.extend j clock)) e
        (some (.extend m.id e.cfg.workerID (clock + leaseOrDefault e.cfg.lease)))
  | receive : e.succeedCh = p :: rest → e.buf.length < batchSizeOrDefault e.cfg.batchSize →
      Stepped e .receive { e with succeedCh := rest, buf := e.buf ++ [p] } none
  | flush : e.flusherDone = false → Stepped e .flush { e with buf := [] } e.flushed
  | close : e.loop = .drained → e.tasks = [] → e.closed = false →
      Stepped e .close { e with closed := true } none
  | exit : e.closed = true → e.succeedCh = [] → e.flusherDone = false →
      Stepped e .exit { e with buf := [], flusherDone := true } e.flushed

section
variable {e e' : Engine} {call : Option Call}

theorem Engine.dispatch_stepped (step : e.dispatch = some (e',call)) : Stepped e .dispatch e' call := by
  unfold Engine.dispatch at step
  split at step
  · cases step; exact .dispatched ‹_›
  · cases step; exact .noHandler ‹_›
  · split at step
    · split at step
      · cases step; exact .hold ‹_› ‹_› ‹_›
      · cases step; exact .launch ‹_› ‹_› (Bool.eq_false_of_not_eq_true ‹_›)
    · cases step
  · split at step
    · cases step; exact .launchHeld ‹_› ‹_›
    · cases step
  · cases step; exact .released ‹_›
  · cases step; exact .release ‹_›
  · cases step

theorem Engine.abandon_stepped (step : e.abandon = some (e',call)) : Stepped e .abandon e' call := by
  unfold Engine.abandon at step
  split at step
  · split at step
    · cases step; exact .abandon ‹_› ‹_›
    · cases step; exact .abandonHeld ‹_› ‹_›
    · cases step
  · cases step

theorem Engine.runTask_stepped {i : Nat} {t : Task} {event : TaskEvent} (at_ : e.tasks[i]? = some t)
    (step : e.runTask i t event = some (e',call)) : Stepped e (.task i event) e' call := by
  cases event with
  | returns behaviour =>
    simp only [Engine.runTask] at step
    split at step
    · cases step; exact .returns at_ ‹_›
    · cases step
  | resolve =>
    simp only [Engine.runTask] at step
    split at step
    · cases step; exact .resolve at_ ‹_›
    · cases step
  | commit clock nextDelay =>
    simp only [Engine.runTask, Engine.commit] at step
    split at step
    · split at step
      · split at step
        · cases step; exact .ack at_ ‹_› ‹_› ‹_›
        · cases step
      · cases step; exact .commit at_ ‹_› ‹_›
      · cases step
    · cases step
  | finish =>
    simp only [Engine.runTask] at step
    split at step
    · cases step; exact .finish at_ ‹_›
    · cases step
  | extend j clock =>
    obtain ⟨m,listed,same⟩ := Option.map_eq_some_iff.mp step
    cases same
    exact .extend at_ listed

theorem Engine.step_stepped {event : Event} (step : e.step event = some (e',call)) :
    Stepped e event e' call := by
  cases event with
  | cancel => cases step; exact .cancel
  | poll =>
    simp only [Engine.step] at step
    split at step
    · split at step
      · cases step
      · split at step
        · cases step; exact .idle ‹_›
        · rename_i top running busy
          cases step
          simp only [Bool.or_eq_true, not_or, Bool.not_eq_true] at running busy
          exact .poll top running busy.1
    · cases step
  | notice =>
    simp only [Engine.step] at step
    split at step
    · split at step
      · cases step; exact .notice (Or.inl ‹_›) ‹_›
      · cases step
    · split at step
      · cases step; exact .notice (Or.inr ‹_›) ‹_›
      · cases step
    · cases step
  | claimed msgs order =>
    simp only [Engine.step] at step
    split at step
    · split at step
      · cases step; exact .claimed ‹_› ‹_›
      · cases step
    · cases step
  | claimFailed =>
    simp only [Engine.step] at step
    split at step
    · cases step; exact .claimFailed ‹_›
    · cases step
  | dispatch => exact Engine.dispatch_stepped step
  | abandon => exact Engine.abandon_stepped step
  | wake =>
    simp only [Engine.step] at step
    split at step
    · cases step; exact .wake ‹_›
    · cases step
  | stop =>
    simp only [Engine.step] at step
    split at step
    · cases step; exact .stop ‹_›
    · cases step
  | task i event =>
    obtain ⟨t,at_,ran⟩ := Option.bind_eq_some_iff.mp step
    exact Engine.runTask_stepped at_ ran
  | receive =>
    simp only [Engine.step] at step
    split at step
    · split at step
      · cases step; exact .receive ‹_› ‹_›
      · cases step
    · cases step
  | flush =>
    simp only [Engine.step] at step
    split at step
    · cases step
    · cases step; exact .flush (Bool.eq_false_of_not_eq_true ‹_›)
  | close =>
    simp only [Engine.step] at step
    split at step
    · split at step
      · cases step
      · cases step; exact .close ‹_› ‹_› (Bool.eq_false_of_not_eq_true ‹_›)
    · cases step
  | exit =>
    simp only [Engine.step] at step
    split at step
    · rename_i ready
      cases step
      simp only [Bool.and_eq_true, List.isEmpty_iff, Bool.not_eq_true'] at ready
      exact .exit ready.1.1 ready.1.2 ready.2
    · cases step

end

theorem Stepped.cfg {e e' : Engine} {event : Event} {call : Option Call} (stepped : Stepped e event e' call) :
    e'.cfg = e.cfg := by
  cases stepped <;> rfl

/-! ### The messages that an engine holds -/

def Action.msgs : Action → List InboundMessage
  | .noHandler m => [m]
  | .run job => job.msgs

def Loop.msgs : Loop → List InboundMessage
  | .dispatch actions => actions.flatMap Action.msgs
  | .holding job actions => job.msgs ++ actions.flatMap Action.msgs
  | .releasing msgs actions => msgs ++ actions.flatMap Action.msgs
  | _ => []

/-- The messages whose completion is still to be written. -/
def Phase.rest : Phase → List InboundMessage
  | .committing _ _ _ rest => rest
  | _ => []

/-- Every message that a step of the engine may still name in a call of its own. -/
def Engine.messages (e : Engine) : List InboundMessage :=
  e.loop.msgs ++ e.tasks.flatMap fun t => t.job.msgs ++ t.phase.rest

/-! ### Tasks and messages through a step -/

/-- How a goroutine moves its own task on. -/
inductive TaskMove (e : Engine) (t : Task) : TaskEvent → Phase → Prop where
  | returned : t.phase = .running →
      TaskMove e t (.returns behaviour) (.returned (t.job.invoke behaviour) e.ctxDone)
  | resolved : t.phase = .returned err late →
      TaskMove e t .resolve (.committing err late (resolveOutcome e.ctxDone e.stopping err) t.job.msgs)
  | committed : t.phase = .committing err late outcome (m :: rest) →
      TaskMove e t (.commit clock nextDelay) (.committing err late outcome rest)

/-- A task after the step was there before, has just been launched, or moved on. -/
inductive TaskFrom (e : Engine) : Event → Task → Prop where
  | kept : t ∈ e.tasks → TaskFrom e event t
  | launched : job.msgs ⊆ e.loop.msgs → TaskFrom e event ⟨job, .running⟩
  | moved : e.tasks[i]? = some t → TaskMove e t event phase → TaskFrom e (.task i event) ⟨t.job, phase⟩

section
variable {e e' : Engine} {event : Event} {call : Option Call}

theorem Stepped.tasks (stepped : Stepped e event e' call) {t : Task} (member : t ∈ e'.tasks) :
    TaskFrom e event t := by
  have moved {i : Nat} {event : TaskEvent} {old : Task} {phase : Phase} (at_ : e.tasks[i]? = some old)
      (move : TaskMove e old event phase) (member : t ∈ e.tasks.set i { old with phase }) :
      TaskFrom e (.task i event) t := by
    rcases List.mem_or_eq_of_mem_set member with kept | rfl
    · exact .kept kept
    · exact .moved at_ move
  have launched {job : Job} (there : job.msgs ⊆ e.loop.msgs) (member : t ∈ e.tasks ++ [⟨job, .running⟩]) :
      TaskFrom e event t := by
    rcases List.mem_append.mp member with kept | fresh
    · exact .kept kept
    · rw [List.mem_singleton.mp fresh]
      exact .launched there
  cases stepped with
  | launch at_ _ _ => exact launched (by simp [at_, Loop.msgs, Action.msgs]) member
  | launchHeld at_ _ => exact launched (by simp [at_, Loop.msgs]) member
  | returns at_ running => exact moved at_ (.returned running) member
  | resolve at_ returned => exact moved at_ (.resolved returned) member
  | ack at_ committing _ _ | commit at_ committing _ => exact moved at_ (.committed committing) member
  | finish at_ _ => exact .kept (List.mem_of_mem_eraseIdx member)
  | _ => exact .kept member

theorem TaskMove.messages {t : Task} {event : TaskEvent} {phase : Phase} (move : TaskMove e t event phase) :
    phase.rest ⊆ t.job.msgs ++ t.phase.rest := by
  cases move with
  | returned => exact List.nil_subset _
  | resolved => exact List.subset_append_left _ _
  | committed committing =>
    rw [committing]
    exact List.subset_append_of_subset_right _ (List.subset_cons_self _ _)

theorem mem_messages {m : InboundMessage} : m ∈ e.messages ↔
    m ∈ e.loop.msgs ∨ ∃ t ∈ e.tasks, m ∈ t.job.msgs ++ t.phase.rest := by
  simp [Engine.messages]

theorem mem_messages_task {i : Nat} {t : Task} {m : InboundMessage} (at_ : e.tasks[i]? = some t)
    (member : m ∈ t.job.msgs ++ t.phase.rest) : m ∈ e.messages :=
  mem_messages.mpr (Or.inr ⟨t,List.mem_of_getElem? at_,member⟩)

theorem mem_chunks {size rounds : Nat} {msgs chunk : List α} (member : chunk ∈ chunks size rounds msgs) :
    chunk ⊆ msgs := by
  induction rounds generalizing msgs with
  | zero => simp [chunks] at member
  | succ rounds ih =>
    cases msgs with
    | nil => simp [chunks] at member
    | cons m rest =>
      rw [chunks, List.mem_cons] at member
      · rcases member with rfl | later
        · exact List.take_subset _ _
        · exact List.Subset.trans (ih later) (List.drop_subset _ _)
      · simp

/-- The plan of a claim is about nothing but the claimed messages. -/
theorem mem_plan {r : Registry} {msgs : List InboundMessage} {order : List String} {action : Action}
    (member : action ∈ plan r msgs order) : action.msgs ⊆ msgs := by
  rcases List.mem_append.mp member with single | batched
  · obtain ⟨m,claimed,planned⟩ := List.mem_filterMap.mp single
    have only : action.msgs = [m] := by
      unfold singleAction at planned
      split at planned
      · cases planned; rfl
      · split at planned <;> cases planned
        rfl
    simpa [only] using claimed
  · obtain ⟨eventType,_,chunked⟩ := List.mem_flatMap.mp batched
    unfold batchActions at chunked
    split at chunked
    · cases chunked
    · obtain ⟨chunk,cut,rfl⟩ := List.mem_map.mp chunked
      exact List.Subset.trans (mem_chunks cut) (List.filter_subset_self _)

/-- The messages that the storage has just handed to the engine. -/
def Event.received : Event → List InboundMessage
  | .claimed msgs _ => msgs
  | _ => []

theorem Stepped.loop_messages (stepped : Stepped e event e' call) :
    e'.loop.msgs ⊆ e.loop.msgs ++ event.received := by
  cases stepped with
  | claimed =>
    intro m member
    obtain ⟨action,planned,named⟩ := List.mem_flatMap.mp member
    exact List.mem_append_right _ (mem_plan planned named)
  | idle | poll | notice | claimFailed | dispatched | wake | stop => exact List.nil_subset _
  | noHandler at_ | hold at_ | launch at_ | launchHeld at_ | released at_ | release at_ | abandon at_
  | abandonHeld at_ => simp [at_, Loop.msgs, Action.msgs, Engine.launch, Event.received]
  | _ => exact List.subset_append_left _ _

/-- An engine holds what it held before and what it has just been handed. -/
theorem Stepped.messages (stepped : Stepped e event e' call) :
    e'.messages ⊆ e.messages ++ event.received := by
  intro m member
  rcases mem_messages.mp member with looped | ⟨t,task,named⟩
  · rcases List.mem_append.mp (stepped.loop_messages looped) with held | fresh
    · exact List.mem_append_left _ (mem_messages.mpr (Or.inl held))
    · exact List.mem_append_right _ fresh
  · apply List.mem_append_left
    cases stepped.tasks task with
    | kept kept => exact mem_messages.mpr (Or.inr ⟨t,kept,named⟩)
    | launched there => exact mem_messages.mpr (Or.inl (there (by simpa [Phase.rest] using named)))
    | moved at_ move =>
      refine mem_messages_task at_ ?_
      rcases List.mem_append.mp named with own | left
      · exact List.mem_append_left _ own
      · exact move.messages left

end

end Tickr
