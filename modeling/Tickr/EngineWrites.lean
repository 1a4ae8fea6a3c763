import Tickr.EngineAcks
import Tickr.EnginePlan

/-! The completion writes that an engine owes. Every message that a claim hands it is owed
one write, which waits in the run loop, in a task, in the channel of the flusher or in its
buffer; every step owes, besides what it is handed, exactly what it does not write. -/
namespace Tickr

/-- What a completion write names: the message and the attempt. -/
abbrev Tag := MessageID × Int

def InboundMessage.tag (m : InboundMessage) : Tag := (m.id, m.attempt)

def BatchSucceedParam.tag (p : BatchSucceedParam) : Tag := (p.messageID, p.attempt)

def Call.writes : Call → List Tag
  | .succeed id attempt _ | .releaseShutdown id attempt _ _ => [(id, attempt)]
  | .batchSucceed params => params.map BatchSucceedParam.tag
  | .fail p => [(p.messageID, p.attempt)]
  | _ => []

/-- The writes of a task that are still to come. -/
def Task.owed (t : Task) : List Tag :=
  match t.phase with
  | .committing _ _ _ rest => rest.map InboundMessage.tag
  | _ => t.job.msgs.map InboundMessage.tag

/-- The messages whose completion nobody has decided on. -/
def Engine.pending (e : Engine) : List Tag :=
  e.loop.msgs.map InboundMessage.tag ++ e.tasks.flatMap Task.owed

def Engine.owed (e : Engine) : List Tag :=
  e.loop.msgs.map InboundMessage.tag ++ e.tasks.flatMap Task.owed ++
    (e.succeedCh.map BatchSucceedParam.tag ++ e.buf.map BatchSucceedParam.tag)

/-! ### Counting over a list of parts -/

section
variable {α β : Type} [BEq β] {l : List α} {i : Nat} {a : α} (parts : α → List β) (x : β)

theorem count_flatMap_erase (at_ : l[i]? = some a) :
    (l.flatMap parts).count x = (parts a).count x + ((l.eraseIdx i).flatMap parts).count x := by
  obtain ⟨bound,rfl⟩ := List.getElem?_eq_some_iff.mp at_
  rw [← ((List.getElem_cons_eraseIdx_perm bound).flatMap_right parts).count_eq, List.flatMap_cons, List.count_append]

theorem count_flatMap_set (at_ : l[i]? = some a) (b : α) :
    ((l.set i b).flatMap parts).count x = (parts b).count x + ((l.eraseIdx i).flatMap parts).count x := by
  obtain ⟨bound,rfl⟩ := List.getElem?_eq_some_iff.mp at_
  rw [((List.set_perm_cons_eraseIdx bound b).flatMap_right parts).count_eq, List.flatMap_cons, List.count_append]

end

/-! ### Steps -/

section
variable {e e' : Engine} {event : Event} {call : Option Call}

def writesOf (call : Option Call) : List Tag := call.elim [] Call.writes

/-- The write with which the poll goroutine or a handler goroutine completes a message. -/
def Call.completion : Call → List Tag
  | .succeed id attempt _ | .releaseShutdown id attempt _ _ => [(id, attempt)]
  | .fail p => [(p.messageID, p.attempt)]
  | _ => []

def completionsOf (call : Option Call) : List Tag := call.elim [] Call.completion

theorem count_writesOf (call : Option Call) (x : Tag) : (writesOf call).count x =
    (completionsOf call).count x + ((slicesOf call).flatten.map BatchSucceedParam.tag).count x := by
  cases call with
  | none => rfl
  | some c => cases c <;> simp [writesOf, completionsOf, slicesOf, Call.writes, Call.completion, Call.batchSucceed?]

theorem Engine.count_pending (e : Engine) (x : Tag) : e.pending.count x =
    (e.loop.msgs.map InboundMessage.tag).count x + (e.tasks.flatMap Task.owed).count x := by
  simp only [Engine.pending, List.count_append]

theorem completionsOf_flushed (e : Engine) : completionsOf e.flushed = [] := by
  unfold Engine.flushed
  split <;> rfl

theorem commitOutcome_completion {batchAcker : Bool} {workerID : String} {m : InboundMessage}
    {cfg : HandlerConfig} {err : Option GoError} {clock : Time} {nextDelay : Duration} {outcome : Outcome}
    {c : Call} (committed : commitOutcome batchAcker workerID m cfg err clock nextDelay outcome = some (.call c)) :
    c.completion = [m.tag] := by
  cases commitOutcome_committed committed <;> rfl

theorem commitOutcome_acks {batchAcker : Bool} {workerID : String} {m : InboundMessage}
    {cfg : HandlerConfig} {err : Option GoError} {clock : Time} {nextDelay : Duration} {outcome : Outcome}
    {p : BatchSucceedParam}
    (committed : commitOutcome batchAcker workerID m cfg err clock nextDelay outcome = some (.ack p)) :
    p.tag = m.tag := by
  cases commitOutcome_committed committed
  rfl

/-- What is undecided after a step, together with what the step completed, was undecided
before or has just been handed over. -/
theorem Stepped.pending (stepped : Stepped e event e' call) (x : Tag) :
    e'.pending.count x + ((e.posts event).map BatchSucceedParam.tag).count x + (completionsOf call).count x =
      e.pending.count x + (event.received.map InboundMessage.tag).count x := by
  simp only [Engine.count_pending]
  -- the other parts of the engine, where only one task changes
  have replaced {i : Nat} {t : Task} (at_ : e.tasks[i]? = some t) (phase : Phase) :
      ((e.tasks.set i { t with phase }).flatMap Task.owed).count x + t.owed.count x =
        (e.tasks.flatMap Task.owed).count x + (Task.owed { t with phase }).count x := by
    rw [count_flatMap_set Task.owed x at_, count_flatMap_erase Task.owed x at_]
    omega
  cases stepped with
  | claimed at_ ranged =>
    have planned := ((plan_perm (ranged_of_isPerm ranged)).map InboundMessage.tag).count_eq x
    simp only [at_, Loop.msgs, Event.received, Engine.posts, Engine.commits, completionsOf, Option.elim, Call.completion,
      Option.bind_none, Option.toList_none, List.map_nil, List.count_nil, planned]
    omega
  | noHandler at_ | release at_ =>
    simp only [at_, Loop.msgs, Action.msgs, Engine.posts, Engine.commits, List.flatMap_cons, List.map_append,
      List.map_cons, List.map_nil, List.cons_append, List.nil_append, List.count_cons, List.count_append, List.count_nil,
      completionsOf, Option.elim, Option.bind_none, Option.toList_none, Call.completion, noHandlerParams,
      InboundMessage.tag, Event.received]
    omega
  | hold at_ | released at_ | abandon at_ | abandonHeld at_ =>
    simp [at_, Loop.msgs, Action.msgs, Engine.posts, Engine.commits, completionsOf, Event.received]
  | launch at_ | launchHeld at_ =>
    simp only [at_, Loop.msgs, Action.msgs, Engine.launch, Engine.posts, Engine.commits, List.flatMap_cons,
      List.flatMap_append, List.flatMap_nil, List.map_append, List.map_nil, List.append_nil,
      List.count_append, List.count_nil, completionsOf, Option.elim, Option.bind_none, Option.toList_none,
      Task.owed, Event.received]
    omega
  | @returns i t behaviour at_ running =>
    have moved := replaced at_ (.returned (t.job.invoke behaviour) e.ctxDone)
    simp only [Task.owed, running] at moved
    simp only [Engine.setPhase, Engine.posts, Engine.commits, completionsOf, Option.elim, Option.bind_none,
      Option.toList_none, List.map_nil, List.count_nil, Event.received]
    omega
  | @resolve i t err late at_ returned =>
    have moved := replaced at_ (.committing err late (resolveOutcome e.ctxDone e.stopping err) t.job.msgs)
    simp only [Task.owed, returned] at moved
    simp only [Engine.setPhase, Engine.posts, Engine.commits, completionsOf, Option.elim, Option.bind_none,
      Option.toList_none, List.map_nil, List.count_nil, Event.received]
    omega
  | @ack i t m err clock nextDelay outcome p late rest at_ committing committed _ =>
    have moved := replaced at_ (.committing err late outcome rest)
    simp only [Task.owed, committing, List.map_cons, List.count_cons] at moved
    simp only [Engine.setPhase, Engine.posts, Engine.commits, at_, Option.bind_some, committing, committed, Commit.ack?,
      Option.toList_some, completionsOf, Option.elim, List.map_cons, List.map_nil, List.count_cons, List.count_nil,
      commitOutcome_acks committed, Event.received]
    omega
  | @commit i t m err clock nextDelay outcome c late rest at_ committing committed =>
    have moved := replaced at_ (.committing err late outcome rest)
    simp only [Task.owed, committing, List.map_cons, List.count_cons] at moved
    simp only [Engine.setPhase, Engine.posts, Engine.commits, at_, Option.bind_some, committing, committed, Commit.ack?,
      Option.toList_none, completionsOf, Option.elim, commitOutcome_completion committed, List.map_nil, List.count_cons,
      List.count_nil, Event.received]
    omega
  | finish at_ committing =>
    rw [count_flatMap_erase Task.owed x at_]
    simp only [Task.owed, committing, Engine.posts, Engine.commits, completionsOf, Option.elim, Option.bind_none,
      Option.toList_none, List.map_nil, List.count_nil, Event.received]
    omega
  | flush | exit =>
    simp only [completionsOf_flushed, Engine.posts, Engine.commits, Option.bind_none, Option.toList_none, List.map_nil,
      List.count_nil, Event.received]
  | notice at_ =>
    rcases at_ with at_ | at_ <;>
      simp [at_, Loop.msgs, Engine.posts, Engine.commits, completionsOf, Event.received]
  | idle at_ | poll at_ | claimFailed at_ | dispatched at_ | wake at_ | stop at_ =>
    simp [at_, Loop.msgs, Engine.posts, Engine.commits, completionsOf, Call.completion, Event.received]
  | cancel | extend | close | receive =>
    simp [Engine.posts, Engine.commits, completionsOf, Call.completion, Event.received]

/-- What is owed after a step, together with what the step wrote, was owed before or has
just been handed over. -/
theorem Stepped.owed (stepped : Stepped e event e' call) (x : Tag) :
    e'.owed.count x + (writesOf call).count x = e.owed.count x + (event.received.map InboundMessage.tag).count x := by
  have undecided := stepped.pending x
  have channel := congrArg (fun l => (l.map BatchSucceedParam.tag).count x) stepped.channel
  have buffer := congrArg (fun l => (l.map BatchSucceedParam.tag).count x) stepped.buffer
  simp only [List.map_append, List.count_append] at channel buffer
  have split (e : Engine) : e.owed.count x = e.pending.count x +
      ((e.succeedCh.map BatchSucceedParam.tag).count x + (e.buf.map BatchSucceedParam.tag).count x) := by
    simp only [Engine.owed, Engine.pending, List.count_append]
  rw [split, split, count_writesOf]
  omega

end

end Tickr
