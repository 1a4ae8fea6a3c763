import Tickr.FleetQueue
import Tickr.FleetSuccess
import Tickr.TypedHandlers

/-! A fleet that handles one event type behind a decoder. What an engine decides about a message
it decides on the payload that it holds, which is that of the row for as long as ids are not
used twice; so no malformed row is ever acknowledged or put back by a failure, across crashes,
late writes and batches of any make-up. -/
namespace Tickr

open Transition Postgres

variable {pg : Postgres.Config}

/-- The content of the row that `id` names, if there is one. -/
def ContentAt (s : Store pg) (id : MessageID) (property : Content → Prop) : Prop :=
  ∀ k r, id = .uuid k → s.row k = some r → property r.content

theorem Postgres.RowStep.content {env : Env} {k : Uuid} {call : Call} {r r' : Row}
    (step : RowStep env k call (some r) (some r')) : r'.content = r.content :=
  congrArg (fun i : Identity => (⟨i.eventType, i.payload, i.headers, i.idempotencyKey.getD "", i.maxAttempts⟩ : Content))
    step.identity

section
variable {s : Store pg} {env : Env} {call : Call} {id : MessageID} {property : Content → Prop}

theorem ContentAt.exec (content : ContentAt s id property)
    (fresh : ∀ k, id = .uuid k → s.row k = none → (Postgres.exec s env call).1.row k = none) :
    ContentAt (Postgres.exec s env call).1 id property := by
  intro k r' named found
  have step := exec_row s env call k
  rw [found] at step
  cases before : s.row k with
  | none => cases found.symm.trans (fresh k named before)
  | some r =>
    rw [before] at step
    rw [step.content]
    exact content k r named before

theorem ContentAt.imp {other : Content → Prop} (content : ContentAt s id property)
    (implies : ∀ a, property a → other a) : ContentAt s id other :=
  fun k r named found => implies _ (content k r named found)

theorem claim_content {p : ClaimParams} {m : InboundMessage} (returned : m ∈ (claim s env p).2) :
    ContentAt (claim s env p).1 m.id (m.content = ·) := by
  obtain ⟨statement,chosen,spec⟩ := claim_spec s env p
  obtain ⟨k,_,r,found,rfl⟩ := (spec.returned m).mp returned
  intro k' r' named found'
  have same : k = k' := (Store.row_id found).symm.trans (MessageID.uuid.inj named)
  subst same
  have step := exec_row s env (.claim p) k
  rw [found, show (Postgres.exec s env (.claim p)).1.row k = some r' from found'] at step
  exact step.content.symm

end

section
variable {T : Type} (c : BodyCodec T) (kind : String)

/-- A message of the type decodes. -/
def Accepted (content : Content) : Prop := content.eventType = kind → c.malformed content.payload = false

/-- The result of an invocation that was given a malformed message. -/
def Refuses (job : Job) (err : Option GoError) : Prop :=
  (∃ m ∈ job.msgs, ¬Accepted c kind m.content) → ∃ e, err = some e ∧ isDeadLetter e = true ∧ isSkip e = false

def Judged (job : Job) : Phase → Prop
  | .running => True
  | .returned err _ => Refuses c kind job err
  | .committing err _ outcome rest => Refuses c kind job err ∧ rest ⊆ job.msgs ∧
      (outcome = .success → ∀ e, err = some e → isSkip e = true)

/-- A write that acknowledges or retries names no malformed row. -/
structure Proper (s : Store pg) (call : Call) : Prop where
  acks : ∀ a ∈ call.acks, ContentAt s a.1 (Accepted c kind)
  retries : ∀ p, call = .fail p → p.dead = false → ContentAt s p.messageID (Accepted c kind)

/-- Every invocation that is given a message of the type is one of the typed handler. -/
def Decodes (shown : MessageID → String) (f : Fleet pg) (label : FleetLabel) : Prop :=
  ∀ (i j : Nat) behaviour sent e t, label = .engine i (.task j (.returns behaviour)) sent → f.engines[i]? = some e →
    e.tasks[j]? = some t → (∃ m ∈ t.job.msgs, m.type = kind) → Typed c shown t.job behaviour

variable {c kind}

theorem not_accepted {content : Content} (refused : ¬Accepted c kind content) :
    content.eventType = kind ∧ c.malformed content.payload = true := by
  unfold Accepted at refused
  rw [Classical.not_imp, Bool.not_eq_false] at refused
  exact refused

/-! ### Inside one engine -/

section
variable {e e' : Engine} {event : Event} {call : Option Call}

theorem Typed.refuses {shown : MessageID → String} {job : Job} {behaviour : Behaviour}
    (typed : (∃ m ∈ job.msgs, m.type = kind) → Typed c shown job behaviour) :
    Refuses c kind job (job.invoke behaviour) := by
  rintro ⟨m,member,refused⟩
  obtain ⟨type,bad⟩ := not_accepted refused
  exact (typed ⟨m,member,type⟩).refused (List.any_eq_true.mpr ⟨m,member,bad⟩)

theorem TaskMove.judged {shown : MessageID → String} {t : Task} {event : TaskEvent} {phase : Phase}
    (move : TaskMove e t event phase) (judged : Judged c kind t.job t.phase)
    (typed : ∀ behaviour, event = .returns behaviour → (∃ m ∈ t.job.msgs, m.type = kind) → Typed c shown t.job behaviour) :
    Judged c kind t.job phase := by
  cases move with
  | returned => exact Typed.refuses (typed _ rfl)
  | resolved returned =>
    rw [returned] at judged
    exact ⟨judged,List.Subset.refl _,resolveOutcome_success.mp⟩
  | committed committing =>
    rw [committing] at judged
    obtain ⟨refuses,own,good⟩ := judged
    exact ⟨refuses,List.Subset.trans (List.subset_cons_self _ _) own,good⟩

theorem Stepped.judged {shown : MessageID → String} (stepped : Stepped e event e' call)
    (judged : ∀ t ∈ e.tasks, Judged c kind t.job t.phase)
    (typed : ∀ (j : Nat) behaviour t, event = .task j (.returns behaviour) → e.tasks[j]? = some t →
      (∃ m ∈ t.job.msgs, m.type = kind) → Typed c shown t.job behaviour) :
    ∀ t ∈ e'.tasks, Judged c kind t.job t.phase := by
  intro t member
  cases stepped.tasks member with
  | kept kept => exact judged t kept
  | launched => trivial
  | moved at_ move =>
    exact move.judged (judged _ (List.mem_of_getElem? at_)) fun behaviour is => typed _ behaviour _ (is ▸ rfl) at_

/-- A task that acknowledges was given nothing malformed. -/
theorem Judged.success {job : Job} {err : Option GoError} {late : Bool} {rest : List InboundMessage}
    (judged : Judged c kind job (.committing err late .success rest)) :
    ∀ m ∈ job.msgs, Accepted c kind m.content := by
  intro m member
  by_contra refused
  obtain ⟨e,is,_,unskipped⟩ := judged.1 ⟨m,member,refused⟩
  cases unskipped.symm.trans (judged.2.2 rfl e is)

/-- A task that retries was given nothing malformed either. -/
theorem Judged.retry {job : Job} {err : GoError} {late : Bool} {outcome : Outcome} {rest : List InboundMessage}
    (judged : Judged c kind job (.committing (some err) late outcome rest)) {cfg : HandlerConfig} {m' : InboundMessage}
    (alive : deadAfter m' cfg err outcome = false) : ∀ m ∈ job.msgs, Accepted c kind m.content := by
  intro m member
  by_contra refused
  obtain ⟨e,is,dead,_⟩ := judged.1 ⟨m,member,refused⟩
  cases is
  rw [deadAfter, dead] at alive
  simp at alive

theorem commitOutcome_fail {batchAcker : Bool} {workerID : String} {m : InboundMessage} {cfg : HandlerConfig}
    {err : Option GoError} {clock : Time} {nextDelay : Duration} {outcome : Outcome} {p : FailParams}
    (committed : commitOutcome batchAcker workerID m cfg err clock nextDelay outcome = some (.call (.fail p))) :
    ∃ failure, err = some failure ∧ p = failParams workerID m cfg failure outcome clock nextDelay := by
  cases outcome with
  | success => cases batchAcker <;> cases committed
  | canceled => cases committed
  | retry | dead =>
    obtain ⟨failure,is,same⟩ := Option.map_eq_some_iff.mp committed
    cases same
    exact ⟨failure,is,rfl⟩

section
variable {s : Store pg} (judged : ∀ t ∈ e.tasks, Judged c kind t.job t.phase)
  (held : ∀ m ∈ e.messages, ContentAt s m.id (m.content = ·))
  (unsent : ∀ p ∈ e.succeedCh ++ e.buf, ContentAt s p.messageID (Accepted c kind))
include judged held

/-- What a task commits for its next message, if nothing malformed is among its messages. -/
theorem committing_accepted {i : Nat} {t : Task} {err : Option GoError} {late : Bool} {outcome : Outcome}
    {m : InboundMessage} {rest : List InboundMessage} (at_ : e.tasks[i]? = some t)
    (committing : t.phase = .committing err late outcome (m :: rest))
    (all : Judged c kind t.job (.committing err late outcome (m :: rest)) → ∀ m ∈ t.job.msgs, Accepted c kind m.content) :
    ContentAt s m.id (Accepted c kind) := by
  have known := judged t (List.mem_of_getElem? at_)
  rw [committing] at known
  have own : m ∈ t.job.msgs := known.2.1 List.mem_cons_self
  have accepted := all known m own
  refine (held m (mem_messages_task at_ (List.mem_append_left _ own))).imp fun content is => ?_
  rw [← is]
  exact accepted

include unsent

theorem Stepped.proper {called : Call} (stepped : Stepped e event e' call) (calls : call = some called) :
    Proper c kind s called := by
  cases stepped with
  | claimed | claimFailed | release | extend =>
    cases calls
    exact ⟨by simp [Call.acks],by simp⟩
  | noHandler =>
    cases calls
    refine ⟨by simp [Call.acks],fun p same alive => ?_⟩
    cases same
    cases alive
  | commit at_ committing committed =>
    cases calls
    constructor
    · intro a acked
      cases commitOutcome_committed committed with
      | succeed =>
        rw [List.mem_singleton.mp acked]
        exact committing_accepted judged held at_ committing Judged.success
      | release | fail => cases acked
    · intro p same alive
      subst same
      obtain ⟨failure,rfl,rfl⟩ := commitOutcome_fail committed
      exact committing_accepted judged held at_ committing fun known => known.retry alive
  | flush | exit =>
    rw [Engine.flushed_eq calls]
    refine ⟨fun a acked => ?_,by simp⟩
    obtain ⟨p,member,rfl⟩ := List.mem_map.mp acked
    exact unsent p (List.mem_append_right _ member)
  | _ => cases calls

theorem Stepped.keeps_unsent (stepped : Stepped e event e' call) :
    ∀ p ∈ e'.succeedCh ++ e'.buf, ContentAt s p.messageID (Accepted c kind) := by
  intro p member
  cases stepped with
  | ack at_ committing committed =>
    rcases List.mem_append.mp member with posted | buffered
    · rcases List.mem_append.mp posted with old | new
      · exact unsent p (List.mem_append_left _ old)
      · rw [List.mem_singleton.mp new]
        cases commitOutcome_committed committed
        exact committing_accepted judged held at_ committing Judged.success
    · exact unsent p (List.mem_append_right _ buffered)
  | receive posted =>
    rcases List.mem_append.mp member with waiting | buffered
    · exact unsent p (List.mem_append_left _ (posted ▸ List.mem_cons_of_mem _ waiting))
    · rcases List.mem_append.mp buffered with old | new
      · exact unsent p (List.mem_append_right _ old)
      · rw [List.mem_singleton.mp new]
        exact unsent _ (List.mem_append_left _ (posted ▸ List.mem_cons_self))
  | flush | exit =>
    rcases List.mem_append.mp member with posted | buffered
    · exact unsent p (List.mem_append_left _ posted)
    · cases buffered
  | _ => exact unsent p member

end

end

/-! ### The fleet -/

/-- The acknowledgements that wait in the engines. -/
def Fleet.unsent (f : Fleet pg) : List MessageID :=
  f.engines.flatMap fun e => (e.succeedCh ++ e.buf).map BatchSucceedParam.messageID

/-- A generated id is not one that anybody in the fleet still refers to. -/
def NewIDs (f : Fleet pg) (label : FleetLabel) : Prop :=
  ∀ id ∈ label.generated, MessageID.uuid id ∉ f.mentions ++ f.unsent

instance (f : Fleet pg) (label : FleetLabel) : Decidable (NewIDs f label) :=
  inferInstanceAs (Decidable (∀ id ∈ _, _))

variable (c kind) in
structure Screened (f : Fleet pg) : Prop where
  rows : ∀ k r, f.store.row k = some r → r.status = .success → Accepted c kind r.content
  held : ∀ e ∈ f.engines, ∀ m ∈ e.messages, ContentAt f.store m.id (m.content = ·)
  tasks : ∀ e ∈ f.engines, ∀ t ∈ e.tasks, Judged c kind t.job t.phase
  unsent : ∀ e ∈ f.engines, ∀ p ∈ e.succeedCh ++ e.buf, ContentAt f.store p.messageID (Accepted c kind)
  wire : ∀ call ∈ f.wire, call.issued = true ∧ Proper c kind f.store call

section
variable {f f' : Fleet pg} {env : Env} {call : Call} {label : FleetLabel}

theorem newFleet_screened : Screened c kind (newFleet : Fleet pg) where
  rows := by simp [newFleet]
  held := by simp [newFleet]
  tasks := by simp [newFleet]
  unsent := by simp [newFleet]
  wire := by simp [newFleet]

theorem Call.acks_named {a : MessageID × Int} (acked : a ∈ call.acks) : a.1 ∈ call.named := by
  cases call with
  | succeed =>
    rw [List.mem_singleton.mp acked]
    exact List.mem_singleton.mpr rfl
  | batchSucceed params =>
    obtain ⟨p,member,rfl⟩ := List.mem_map.mp acked
    exact List.mem_map_of_mem member
  | _ => cases acked

theorem Proper.exec {other : Call} (proper : Proper c kind f.store other)
    (fresh : ∀ k, .uuid k ∈ other.named → f.store.row k = none → (Postgres.exec f.store env call).1.row k = none) :
    Proper c kind (Postgres.exec f.store env call).1 other where
  acks a acked := (proper.acks a acked).exec fun k named => fresh k (named ▸ Call.acks_named acked)
  retries p same alive := by
    subst same
    exact (proper.retries p rfl alive).exec fun k named => fresh k (named ▸ List.mem_singleton.mpr rfl)

theorem Screened.exec (screened : Screened c kind f) (proper : Proper c kind f.store call)
    (fresh : ∀ k, .uuid k ∈ f.mentions ++ f.unsent → f.store.row k = none →
      (Postgres.exec f.store env call).1.row k = none) : Screened c kind (f.exec env call) where
  rows := by
    intro k r' found success
    have step := exec_row f.store env call k
    rw [show (Postgres.exec f.store env call).1.row k = some r' from found] at step
    rcases step.succeeded success with before | acked
    · exact screened.rows k r' before success
    · cases before : f.store.row k with
      | none =>
        rw [before] at step
        cases step <;> cases success
      | some r =>
        rw [before] at step
        rw [step.content]
        exact proper.acks _ acked k r rfl before
  held e engine m held := (screened.held e engine m held).exec fun k named =>
    fresh k (List.mem_append_left _ (named ▸ mem_mentions_held engine held))
  tasks := screened.tasks
  unsent e engine p member := (screened.unsent e engine p member).exec fun k named =>
    fresh k (List.mem_append_right _ (named ▸ List.mem_flatMap.mpr ⟨e,engine,List.mem_map_of_mem member⟩))
  wire other there := by
    obtain ⟨issued,proper⟩ := screened.wire other there
    refine ⟨issued,proper.exec fun k named => fresh k (List.mem_append_left _ ?_)⟩
    exact List.mem_append_right _ (List.mem_flatMap.mpr ⟨other,there,named⟩)

theorem Screened.exec_issued (screened : Screened c kind f) (issued : call.issued = true)
    (proper : Proper c kind f.store call) : Screened c kind (f.exec env call) :=
  screened.exec proper fun _ _ => exec_keeps_absent issued

theorem Screened.move {i : Nat} {e e' : Engine} {event : Event} (screened : Screened c kind f)
    (held : ∀ m ∈ e'.messages, ContentAt f.store m.id (m.content = ·))
    (tasks : ∀ t ∈ e'.tasks, Judged c kind t.job t.phase)
    (unsent : ∀ p ∈ e'.succeedCh ++ e'.buf, ContentAt f.store p.messageID (Accepted c kind)) :
    Screened c kind (f.move i e e' event) where
  rows := screened.rows
  held other engine := by
    rcases List.mem_or_eq_of_mem_set engine with kept | rfl
    · exact screened.held other kept
    · exact held
  tasks other engine := by
    rcases List.mem_or_eq_of_mem_set engine with kept | rfl
    · exact screened.tasks other kept
    · exact tasks
  unsent other engine := by
    rcases List.mem_or_eq_of_mem_set engine with kept | rfl
    · exact screened.unsent other kept
    · exact unsent
  wire := screened.wire

theorem Advanced.screened {shown : MessageID → String} (advanced : Advanced f label f') (screened : Screened c kind f)
    (decodes : Decodes c kind shown f label) (fresh : NewIDs f label) : Screened c kind f' := by
  cases advanced with
  | start =>
    have each {property : Engine → Prop} {cfg : EngineConfig} (old : ∀ e ∈ f.engines, property e) (new : property (newEngine cfg)) :
        ∀ e ∈ f.engines ++ [newEngine cfg], property e := by
      intro e engine
      rcases List.mem_append.mp engine with kept | added
      · exact old e kept
      · rw [List.mem_singleton.mp added]
        exact new
    exact ⟨screened.rows,each screened.held (by simp [newEngine, Engine.messages, Loop.msgs]),
      each screened.tasks (by simp [newEngine]),each screened.unsent (by simp [newEngine]),screened.wire⟩
  | crash =>
    exact ⟨screened.rows,fun e engine => screened.held e (List.mem_of_mem_eraseIdx engine),
      fun e engine => screened.tasks e (List.mem_of_mem_eraseIdx engine),
      fun e engine => screened.unsent e (List.mem_of_mem_eraseIdx engine),screened.wire⟩
  | @operate env op =>
    refine screened.exec ⟨fun a acked => ?_,fun p same => ?_⟩ fun k mentioned absent => ?_
    · cases op <;> cases acked
    · cases op <;> cases same
    · by_contra present
      exact fresh k (operation_minted f.store env op k absent present) mentioned
  | @arrive j call env there =>
    obtain ⟨issued,proper⟩ := screened.wire call (List.mem_of_getElem? there)
    refine Screened.exec_issued (f := { f with wire := f.wire.eraseIdx j }) ?_ issued proper
    exact ⟨screened.rows,screened.held,screened.tasks,screened.unsent,
      fun call there => screened.wire call (List.mem_of_mem_eraseIdx there)⟩
  | @silent i e event e' sent at_ stepped =>
    have engine := List.mem_of_getElem? at_
    have judged := stepped.judged (screened.tasks e engine) fun j behaviour t is at_task =>
      decodes i j behaviour sent e t (is ▸ rfl) at_ at_task
    have unsent := stepped.keeps_unsent (screened.tasks e engine) (screened.held e engine) (screened.unsent e engine)
    refine screened.move (fun m member => ?_) judged unsent
    have held := stepped.messages member
    rw [stepped.received_of_silent rfl, List.append_nil] at held
    exact screened.held e engine m held
  | @answered i e event e' call env at_ stepped answered =>
    have engine := List.mem_of_getElem? at_
    have proper := stepped.proper (screened.tasks e engine) (screened.held e engine) (screened.unsent e engine) rfl
    have executed : Screened c kind (f.exec env call) := screened.exec_issued (stepped.issued rfl) proper
    have judged := stepped.judged (screened.tasks e engine) fun j behaviour t is at_task =>
      decodes i j behaviour (some env) e t (is ▸ rfl) at_ at_task
    have unsent := stepped.keeps_unsent (executed.tasks e engine) (executed.held e engine) (executed.unsent e engine)
    refine executed.move (fun m member => ?_) judged unsent
    rcases List.mem_append.mp (stepped.messages member) with held | received
    · exact executed.held e engine m held
    · rcases stepped.received_of_answered rfl answered with nothing | ⟨p,rfl,claimed⟩
      · rw [nothing] at received
        cases received
      · exact claim_content (claimed ▸ received)
  | @delayed i e event e' call at_ stepped unanswered =>
    have engine := List.mem_of_getElem? at_
    have proper := stepped.proper (screened.tasks e engine) (screened.held e engine) (screened.unsent e engine) rfl
    have judged := stepped.judged (screened.tasks e engine) fun j behaviour t is at_task =>
      decodes i j behaviour none e t (is ▸ rfl) at_ at_task
    have unsent := stepped.keeps_unsent (screened.tasks e engine) (screened.held e engine) (screened.unsent e engine)
    have moved : Screened c kind (f.move i e e' event) := screened.move (fun m member => by
      have held := stepped.messages member
      rw [Event.received_of_unanswered unanswered, List.append_nil] at held
      exact screened.held e engine m held) judged unsent
    refine ⟨moved.rows,moved.held,moved.tasks,moved.unsent,fun call there => ?_⟩
    rcases List.mem_append.mp there with old | new
    · exact screened.wire call old
    · rw [List.mem_singleton.mp new]
      exact ⟨stepped.issued rfl,proper⟩

theorem Screened.called (screened : Screened c kind f) (reaches : (env, call) ∈ f.calls label) :
    Proper c kind f.store call := by
  rcases Fleet.calls_origin reaches with ⟨op,rfl⟩ | wired | ⟨e,engine,event,e',stepped⟩
  · refine ⟨fun a acked => ?_,fun p same => ?_⟩
    · cases op <;> cases acked
    · cases op <;> cases same
  · exact (screened.wire call wired).2
  · exact stepped.proper (screened.tasks e engine) (screened.held e engine) (screened.unsent e engine) rfl

end

/-- In every state of every run, a malformed message of the type is not SUCCESS, and a failure
that is written for it makes it DEAD: it is not retried, whatever its attempts. -/
theorem malformed_never_acknowledged (c : BodyCodec T) (kind : String) (shown : MessageID → String)
    (trace : List FleetLabel) (f : Fleet pg) (run : (fleetSystem pg).run newFleet trace = some f)
    (decodes : (fleetSystem pg).Along (Decodes c kind shown) newFleet trace)
    (fresh : (fleetSystem pg).Along NewIDs newFleet trace) :
    ∀ r ∈ f.store.messages.rows, r.eventType = kind → c.malformed r.payload = true →
      r.status ≠ .success ∧
      ∀ label env p, (env, .fail p) ∈ f.calls label → p.messageID = .uuid r.id → p.dead = true := by
  have screened : Screened c kind f := by
    refine System.invariant (fun f label => Decodes c kind shown f label ∧ NewIDs f label) (Screened c kind) ?_ run
      (decodes.and fresh) newFleet_screened
    intro f label f' screened condition step
    exact (Fleet.step_advanced step).screened screened condition.1 condition.2
  intro r member typed bad
  have found := Store.row_of_mem member
  have refused : ¬Accepted c kind r.content := fun accepted => Bool.false_ne_true ((accepted typed).symm.trans bad)
  refine ⟨fun success => refused (screened.rows r.id r found success),fun label env p reaches named => ?_⟩
  by_contra alive
  have retried := (screened.called reaches).retries p rfl (Bool.eq_false_of_not_eq_true alive)
  exact refused (retried r.id r named found)

end

/-! ### A torn letter -/

def FleetLabel.returning : FleetLabel → Bool
  | .engine _ (.task _ (.returns _)) _ => true
  | _ => false

theorem along_decodes {T : Type} {c : BodyCodec T} {kind : String} {shown : MessageID → String} {f : Fleet pg}
    {trace : List FleetLabel} (quiet : ∀ label ∈ trace, label.returning = false) :
    (fleetSystem pg).Along (Decodes c kind shown) f trace := by
  refine (System.along_labels quiet).mono fun f label other => ?_
  rintro i j behaviour sent e t rfl
  cases other

/-- Two letters of one batch, of which the second is torn. -/
def letterParams (payload : Payload) : EnqueueParams := ⟨"mail", some payload, [], "", 3, some 0⟩

def tornRow (payload : Payload) (i : Nat) : Row :=
  claimSet 6 "w" 30 (enqueueRow (Env.quiet 5 7) i (letterParams payload))

def tornLetters : List InboundMessage := [scanMessage (tornRow [123, 125] 0), scanMessage (tornRow [123] 1)]

def bulkMailer : EngineConfig := ⟨inPairs, "w", 10, 1, 30 * Duration.second, true⟩

def beforeReturn : List FleetLabel :=
  [.start bulkMailer, .operate (Env.quiet 5 7) (.enqueueBatch [letterParams [123, 125], letterParams [123]]),
   .engine 0 .poll none, .engine 0 (.claimed tornLetters ["mail"]) (some (Env.quiet 6 0)), .engine 0 .dispatch none]

def refusal : Behaviour := wrapBatchJSON braces (fun _ => "id") (fun _ => .returns none) tornLetters

/-- Both writes of the batch reach the store. -/
def afterReturn : List FleetLabel :=
  [.engine 0 (.task 0 .resolve) none, .engine 0 (.task 0 (.commit 8 0)) (some (Env.quiet 9 0)),
   .engine 0 (.task 0 (.commit 8 0)) (some (Env.quiet 9 0))]

theorem malformed_never_acknowledged_torn :
    ∃ f, (fleetSystem ⟨false, .full⟩).run newFleet
        (beforeReturn ++ .engine 0 (.task 0 (.returns refusal)) none :: afterReturn) = some f ∧
      f.store.messages.rows.map (fun r => (r.id, r.status, r.attempt)) = [(7, .dead, 1), (8, .dead, 1)] ∧
      ∀ r ∈ f.store.messages.rows, r.eventType = "mail" → braces.malformed r.payload = true → r.status ≠ .success := by
  have run : ∃ f, (fleetSystem ⟨false, .full⟩).run newFleet beforeReturn = some f ∧
      ∀ e t, f.engines[0]? = some e → e.tasks[0]? = some t → t.job.msgs = tornLetters := by
    refine ⟨_,rfl,?_⟩
    rintro e t ⟨⟩ ⟨⟩
    rfl
  obtain ⟨f,before,given⟩ := run
  have decodes : (fleetSystem ⟨false, .full⟩).Along (Decodes braces "mail" fun _ => "id") newFleet
      (beforeReturn ++ .engine 0 (.task 0 (.returns refusal)) none :: afterReturn) := by
    refine (along_decodes (by decide)).append before ⟨?_,fun _ _ => along_decodes (by decide)⟩
    rintro i j behaviour sent e t ⟨⟩ engine task _
    have typed : Typed braces (fun _ => "id") t.job
        (wrapBatchJSON braces (fun _ => "id") (fun _ => .returns none) t.job.msgs) := .batch fun _ => .returns none
    rw [given e t engine task] at typed
    exact typed
  refine ⟨_,rfl,by decide +kernel,fun r member type bad => ?_⟩
  exact (malformed_never_acknowledged braces "mail" (fun _ => "id") _ _ rfl decodes (by decide +kernel) r member type bad).1

end Tickr
