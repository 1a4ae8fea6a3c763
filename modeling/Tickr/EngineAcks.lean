import Tickr.EngineShutdown

/-! The way of an acknowledgement from the handler goroutine that posts it through the
channel and the flusher's buffer to BatchSucceed. The channel and the buffer are queues, so
what goes in comes out in order; at the end of life the wait group, the close of the channel
and the final flush follow each other. -/
namespace Tickr

open Transition

/-! ### What a step does to an acknowledgement -/

/-- What the step decides for the next message of its task. -/
def Engine.commits (e : Engine) : Event → Option Commit
  | .task i (.commit clock nextDelay) => e.tasks[i]?.bind fun t =>
    match t.phase with
    | .committing err _ outcome (m :: _) =>
      commitOutcome e.cfg.batchAcker e.cfg.workerID m t.job.reg.cfg err clock nextDelay outcome
    | _ => none
  | _ => none

def Commit.ack? : Commit → Option BatchSucceedParam
  | .ack p => some p
  | .call _ => none

/-- The acknowledgement that a handler goroutine sends to `succeedCh`. -/
def Engine.posts (e : Engine) (event : Event) : List BatchSucceedParam :=
  ((e.commits event).bind Commit.ack?).toList

/-- The acknowledgement that the flusher receives. -/
def Engine.receives (e : Engine) : Event → List BatchSucceedParam
  | .receive => e.succeedCh.head?.toList
  | _ => []

def Call.batchSucceed? : Call → Option (List BatchSucceedParam)
  | .batchSucceed params => some params
  | _ => none

def slicesOf (call : Option Call) : List (List BatchSucceedParam) := (call.bind Call.batchSucceed?).toList

/-- The slice that the step passes to BatchSucceed. -/
def Engine.passes (e : Engine) (event : Event) : List (List BatchSucceedParam) :=
  slicesOf ((e.step event).bind Prod.snd)

/-- `drain` returns nil: the wait group is empty and, if there is one, the flusher is done. -/
def Engine.drainsNil (e : Engine) : Prop :=
  e.loop = .drained ∧ e.tasks = [] ∧ (e.cfg.batchAcker = true → e.flusherDone = true)

section
variable {e e' : Engine} {event : Event} {call : Option Call}

theorem Engine.passes_eq (step : e.step event = some (e', call)) : e.passes event = slicesOf call := by
  rw [Engine.passes, step]
  rfl

theorem slicesOf_flushed (e : Engine) : slicesOf e.flushed = if e.buf = [] then [] else [e.buf] := by
  unfold Engine.flushed
  split <;> rfl

/-- A handler goroutine writes for one message at a time. -/
theorem slicesOf_commit {batchAcker : Bool} {workerID : String} {m : InboundMessage}
    {cfg : HandlerConfig} {err : Option GoError} {clock : Time} {nextDelay : Duration} {outcome : Outcome}
    {c : Call} (committed : commitOutcome batchAcker workerID m cfg err clock nextDelay outcome = some (.call c)) :
    slicesOf (some c) = [] := by
  cases commitOutcome_committed committed <;> rfl

/-- The channel: what was in it and what is posted, is received or stays. -/
theorem Stepped.channel (stepped : Stepped e event e' call) :
    e.succeedCh ++ e.posts event = e.receives event ++ e'.succeedCh := by
  cases stepped with
  | ack at_ committing committed _ =>
    simp [Engine.posts, Engine.commits, at_, committing, committed, Commit.ack?, Engine.receives]
  | commit at_ committing committed =>
    simp [Engine.posts, Engine.commits, at_, committing, committed, Commit.ack?, Engine.receives, Engine.setPhase]
  | receive at_ => simp [Engine.posts, Engine.commits, Engine.receives, at_]
  | _ => simp [Engine.posts, Engine.commits, Engine.receives, Engine.setPhase, Engine.launch]

/-- The buffer: what was in it and what is received, is passed on or stays. -/
theorem Stepped.buffer (stepped : Stepped e event e' call) :
    e.buf ++ e.receives event = (slicesOf call).flatten ++ e'.buf := by
  cases stepped with
  | receive at_ => simp [slicesOf, Engine.receives, at_]
  | flush | exit =>
    rw [slicesOf_flushed]
    split <;> simp_all [Engine.receives]
  | commit at_ committing committed => simp [slicesOf_commit committed, Engine.receives, Engine.setPhase]
  | _ => simp [slicesOf, Engine.receives, Engine.setPhase, Engine.launch, Call.batchSucceed?]

/-! ### The size of a slice -/

/-- The buffer is flushed when it is full. -/
def Buffered (size : Nat) (e : Engine) : Prop :=
  batchSizeOrDefault e.cfg.batchSize = size ∧ e.buf.length ≤ size

theorem Stepped.buffered {size : Nat} (stepped : Stepped e event e' call) (buffered : Buffered size e) :
    Buffered size e' ∧ ∀ slice ∈ slicesOf call, 1 ≤ slice.length ∧ slice.length ≤ size := by
  obtain ⟨rfl,short⟩ := buffered
  rw [Buffered, stepped.cfg]
  have flush (slice : List BatchSucceedParam) (passed : slice ∈ slicesOf e.flushed) :
      1 ≤ slice.length ∧ slice.length ≤ batchSizeOrDefault e.cfg.batchSize := by
    rw [slicesOf_flushed] at passed
    split at passed
    · cases passed
    · rw [List.mem_singleton.mp passed]
      exact ⟨List.length_pos_of_ne_nil ‹_›,short⟩
  cases stepped with
  | receive at_ room => exact ⟨⟨rfl,by simpa [Nat.succ_le_iff] using room⟩,by simp [slicesOf]⟩
  | flush | exit => exact ⟨⟨rfl,Nat.zero_le _⟩,flush⟩
  | commit at_ committing committed => exact ⟨⟨rfl,short⟩,by simp [slicesOf_commit committed]⟩
  | _ => exact ⟨⟨rfl,short⟩,by simp [slicesOf, Call.batchSucceed?]⟩

/-! ### The end of life -/

/-- The poll goroutine is in `drain` and the wait group is empty. -/
def Quiescent (e : Engine) : Prop := e.loop = .drained ∧ e.tasks = []

theorem Stepped.quiescent (stepped : Stepped e event e' call) (quiescent : Quiescent e) : Quiescent e' := by
  obtain ⟨drained,empty⟩ := quiescent
  cases stepped with
  | cancel | receive | flush | close | exit => exact ⟨drained,empty⟩
  | returns at_ | resolve at_ | ack at_ | commit at_ | finish at_ | extend at_ => simp [empty] at at_
  | notice at_ => rcases at_ with at_ | at_ <;> cases drained.symm.trans at_
  | idle at_ | poll at_ | claimed at_ | claimFailed at_ | dispatched at_ | noHandler at_ | hold at_ | launch at_
  | launchHeld at_ | released at_ | release at_ | abandon at_ | abandonHeld at_ | wake at_ | stop at_ =>
    cases drained.symm.trans at_

theorem Quiescent.posts (quiescent : Quiescent e) : e.posts event = [] := by
  unfold Engine.posts Engine.commits
  split
  · simp [quiescent.2]
  · rfl

/-- The channel is closed after the last handler goroutine, and the flusher exits after
the channel is closed and empty. -/
structure Closing (e : Engine) : Prop where
  closed : e.closed = true → Quiescent e
  exited : e.flusherDone = true → e.closed = true ∧ e.succeedCh = [] ∧ e.buf = []

theorem Stepped.closing (stepped : Stepped e event e' call) (closing : Closing e) : Closing e' := by
  have quiescent (closed : e.closed = true) : Quiescent e' := stepped.quiescent (closing.closed closed)
  cases stepped with
  | close drained empty => exact ⟨fun _ => ⟨drained,empty⟩,fun exited => ⟨rfl,(closing.exited exited).2⟩⟩
  | exit closed empty => exact ⟨quiescent,fun _ => ⟨closed,empty,rfl⟩⟩
  | flush running => exact ⟨quiescent,fun exited => absurd exited (by simp [running])⟩
  | receive at_ =>
    refine ⟨quiescent,fun exited => ?_⟩
    cases at_.symm.trans (closing.exited exited).2.1
  | ack at_ =>
    refine ⟨quiescent,fun exited => ?_⟩
    have empty := (closing.closed (closing.exited exited).1).2
    simp [empty] at at_
  | _ => exact ⟨quiescent,closing.exited⟩

theorem plain_posts (plain : e.cfg.batchAcker = false) : e.posts event = [] := by
  unfold Engine.posts Engine.commits
  split
  · rename_i i clock nextDelay
    cases e.tasks[i]? with
    | none => rfl
    | some t =>
      simp only [Option.bind_some]
      split
      · rename_i err _ outcome m _ _
        rw [plain]
        cases outcome <;> cases err <;> rfl
      · rfl
  · rfl

end

/-! ### Runs -/

section
variable {cfg : EngineConfig} {trace : List Event} {e : Engine}

theorem run_channel (run : engineSystem.run (newEngine cfg) trace = some e) :
    engineSystem.log Engine.posts (newEngine cfg) trace =
      engineSystem.log Engine.receives (newEngine cfg) trace ++ e.succeedCh := by
  apply System.log_conserved Engine.succeedCh Engine.posts Engine.receives _ run
  intro e event e' step
  obtain ⟨call,stepped⟩ := engineSystem_stepped step
  exact stepped.channel

theorem run_buffer (run : engineSystem.run (newEngine cfg) trace = some e) :
    engineSystem.log Engine.receives (newEngine cfg) trace =
      (engineSystem.log Engine.passes (newEngine cfg) trace).flatten ++ e.buf := by
  rw [System.log_hom List.flatten rfl fun _ _ => List.flatten_append]
  apply System.log_conserved Engine.buf Engine.receives (fun e event => (e.passes event).flatten) _ run
  intro e event e' step
  obtain ⟨call,step⟩ := engineSystem_step step
  rw [Engine.passes_eq step]
  exact (Engine.step_stepped step).buffer

theorem run_slices (run : engineSystem.run (newEngine cfg) trace = some e) :
    ∀ slice ∈ engineSystem.log Engine.passes (newEngine cfg) trace,
      1 ≤ slice.length ∧ slice.length ≤ batchSizeOrDefault cfg.batchSize := by
  refine System.log_forall (Buffered (batchSizeOrDefault cfg.batchSize)) _ ?_ run ⟨rfl,Nat.zero_le _⟩
  intro e event e' buffered step
  obtain ⟨call,step⟩ := engineSystem_step step
  rw [Engine.passes_eq step]
  exact (Engine.step_stepped step).buffered buffered

theorem newEngine_closing (cfg : EngineConfig) : Closing (newEngine cfg) := ⟨nofun,nofun⟩

theorem run_closing (run : engineSystem.run (newEngine cfg) trace = some e) : Closing e :=
  run_keeps Stepped.closing run (newEngine_closing cfg)

/-- Nothing is posted after the wait group is empty. -/
theorem Quiescent.run_posts {later : List Event} {e' : Engine} (quiescent : Quiescent e)
    (run : engineSystem.run e later = some e') : engineSystem.log Engine.posts e later = [] := by
  apply List.eq_nil_iff_forall_not_mem.mpr
  apply System.log_forall Quiescent (fun _ => False) _ run quiescent
  intro e event e' quiescent step
  obtain ⟨call,stepped⟩ := engineSystem_stepped step
  exact ⟨stepped.quiescent quiescent,by simp [quiescent.posts]⟩

/-- Without a BatchAcker no acknowledgement is posted. -/
theorem run_plain (run : engineSystem.run (newEngine cfg) trace = some e) (plain : e.cfg.batchAcker = false) :
    engineSystem.log Engine.posts (newEngine cfg) trace = [] := by
  have config := run_cfg run
  apply List.eq_nil_iff_forall_not_mem.mpr
  apply System.log_forall (fun e => e.cfg = cfg) (fun _ => False) _ run rfl
  rintro e event e' rfl step
  obtain ⟨call,stepped⟩ := engineSystem_stepped step
  exact ⟨stepped.cfg,by simp [plain_posts (config ▸ plain)]⟩

theorem run_drained (run : engineSystem.run (newEngine cfg) trace = some e) (nil : e.drainsNil) :
    (engineSystem.log Engine.passes (newEngine cfg) trace).flatten =
      engineSystem.log Engine.posts (newEngine cfg) trace := by
  have channel := run_channel run
  have buffer := run_buffer run
  cases acker : e.cfg.batchAcker with
  | true =>
    obtain ⟨_,empty,flushed⟩ := (run_closing run).exited (nil.2.2 acker)
    rw [channel, buffer, empty, flushed, List.append_nil, List.append_nil]
  | false =>
    rw [run_plain run acker] at channel ⊢
    obtain ⟨received,_⟩ := List.append_eq_nil_iff.mp channel.symm
    rw [received] at buffer
    exact (List.append_eq_nil_iff.mp buffer.symm).1

end

/-- In every run the slices that are passed to BatchSucceed and the buffer are what the
flusher received, and that and the channel is what was posted, in order and each once; no
slice is empty or longer than a batch; and when `drain` returns nil, everything posted has
been passed on and nothing is posted any more. -/
theorem acks_conserved (cfg : EngineConfig) (trace : List Event) (e : Engine)
    (run : engineSystem.run (newEngine cfg) trace = some e) :
    (engineSystem.log Engine.passes (newEngine cfg) trace).flatten ++ e.buf =
      engineSystem.log Engine.receives (newEngine cfg) trace ∧
    engineSystem.log Engine.receives (newEngine cfg) trace ++ e.succeedCh =
      engineSystem.log Engine.posts (newEngine cfg) trace ∧
    (∀ slice ∈ engineSystem.log Engine.passes (newEngine cfg) trace,
      1 ≤ slice.length ∧ slice.length ≤ batchSizeOrDefault cfg.batchSize) ∧
    (e.drainsNil →
      (engineSystem.log Engine.passes (newEngine cfg) trace).flatten =
        engineSystem.log Engine.posts (newEngine cfg) trace ∧
      ∀ later e', engineSystem.run e later = some e' → engineSystem.log Engine.posts e later = []) :=
  ⟨(run_buffer run).symm,(run_channel run).symm,run_slices run,fun nil =>
    ⟨run_drained run nil,fun _ _ continued => Quiescent.run_posts ⟨nil.1,nil.2.1⟩ continued⟩⟩

/-- One message is handled; the flusher has received its acknowledgement when the engine is
shut down. -/
def lastAck : List Event :=
  [.poll, .claimed [lastAttempt] [], .dispatch, .dispatch, .task 0 (.returns (.returns none)), .task 0 .resolve,
    .task 0 (.commit 9 0), .task 0 .finish, .receive, .cancel, .notice, .stop, .close, .exit]

theorem acks_conserved_last :
    ∃ e, engineSystem.run (newEngine mailer) lastAck = some e ∧ e.drainsNil ∧
      engineSystem.log Engine.passes (newEngine mailer) lastAck = [[⟨.uuid 7, 1, "w"⟩]] ∧
      (engineSystem.log Engine.passes (newEngine mailer) lastAck).flatten =
        engineSystem.log Engine.posts (newEngine mailer) lastAck :=
  have nil : ∃ e, engineSystem.run (newEngine mailer) lastAck = some e ∧ e.drainsNil := ⟨_,rfl,rfl,rfl,fun _ => rfl⟩
  nil.elim fun e ⟨run,nil⟩ => ⟨e,run,nil,by decide +kernel,((acks_conserved mailer lastAck e run).2.2.2 nil).1⟩

end Tickr
