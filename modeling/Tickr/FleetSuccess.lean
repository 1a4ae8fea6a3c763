import Tickr.EngineShutdown
import Tickr.Fleet

/-! Where SUCCESS comes from. An acknowledgement is followed from the handler's return
through outcome resolution, the ack channel, the flusher's buffer and the wire to the
guarded update. -/
namespace Tickr

open Transition Postgres

variable {pg : Postgres.Config}

/-- Some invocation that was given this attempt of the message came back with nil or a
skip. -/
def Earned (log : List Invocation) (id : MessageID) (attempt : Int) : Prop :=
  ∃ inv ∈ log, (∀ err, inv.err = some err → isSkip err = true) ∧
    ∃ m ∈ inv.msgs, m.id = id ∧ m.attempt = attempt

theorem Earned.mono {log log' : List Invocation} {id : MessageID} {attempt : Int}
    (earned : Earned log id attempt) (grows : log ⊆ log') : Earned log' id attempt := by
  obtain ⟨inv,member,good,given⟩ := earned
  exact ⟨inv,grows member,good,given⟩

/-- The claims that a call acknowledges. -/
def Call.acks : Call → List (MessageID × Int)
  | .succeed id attempt _ => [(id, attempt)]
  | .batchSucceed params => params.map fun p => (p.messageID, p.attempt)
  | _ => []

/-! ### Inside one engine -/

/-- A task whose handler has returned is on record, and it commits a success only for a
nil or skip result. -/
def Accounted (log : List Invocation) (job : Job) : Phase → Prop
  | .running => True
  | .returned err _ => ⟨job.msgs, err⟩ ∈ log
  | .committing err _ outcome rest => ⟨job.msgs, err⟩ ∈ log ∧ rest ⊆ job.msgs ∧
      (outcome = .success → ∀ e, err = some e → isSkip e = true)

structure Honest (log : List Invocation) (e : Engine) : Prop where
  tasks : ∀ t ∈ e.tasks, Accounted log t.job t.phase
  posted : ∀ p ∈ e.succeedCh, Earned log p.messageID p.attempt
  buffered : ∀ p ∈ e.buf, Earned log p.messageID p.attempt

section
variable {log log' : List Invocation} {e e' : Engine} {event : Event} {call : Option Call}

theorem Accounted.mono {job : Job} {phase : Phase} (accounted : Accounted log job phase)
    (grows : log ⊆ log') : Accounted log' job phase := by
  cases phase with
  | running => trivial
  | returned => exact grows accounted
  | committing => exact ⟨grows accounted.1,accounted.2⟩

theorem Honest.mono (honest : Honest log e) (grows : log ⊆ log') : Honest log' e where
  tasks t member := (honest.tasks t member).mono grows
  posted p member := (honest.posted p member).mono grows
  buffered p member := (honest.buffered p member).mono grows

/-- The next message of a task that commits a success has earned it. -/
theorem Honest.earned {i : Nat} {t : Task} {err : Option GoError} {late : Bool} {m : InboundMessage}
    {rest : List InboundMessage} (honest : Honest log e) (at_ : e.tasks[i]? = some t)
    (committing : t.phase = .committing err late .success (m :: rest)) : Earned log m.id m.attempt := by
  have accounted := honest.tasks t (List.mem_of_getElem? at_)
  rw [committing] at accounted
  obtain ⟨recorded,own,good⟩ := accounted
  exact ⟨_,recorded,good rfl,m,own List.mem_cons_self,rfl,rfl⟩

theorem TaskMove.accounted {i : Nat} {t : Task} {event : TaskEvent} {phase : Phase} (at_ : e.tasks[i]? = some t)
    (move : TaskMove e t event phase) (accounted : Accounted log t.job t.phase) :
    Accounted (log ++ (e.invocation (.task i event)).toList) t.job phase := by
  cases move with
  | returned => simp [Accounted, Engine.invocation, at_]
  | resolved returned =>
    rw [returned] at accounted
    exact ⟨List.mem_append_left _ accounted,List.Subset.refl _,resolveOutcome_success.mp⟩
  | committed committing =>
    rw [committing] at accounted
    obtain ⟨recorded,own,good⟩ := accounted
    exact ⟨List.mem_append_left _ recorded,List.Subset.trans (List.subset_cons_self _ _) own,good⟩

theorem Stepped.honest (stepped : Stepped e event e' call) (honest : Honest log e) :
    Honest (log ++ (e.invocation event).toList) e' := by
  have grows : log ⊆ log ++ (e.invocation event).toList := List.subset_append_left _ _
  refine ⟨fun t member => ?_,?_,?_⟩
  · cases stepped.tasks member with
    | kept kept => exact (honest.tasks t kept).mono grows
    | launched => trivial
    | moved at_ move =>
      have accounted := move.accounted at_ (honest.tasks _ (List.mem_of_getElem? at_))
      exact accounted
  · refine fun p member => Earned.mono ?_ grows
    cases stepped with
    | ack at_ committing committed _ =>
      rcases List.mem_append.mp member with old | new
      · exact honest.posted p old
      · rw [List.mem_singleton.mp new]
        cases commitOutcome_committed committed
        exact honest.earned at_ committing
    | receive posted _ => exact honest.posted p (posted ▸ List.mem_cons_of_mem _ member)
    | _ => exact honest.posted p member
  · refine fun p member => Earned.mono ?_ grows
    cases stepped with
    | receive posted _ =>
      rcases List.mem_append.mp member with old | new
      · exact honest.buffered p old
      · rw [List.mem_singleton.mp new]
        exact honest.posted _ (posted ▸ List.mem_cons_self)
    | flush | exit => cases member
    | _ => exact honest.buffered p member

/-- An engine acknowledges only what was earned. -/
theorem Stepped.earned {c : Call} (stepped : Stepped e event e' call) (honest : Honest log e)
    (calls : call = some c) : ∀ a ∈ c.acks, Earned log a.1 a.2 := by
  intro a acked
  cases stepped with
  | commit at_ committing committed =>
    cases calls
    cases commitOutcome_committed committed with
    | succeed =>
      rw [List.mem_singleton.mp acked]
      exact honest.earned at_ committing
    | release | fail => cases acked
  | flush | exit =>
    rw [Engine.flushed_eq calls] at acked
    obtain ⟨p,member,rfl⟩ := List.mem_map.mp acked
    exact honest.buffered p member
  | _ => cases calls <;> cases acked

end

/-! ### The fleet -/

/-- A row is SUCCESS because it was, or because the call acknowledges its claim. -/
theorem Postgres.RowStep.succeeded {env : Env} {k : Uuid} {call : Call} {before : Option Row} {r' : Row}
    (step : RowStep env k call before (some r')) (success : r'.status = .success) :
    before = some r' ∨ (.uuid k, r'.attempt) ∈ call.acks := by
  cases step with
  | same => exact Or.inl rfl
  | succeed _ current => exact Or.inr (List.mem_singleton.mpr (congrArg _ current))
  | @batchSucceed r p params handling listed parsed current =>
    exact Or.inr (List.mem_map.mpr ⟨p,listed,Prod.ext parsed current.symm⟩)
  | extend handling => cases handling.symm.trans success
  | _ => cases success

structure Merited (f : Fleet pg) : Prop where
  rows : ∀ k r, f.store.row k = some r → r.status = .success → Earned f.returned (.uuid k) r.attempt
  engines : ∀ e ∈ f.engines, Honest f.returned e
  wire : ∀ call ∈ f.wire, ∀ a ∈ call.acks, Earned f.returned a.1 a.2

section
variable {f : Fleet pg} {env : Env} {call : Call}

theorem Merited.exec (merited : Merited f) (earned : ∀ a ∈ call.acks, Earned f.returned a.1 a.2) :
    Merited (f.exec env call) where
  rows k r found success := by
    have step := exec_row f.store env call k
    rw [show (Postgres.exec f.store env call).1.row k = some r from found] at step
    rcases step.succeeded success with before | acked
    · exact merited.rows k r before success
    · exact earned _ acked
  engines := merited.engines
  wire := merited.wire

theorem Merited.move {i : Nat} {e e' : Engine} {event : Event} {sent : Option Call} (merited : Merited f)
    (engine : e ∈ f.engines) (stepped : Stepped e event e' sent) : Merited (f.move i e e' event) := by
  have grows : f.returned ⊆ f.returned ++ (e.invocation event).toList := List.subset_append_left _ _
  refine ⟨fun k r found success => (merited.rows k r found success).mono grows,fun other member => ?_,
    fun call there a acked => (merited.wire call there a acked).mono grows⟩
  rcases List.mem_or_eq_of_mem_set member with kept | rfl
  · exact (merited.engines other kept).mono grows
  · exact stepped.honest (merited.engines e engine)

end

theorem Advanced.merited {f f' : Fleet pg} {label : FleetLabel} (advanced : Advanced f label f')
    (merited : Merited f) : Merited f' := by
  cases advanced with
  | start =>
    refine ⟨merited.rows,fun e engine => ?_,merited.wire⟩
    rcases List.mem_append.mp engine with kept | new
    · exact merited.engines e kept
    · rw [List.mem_singleton.mp new]
      exact ⟨(fun _ impossible => nomatch impossible),(fun _ impossible => nomatch impossible),
        fun _ impossible => nomatch impossible⟩
  | crash =>
    exact ⟨merited.rows,fun e engine => merited.engines e (List.mem_of_mem_eraseIdx engine),merited.wire⟩
  | @operate env op =>
    refine merited.exec fun a acked => ?_
    cases op <;> cases acked
  | @arrive j call env there =>
    refine Merited.exec (f := { f with wire := f.wire.eraseIdx j }) ?_
      (merited.wire call (List.mem_of_getElem? there))
    exact ⟨merited.rows,merited.engines,fun call there => merited.wire call (List.mem_of_mem_eraseIdx there)⟩
  | silent at_ stepped => exact merited.move (List.mem_of_getElem? at_) stepped
  | answered at_ stepped _ =>
    have engine := List.mem_of_getElem? at_
    refine (merited.move engine stepped).exec fun a acked => ?_
    exact (stepped.earned (merited.engines _ engine) rfl a acked).mono (List.subset_append_left _ _)
  | @delayed i e event e' call at_ stepped _ =>
    have engine := List.mem_of_getElem? at_
    have moved : Merited (f.move i e e' event) := merited.move engine stepped
    refine ⟨moved.rows,moved.engines,fun call there a acked => ?_⟩
    rcases List.mem_append.mp there with old | new
    · exact moved.wire call old a acked
    · rw [List.mem_singleton.mp new] at acked
      exact (stepped.earned (merited.engines _ engine) rfl a acked).mono (List.subset_append_left _ _)

/-- A message is SUCCESS only if some handler invocation that was given it, under the very
attempt of the row, came back with nil or a skip. -/
theorem success_earned (trace : List FleetLabel) (f : Fleet pg)
    (run : (fleetSystem pg).run newFleet trace = some f) :
    ∀ r ∈ f.store.messages.rows, r.status = .success →
      ∃ inv ∈ f.returned, (inv.err = none ∨ ∃ err, inv.err = some err ∧ isSkip err = true) ∧
        ∃ m ∈ inv.msgs, m.id = .uuid r.id ∧ m.attempt = r.attempt := by
  have merited : Merited f := by
    refine System.run_invariant Merited (fun f label f' merited step => ?_) run ?_
    · exact (Fleet.step_advanced step).merited merited
    · exact ⟨by simp [newFleet],by simp [newFleet],by simp [newFleet]⟩
  intro r member success
  obtain ⟨inv,returned,good,given⟩ := merited.rows r.id r (Store.row_of_mem member) success
  refine ⟨inv,returned,?_,given⟩
  cases result : inv.err with
  | none => exact Or.inl rfl
  | some err => exact Or.inr ⟨err,rfl,good err result⟩

/-- A message through one engine with a batching storage, up to its flush. -/
def delivered : List FleetLabel :=
  [.start mailer, .operate (Env.quiet 5 7) (.enqueue (plainParams "mail" 1)), .engine 0 .poll none,
   .engine 0 (.claimed [lastAttempt] []) (some (Env.quiet 6 0)), .engine 0 .dispatch none,
   .engine 0 (.task 0 (.returns (.returns none))) none, .engine 0 (.task 0 .resolve) none,
   .engine 0 (.task 0 (.commit 8 0)) none, .engine 0 .receive none,
   .engine 0 .flush (some (Env.quiet 9 0))]

theorem success_earned_delivered :
    ∃ f, (fleetSystem ⟨false, .full⟩).run newFleet delivered = some f ∧
      (f.store.row 7).map Row.status = some .success ∧
      ∀ r ∈ f.store.messages.rows, r.status = .success →
        ∃ inv ∈ f.returned, (inv.err = none ∨ ∃ err, inv.err = some err ∧ isSkip err = true) ∧
          ∃ m ∈ inv.msgs, m.id = .uuid r.id ∧ m.attempt = r.attempt :=
  ⟨_,rfl,by decide +kernel,success_earned delivered _ rfl⟩

end Tickr
