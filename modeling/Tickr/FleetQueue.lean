import Tickr.FleetBudget
import Tickr.QueueWork

/-! The fleet as processes that share one queue. Whatever the engines, the wire and everybody
else do, the store goes through one sequence of calls, and the engines' part of it is prudent:
the limit that an engine compares with is the one of the row. So the attempts of a message pay
for all its deliveries, with crashed workers and late writes among them. -/
namespace Tickr

open Transition Postgres

variable {pg : Postgres.Config}

/-- The calls that reach the store in a step. -/
def Fleet.calls (f : Fleet pg) : FleetLabel → List (Env × Call)
  | .operate env op => [(env, op.call)]
  | .arrive j env => (f.wire[j]?.map fun call => (env, call)).toList
  | .engine i event (some env) =>
    ((f.engines[i]?.bind fun e => e.step event).bind fun result => result.2.map fun call => (env, call)).toList
  | _ => []

/-- What the store holds and what the engines and the wire know of it agree on the limits. -/
structure Limits (f : Fleet pg) : Prop where
  positive : ∀ k r, f.store.row k = some r → 1 ≤ r.maxAttempts
  held : ∀ e ∈ f.engines, ∀ m ∈ e.messages, LimitAt f.store m.id (m.maxAttempts = ·)
  wire : ∀ call ∈ f.wire, call.issued = true ∧ Retryable f.store call

section
variable {f f' : Fleet pg} {env : Env} {call : Call} {label : FleetLabel}

theorem newFleet_limits : Limits (newFleet : Fleet pg) where
  positive := by simp [newFleet]
  held := by simp [newFleet]
  wire := by simp [newFleet]

theorem exec_positive (positive : ∀ k r, f.store.row k = some r → 1 ≤ r.maxAttempts) (k : Uuid) (r' : Row)
    (found : (f.exec env call).store.row k = some r') : 1 ≤ r'.maxAttempts := by
  have step := exec_row f.store env call k
  rw [show (Postgres.exec f.store env call).1.row k = some r' from found] at step
  cases before : f.store.row k with
  | none =>
    rw [before] at step
    cases step with
    | enqueue | enqueueBatch => exact (enqueueRow_budgeted ..).positive
  | some r =>
    rw [before] at step
    rw [step.maxAttempts]
    exact positive k r before

/-- A call keeps the limits if it inserts nothing under an id that is still referred to. -/
theorem Limits.exec (limits : Limits f)
    (fresh : ∀ k, .uuid k ∈ f.mentions → f.store.row k = none →
      (Postgres.exec f.store env call).1.row k = none) : Limits (f.exec env call) where
  positive := exec_positive limits.positive
  held e engine m held :=
    (limits.held e engine m held).exec fun k named => fresh k (named ▸ mem_mentions_held engine held)
  wire other there := by
    obtain ⟨issued,below⟩ := limits.wire other there
    refine ⟨issued,fun p same alive => (below p same alive).exec fun k named => ?_⟩
    subst same
    exact fresh k (named ▸ mem_mentions_wire there)

theorem Limits.exec_issued (limits : Limits f) (issued : call.issued = true) : Limits (f.exec env call) :=
  limits.exec fun _ _ => exec_keeps_absent issued

theorem Limits.move {i : Nat} {e e' : Engine} {event : Event} (limits : Limits f)
    (known : ∀ m ∈ e'.messages, LimitAt f.store m.id (m.maxAttempts = ·)) : Limits (f.move i e e' event) where
  positive := limits.positive
  held other engine := by
    rcases List.mem_or_eq_of_mem_set engine with kept | rfl
    · exact limits.held other kept
    · exact known
  wire := limits.wire

/-- An engine goes by the limit of the row. -/
theorem Limits.retryable {e e' : Engine} {event : Event} (limits : Limits f) (engine : e ∈ f.engines)
    (stepped : Stepped e event e' (some call)) : Retryable f.store call := by
  intro p same alive k r named found
  obtain ⟨m,held,cfg,id,attempt,below⟩ := stepped.retries (congrArg some same) alive
  have limit := limits.held e engine m held k r (id ▸ named) found
  have positive := limits.positive k r found
  rw [effectiveMaxAttempts, if_neg (by omega)] at below
  omega

theorem Advanced.limits (advanced : Advanced f label f') (limits : Limits f) (fresh : FreshIDs f label) :
    Limits f' := by
  cases advanced with
  | start =>
    refine ⟨limits.positive,fun e engine => ?_,limits.wire⟩
    rcases List.mem_append.mp engine with kept | new
    · exact limits.held e kept
    · rw [List.mem_singleton.mp new]
      exact fun m impossible => nomatch impossible
  | crash =>
    exact ⟨limits.positive,fun e engine => limits.held e (List.mem_of_mem_eraseIdx engine),limits.wire⟩
  | @operate env op =>
    apply limits.exec
    intro k mentioned absent
    by_contra present
    exact fresh k (operation_minted f.store env op k absent present) mentioned
  | @arrive j call env there =>
    obtain ⟨issued,_⟩ := limits.wire call (List.mem_of_getElem? there)
    refine Limits.exec_issued (f := { f with wire := f.wire.eraseIdx j }) ?_ issued
    exact ⟨limits.positive,limits.held,fun call there => limits.wire call (List.mem_of_mem_eraseIdx there)⟩
  | silent at_ stepped =>
    apply limits.move
    intro m member
    have held := stepped.messages member
    rw [stepped.received_of_silent rfl, List.append_nil] at held
    exact limits.held _ (List.mem_of_getElem? at_) m held
  | @answered i e event e' call env at_ stepped answered =>
    have engine := List.mem_of_getElem? at_
    have executed : Limits (f.exec env call) := limits.exec_issued (stepped.issued rfl)
    refine executed.move fun m member => ?_
    rcases List.mem_append.mp (stepped.messages member) with held | received
    · exact executed.held e engine m held
    · rcases stepped.received_of_answered rfl answered with nothing | ⟨p,rfl,claimed⟩
      · rw [nothing] at received
        cases received
      · exact claim_limit (claimed ▸ received)
  | @delayed i e event e' call at_ stepped unanswered =>
    have engine := List.mem_of_getElem? at_
    have moved : Limits (f.move i e e' event) := limits.move fun m member => by
      have held := stepped.messages member
      rw [Event.received_of_unanswered unanswered, List.append_nil] at held
      exact limits.held _ engine m held
    refine ⟨moved.positive,moved.held,fun call there => ?_⟩
    rcases List.mem_append.mp there with old | new
    · exact limits.wire call old
    · rw [List.mem_singleton.mp new]
      exact ⟨stepped.issued rfl,limits.retryable engine stepped⟩

/-! ### The calls of a step -/

theorem Fleet.step_calls (step : f.step label = some f') :
    (postgresQueue pg).system.run f.store (f.calls label) = some f'.store := by
  cases label with
  | start | crash | operate => cases step; rfl
  | arrive j env =>
    obtain ⟨call,there,rfl⟩ := Option.map_eq_some_iff.mp step
    simp only [Fleet.calls, there]
    rfl
  | engine i event sent =>
    obtain ⟨e,at_,rest⟩ := Option.bind_eq_some_iff.mp step
    obtain ⟨⟨e',call⟩,stepped,sending⟩ := Option.bind_eq_some_iff.mp rest
    cases call with
    | none =>
      cases sending
      cases sent with
      | none => rfl
      | some env =>
        simp only [Fleet.calls, at_, Option.bind_some, stepped]
        rfl
    | some call =>
      simp only [Fleet.send] at sending
      cases sent with
      | none =>
        simp only [Option.ite_none_right_eq_some] at sending
        cases sending.2
        rfl
      | some env =>
        simp only [Option.ite_none_right_eq_some] at sending
        cases sending.2
        simp only [Fleet.calls, at_, Option.bind_some, stepped]
        rfl

/-- Every call comes from an operator, the wire or an engine that makes it now. -/
theorem Fleet.calls_origin (reaches : (env, call) ∈ f.calls label) :
    (∃ op : Operation, call = op.call) ∨ call ∈ f.wire ∨
      ∃ e ∈ f.engines, ∃ event e', Stepped e event e' (some call) := by
  cases label with
  | start | crash => cases reaches
  | operate env' op =>
    cases List.mem_singleton.mp reaches
    exact Or.inl ⟨op,rfl⟩
  | arrive j env' =>
    obtain ⟨call',there,same⟩ := Option.map_eq_some_iff.mp (Option.mem_toList.mp reaches)
    cases same
    exact Or.inr (Or.inl (List.mem_of_getElem? there))
  | engine i event sent =>
    cases sent with
    | none => cases reaches
    | some env' =>
      obtain ⟨⟨e',issued⟩,bound,same⟩ := Option.bind_eq_some_iff.mp (Option.mem_toList.mp reaches)
      obtain ⟨e,at_,stepped⟩ := Option.bind_eq_some_iff.mp bound
      obtain ⟨call',rfl,same⟩ := Option.map_eq_some_iff.mp same
      cases same
      exact Or.inr (Or.inr ⟨e,List.mem_of_getElem? at_,event,e',Engine.step_stepped stepped⟩)

theorem Limits.called (limits : Limits f) (reaches : (env, call) ∈ f.calls label) : Retryable f.store call := by
  rcases Fleet.calls_origin reaches with ⟨op,rfl⟩ | wired | ⟨e,engine,event,e',stepped⟩
  · intro p same
    cases op <;> cases same
  · exact (limits.wire call wired).2
  · exact limits.retryable engine stepped

theorem Retryable.prudent {s : Store pg} (retryable : Retryable s call) (env : Env) :
    (postgresQueue pg).Prudent s (env, call) := by
  cases call with
  | fail p => exact fail_prudent fun alive => retryable p rfl alive
  | _ => exact Queue.prudent_other fun _ is => nomatch is

/-- No step makes more than one call. -/
theorem Fleet.calls_single (f : Fleet pg) (label : FleetLabel) :
    f.calls label = [] ∨ ∃ env call, f.calls label = [(env, call)] := by
  have optional : ∀ o : Option (Env × Call), o.toList = [] ∨ ∃ env call, o.toList = [(env, call)] := by
    rintro (_ | ⟨env,call⟩)
    · exact Or.inl rfl
    · exact Or.inr ⟨env,call,rfl⟩
  cases label with
  | start | crash => exact Or.inl rfl
  | operate => exact Or.inr ⟨_,_,rfl⟩
  | arrive => exact optional _
  | engine i event sent =>
    cases sent with
    | none => exact Or.inl rfl
    | some => exact optional _

theorem Limits.calls_prudent (limits : Limits f) :
    (postgresQueue pg).system.Along (postgresQueue pg).Prudent f.store (f.calls label) := by
  have all : ∀ step ∈ f.calls label, Retryable f.store step.2 := fun step reaches => limits.called reaches
  rcases f.calls_single label with none | ⟨env,call,one⟩
  · rw [none]
    trivial
  · rw [one] at all ⊢
    exact ⟨(all _ (List.mem_singleton.mpr rfl)).prudent env,fun _ _ => trivial⟩

end

/-! ### Whole runs -/

/-- A fleet leaves the store as its calls do, one after the other; with fresh ids, the deliveries
of a message among them are paid for by the attempts that producers, requeues, releases and
reclaims add. -/
theorem fleet_deliveries_within_budget (trace : List FleetLabel) (f : Fleet pg)
    (run : (fleetSystem pg).run newFleet trace = some f) :
    f.store = (postgresQueue pg).execute Store.empty ((fleetSystem pg).log Fleet.calls newFleet trace) ∧
    ((fleetSystem pg).Along FreshIDs newFleet trace → ∀ id,
      (postgresQueue pg).left f.store id +
          (postgresQueue pg).system.sum ((postgresQueue pg).delivers id) Store.empty
            ((fleetSystem pg).log Fleet.calls newFleet trace) ≤
        (postgresQueue pg).system.sum ((postgresQueue pg).adds id) Store.empty
          ((fleetSystem pg).log Fleet.calls newFleet trace)) := by
  have executed := System.log_run Fleet.store Fleet.calls (fun _ _ _ => Fleet.step_calls) run
  refine ⟨(Option.some.inj ((Queue.run_execute _ _).symm.trans executed)).symm,fun fresh id => ?_⟩
  have prudent := System.log_along Fleet.store Fleet.calls FreshIDs Limits (postgresQueue pg).Prudent
    (fun f label f' limits fresh step => ⟨(Fleet.step_advanced step).limits limits fresh,Fleet.step_calls step,
      limits.calls_prudent⟩) run fresh newFleet_limits
  have paid := System.balance (postgresQueue pg).Prudent (fun _ => True) (fun s => (postgresQueue pg).left s id)
    ((postgresQueue pg).delivers id) ((postgresQueue pg).adds id) ?_ executed prudent trivial
  · exact paid.trans (Nat.le_of_eq (Nat.zero_add _))
  · rintro s step _ _ prudent ⟨⟩
    exact ⟨trivial,Queue.left_step prudent id⟩

/-- Two workers are handed the message whose limit is one: the reclaim between them adds to it. -/
theorem fleet_deliveries_within_budget_poisoned :
    ∃ f, (fleetSystem ⟨false, .full⟩).run newFleet (poisoned 1) = some f ∧
      (postgresQueue ⟨false, .full⟩).system.sum ((postgresQueue ⟨false, .full⟩).delivers 7) Store.empty
        ((fleetSystem ⟨false, .full⟩).log Fleet.calls newFleet (poisoned 1)) = 2 ∧
      (postgresQueue ⟨false, .full⟩).left f.store 7 +
          (postgresQueue ⟨false, .full⟩).system.sum ((postgresQueue ⟨false, .full⟩).delivers 7) Store.empty
            ((fleetSystem ⟨false, .full⟩).log Fleet.calls newFleet (poisoned 1)) ≤
        (postgresQueue ⟨false, .full⟩).system.sum ((postgresQueue ⟨false, .full⟩).adds 7) Store.empty
          ((fleetSystem ⟨false, .full⟩).log Fleet.calls newFleet (poisoned 1)) :=
  ⟨_,rfl,by decide +kernel,(fleet_deliveries_within_budget (poisoned 1) _ rfl).2 (by decide +kernel) 7⟩

end Tickr
