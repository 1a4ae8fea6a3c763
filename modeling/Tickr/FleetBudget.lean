import Tickr.Client
import Tickr.EngineShutdown
import Tickr.Fleet

/-! The attempt budget of a message across a fleet. Claim advances the counter without
looking at the limit and ReclaimExpired puts a row back without looking at it either; only
the engine's own failure path compares the two. -/
namespace Tickr

open Transition Postgres

variable {pg : Postgres.Config}

/-! ### One row -/

/-- A row that a claim may take has an attempt to spare. -/
structure Budgeted (r : Row) : Prop where
  positive : 1 ≤ r.maxAttempts
  within : r.attempt ≤ r.maxAttempts
  spare : r.status.pending = true → r.attempt < r.maxAttempts

theorem Budgeted.untried {r : Row} (positive : 1 ≤ r.maxAttempts) (untried : r.attempt = 0) : Budgeted r :=
  ⟨positive,by omega,fun _ => by omega⟩

theorem enqueueRow_budgeted (env : Env) (i : Nat) (p : EnqueueParams) : Budgeted (enqueueRow env i p) := by
  refine .untried ?_ rfl
  simp only [enqueueRow, insertedRow]
  split <;> omega

/-- A row stays within its budget unless a failure or a reclaim returns it to the queue
with nothing left. -/
theorem Postgres.RowStep.budgeted {env : Env} {k : Uuid} {call : Call} {r r' : Row}
    (step : RowStep env k call (some r) (some r')) (budgeted : Budgeted r)
    (failed : ∀ p, call = .fail p → p.dead = false → p.messageID = .uuid k → p.attempt < r.maxAttempts)
    (reclaimed : ∀ limit, call = .reclaimExpired limit → r' ≠ r → r.attempt < r.maxAttempts) :
    Budgeted r' := by
  obtain ⟨positive,within,spare⟩ := budgeted
  cases step with
  | same => exact ⟨positive,within,spare⟩
  | claim pending => exact ⟨positive,spare pending,fun impossible => nomatch impossible⟩
  | succeed | batchSucceed | failDead => exact ⟨positive,within,fun impossible => nomatch impossible⟩
  | failRetry _ parsed current alive =>
    exact ⟨positive,within,fun _ => current ▸ failed _ rfl alive parsed⟩
  | releaseShutdown =>
    have lower : max 0 (r.attempt - 1) < r.maxAttempts := max_lt (by omega) (by omega)
    exact ⟨positive,Int.le_of_lt lower,fun _ => lower⟩
  | extend => exact ⟨positive,within,spare⟩
  | requeue => exact .untried positive rfl
  | reclaimExpired handling =>
    refine ⟨positive,within,fun _ => reclaimed _ rfl fun same => ?_⟩
    rw [← same] at handling
    cases handling

/-! ### The limit that a message or a write refers to -/

/-- The limit of the row that `id` names, if there is one. -/
def LimitAt (s : Store pg) (id : MessageID) (property : Int → Prop) : Prop :=
  ∀ k r, id = .uuid k → s.row k = some r → property r.maxAttempts

theorem Postgres.RowStep.maxAttempts {env : Env} {k : Uuid} {call : Call} {r r' : Row}
    (step : RowStep env k call (some r) (some r')) : r'.maxAttempts = r.maxAttempts :=
  congrArg Identity.maxAttempts step.identity

theorem LimitAt.exec {s : Store pg} {env : Env} {call : Call} {id : MessageID} {property : Int → Prop}
    (limit : LimitAt s id property)
    (fresh : ∀ k, id = .uuid k → s.row k = none → (Postgres.exec s env call).1.row k = none) :
    LimitAt (Postgres.exec s env call).1 id property := by
  intro k r' named found
  have step := exec_row s env call k
  rw [found] at step
  cases before : s.row k with
  | none => cases found.symm.trans (fresh k named before)
  | some r =>
    rw [before] at step
    rw [step.maxAttempts]
    exact limit k r named before

theorem claim_limit {s : Store pg} {env : Env} {p : ClaimParams} {m : InboundMessage}
    (returned : m ∈ (claim s env p).2) : LimitAt (claim s env p).1 m.id (m.maxAttempts = ·) := by
  obtain ⟨statement,chosen,spec⟩ := claim_spec s env p
  obtain ⟨k,_,r,found,rfl⟩ := (spec.returned m).mp returned
  intro k' r' named found'
  have same : k = k' := (Store.row_id found).symm.trans (MessageID.uuid.inj named)
  subst same
  have step := exec_row s env (.claim p) k
  rw [found, show (Postgres.exec s env (.claim p)).1.row k = some r' from found'] at step
  exact step.maxAttempts.symm

/-- A failure that returns its message to the queue is below the limit of the row. -/
def Retryable (s : Store pg) (call : Call) : Prop :=
  ∀ p, call = .fail p → p.dead = false → LimitAt s p.messageID (p.attempt < ·)

/-- An engine retries only what it holds, and only below the limit that it sees. -/
theorem Stepped.retries {e e' : Engine} {event : Event} {call : Option Call} {p : FailParams}
    (stepped : Stepped e event e' call) (calls : call = some (.fail p)) (alive : p.dead = false) :
    ∃ m ∈ e.messages, ∃ cfg, p.messageID = m.id ∧ p.attempt = m.attempt ∧
      m.attempt < effectiveMaxAttempts m cfg := by
  cases stepped with
  | noHandler => cases calls; cases alive
  | commit at_ committing committed =>
    cases calls
    cases commitOutcome_committed committed
    refine ⟨_,mem_messages_task at_ ?_,_,rfl,rfl,deadAfter_eq_false alive⟩
    rw [committing]
    exact List.mem_append_right _ List.mem_cons_self
  | flush | exit => cases Engine.flushed_eq calls
  | _ => cases calls

/-! ### The fleet -/

def Call.named : Call → List MessageID
  | .succeed id _ _ | .releaseShutdown id _ _ _ | .extend id _ _ | .requeue id _ => [id]
  | .fail p => [p.messageID]
  | .batchSucceed params => params.map BatchSucceedParam.messageID
  | _ => []

/-- The ids that engines hold or that writes on their way name. -/
def Fleet.mentions (f : Fleet pg) : List MessageID :=
  (f.engines.flatMap fun e => e.messages.map InboundMessage.id) ++ f.wire.flatMap Call.named

def FleetLabel.generated : FleetLabel → List Uuid
  | .operate env op => Tickr.generated env op
  | _ => []

/-- A generated id is not one that some worker still refers to. -/
def FreshIDs (f : Fleet pg) (label : FleetLabel) : Prop :=
  ∀ id ∈ label.generated, MessageID.uuid id ∉ f.mentions

instance (f : Fleet pg) (label : FleetLabel) : Decidable (FreshIDs f label) :=
  inferInstanceAs (Decidable (∀ id ∈ _, _))

def FleetLabel.reclaims : FleetLabel → Option (Env × Int)
  | .operate env (.reclaimExpired limit) => some (env, limit)
  | _ => none

/-- Every expired row that the subselect of ReclaimExpired picks has an attempt left. -/
def Spared (f : Fleet pg) (label : FleetLabel) : Prop :=
  ∀ q ∈ label.reclaims, ∀ r ∈ f.store.messages.rows,
    r.id ∈ reclaimChosen f.store.messages q.1 (limitOr 500 q.2) → r.attempt < r.maxAttempts

instance (f : Fleet pg) (label : FleetLabel) : Decidable (Spared f label) :=
  inferInstanceAs (Decidable (∀ q ∈ _, ∀ r ∈ _, _))

structure Budget (f : Fleet pg) : Prop where
  rows : ∀ k r, f.store.row k = some r → Budgeted r
  accounts : ∀ k, Tallied (f.tallies k) (f.store.row k)
  held : ∀ e ∈ f.engines, ∀ m ∈ e.messages, LimitAt f.store m.id (m.maxAttempts = ·)
  wire : ∀ call ∈ f.wire, call.issued = true ∧ Retryable f.store call

section
variable {f : Fleet pg} {env : Env} {call : Call}

theorem newFleet_budget : Budget (newFleet : Fleet pg) where
  rows := by simp [newFleet]
  accounts := by simp [newFleet, Tallied]
  held := by simp [newFleet]
  wire := by simp [newFleet]

theorem mem_mentions_held {e : Engine} {m : InboundMessage} (engine : e ∈ f.engines) (held : m ∈ e.messages) :
    m.id ∈ f.mentions :=
  List.mem_append_left _ (List.mem_flatMap.mpr ⟨e,engine,List.mem_map_of_mem held⟩)

theorem mem_mentions_wire {p : FailParams} (there : .fail p ∈ f.wire) : p.messageID ∈ f.mentions :=
  List.mem_append_right _ (List.mem_flatMap.mpr ⟨_,there,List.mem_singleton.mpr rfl⟩)

/-- A call keeps the budget if it returns nothing to the queue without an attempt left
and inserts nothing under an id that is still referred to. -/
theorem Budget.exec (budget : Budget f) (retryable : Retryable f.store call)
    (spared : ∀ limit, call = .reclaimExpired limit → ∀ k r, f.store.row k = some r →
      (Postgres.exec f.store env call).1.row k ≠ some r → r.attempt < r.maxAttempts)
    (fresh : ∀ k, .uuid k ∈ f.mentions → f.store.row k = none →
      (Postgres.exec f.store env call).1.row k = none) : Budget (f.exec env call) where
  rows := by
    intro k r' found
    have step := exec_row f.store env call k
    rw [show (Postgres.exec f.store env call).1.row k = some r' from found] at step
    cases before : f.store.row k with
    | none =>
      rw [before] at step
      cases step with
      | enqueue | enqueueBatch => exact enqueueRow_budgeted ..
    | some r =>
      rw [before] at step
      refine step.budgeted (budget.rows k r before) (fun p same alive named => ?_) fun limit same moved => ?_
      · exact retryable p same alive k r named before
      · exact spared limit same k r before fun kept => moved (Option.some.inj (found.symm.trans kept))
  accounts k := exec_tallied f.store env call k (budget.accounts k)
  held e engine m held :=
    (budget.held e engine m held).exec fun k named => fresh k (named ▸ mem_mentions_held engine held)
  wire other there := by
    obtain ⟨issued,below⟩ := budget.wire other there
    refine ⟨issued,fun p same alive => (below p same alive).exec fun k named => ?_⟩
    subst same
    exact fresh k (named ▸ mem_mentions_wire there)

/-- The calls of engines always do. -/
theorem Budget.exec_issued (budget : Budget f) (issued : call.issued = true)
    (retryable : Retryable f.store call) : Budget (f.exec env call) := by
  refine budget.exec retryable (fun limit same => ?_) fun k _ => exec_keeps_absent issued
  rw [same] at issued
  cases issued

theorem Budget.move {i : Nat} {e e' : Engine} {event : Event} (budget : Budget f)
    (limits : ∀ m ∈ e'.messages, LimitAt f.store m.id (m.maxAttempts = ·)) :
    Budget (f.move i e e' event) where
  rows := budget.rows
  accounts := budget.accounts
  held other engine := by
    rcases List.mem_or_eq_of_mem_set engine with kept | rfl
    · exact budget.held other kept
    · exact limits
  wire := budget.wire

theorem Budget.retryable {e e' : Engine} {event : Event} (budget : Budget f) (engine : e ∈ f.engines)
    (stepped : Stepped e event e' (some call)) : Retryable f.store call := by
  intro p same alive k r named found
  obtain ⟨m,held,cfg,id,attempt,below⟩ := stepped.retries (congrArg some same) alive
  have limit := budget.held e engine m held k r (id ▸ named) found
  have positive := (budget.rows k r found).positive
  rw [effectiveMaxAttempts, if_neg (by omega)] at below
  omega

end

theorem Advanced.budget {f f' : Fleet pg} {label : FleetLabel} (advanced : Advanced f label f')
    (budget : Budget f) (fresh : FreshIDs f label) (spared : Spared f label) : Budget f' := by
  cases advanced with
  | start =>
    refine ⟨budget.rows,budget.accounts,fun e engine => ?_,budget.wire⟩
    rcases List.mem_append.mp engine with kept | new
    · exact budget.held e kept
    · rw [List.mem_singleton.mp new]
      exact fun m impossible => nomatch impossible
  | crash =>
    exact ⟨budget.rows,budget.accounts,fun e engine => budget.held e (List.mem_of_mem_eraseIdx engine),
      budget.wire⟩
  | @operate env op =>
    refine budget.exec (fun p same => ?_) (fun limit same k r found moved => ?_) fun k mentioned absent => ?_
    · cases op <;> cases same
    · cases op <;> cases same
      refine spared _ rfl r (Store.row_mem found) (by_contra fun passed => moved ?_)
      rw [← found]
      exact (reclaimExpired_row f.store env limit k).trans (KeyedTable.map_when_same fun r' found' => by
        cases found.symm.trans found'
        exact decide_eq_false passed)
    · by_contra present
      exact fresh k (operation_minted f.store env op k absent present) mentioned
  | @arrive j call env there =>
    obtain ⟨issued,retryable⟩ := budget.wire call (List.mem_of_getElem? there)
    refine Budget.exec_issued (f := { f with wire := f.wire.eraseIdx j }) ?_ issued retryable
    exact ⟨budget.rows,budget.accounts,budget.held,
      fun call there => budget.wire call (List.mem_of_mem_eraseIdx there)⟩
  | silent at_ stepped =>
    refine budget.move fun m member => ?_
    have held := stepped.messages member
    rw [stepped.received_of_silent rfl, List.append_nil] at held
    exact budget.held _ (List.mem_of_getElem? at_) m held
  | @answered i e event e' call env at_ stepped answered =>
    have engine := List.mem_of_getElem? at_
    have executed : Budget (f.exec env call) :=
      budget.exec_issued (stepped.issued rfl) (budget.retryable engine stepped)
    refine executed.move fun m member => ?_
    rcases List.mem_append.mp (stepped.messages member) with held | received
    · exact executed.held e engine m held
    · rcases stepped.received_of_answered rfl answered with nothing | ⟨p,rfl,claimed⟩
      · rw [nothing] at received
        cases received
      · exact claim_limit (claimed ▸ received)
  | @delayed i e event e' call at_ stepped unanswered =>
    have engine := List.mem_of_getElem? at_
    have moved : Budget (f.move i e e' event) := budget.move fun m member => by
      have held := stepped.messages member
      rw [Event.received_of_unanswered unanswered, List.append_nil] at held
      exact budget.held _ engine m held
    refine ⟨moved.rows,moved.accounts,moved.held,fun call there => ?_⟩
    rcases List.mem_append.mp there with old | new
    · exact budget.wire call old
    · rw [List.mem_singleton.mp new]
      exact ⟨stepped.issued rfl,budget.retryable engine stepped⟩

theorem run_budget {trace : List FleetLabel} {f : Fleet pg} (run : (fleetSystem pg).run newFleet trace = some f)
    (fresh : (fleetSystem pg).Along FreshIDs newFleet trace)
    (spared : (fleetSystem pg).Along Spared newFleet trace) : Budget f := by
  refine System.invariant (fun f label => FreshIDs f label ∧ Spared f label) Budget ?_ run
    (fresh.and spared) newFleet_budget
  intro f label f' budget condition step
  exact (Fleet.step_advanced step).budget budget condition.1 condition.2

/-- As long as the reclaimer puts back only rows that have an attempt left, no message is
ever claimed beyond its limit. A reclaim that does otherwise makes the next claim of that
row exceed it. -/
theorem attempts_within_limit (trace : List FleetLabel) (f : Fleet pg)
    (run : (fleetSystem pg).run newFleet trace = some f)
    (fresh : (fleetSystem pg).Along FreshIDs newFleet trace)
    (spared : (fleetSystem pg).Along Spared newFleet trace) :
    (∀ r ∈ f.store.messages.rows, r.attempt ≤ r.maxAttempts ∧
      ((f.tallies r.id).claims : Int) - (f.tallies r.id).releases = r.attempt) ∧
    ∀ env limit, ∀ r ∈ f.store.messages.rows,
      r.id ∈ reclaimChosen f.store.messages env (limitOr 500 limit) → r.maxAttempts ≤ r.attempt →
      ∃ env' p r',
        (claim (reclaimExpired f.store env limit).1 env' p).1.row r.id = some r' ∧
        r'.maxAttempts < r'.attempt := by
  have budget := run_budget run fresh spared
  constructor
  · intro r member
    have found := Store.row_of_mem member
    exact ⟨(budget.rows _ r found).within,(budget.accounts _ r found).2.symm⟩
  · intro env limit r member chosen spent
    have row := reclaimExpired_row f.store env limit r.id
    rw [Store.row_of_mem member, Option.map_some, KeyedTable.when, if_pos (decide_eq_true chosen)] at row
    refine ⟨_,_,_,(claimDue_takes row rfl).1,?_⟩
    show r.maxAttempts < r.attempt + 1
    omega

/-! ### A message that kills its workers -/

/-- The row after its first claim, as the worker died over it. -/
def struck (limit : Int) : Row := claimSet 6 "w" 30 (enqueueRow (Env.quiet 5 7) 0 (plainParams "mail" limit))

def struckTwice (limit : Int) : Row :=
  claimSet (40 * Duration.second) "w" 30 (reclaimSet (39 * Duration.second) (struck limit))

/-- Two workers in turn claim the message; the first one dies and its lease expires. -/
def poisoned (limit : Int) : List FleetLabel :=
  [.start mailer, .operate (Env.quiet 5 7) (.enqueue (plainParams "mail" limit)), .engine 0 .poll none,
   .engine 0 (.claimed [scanMessage (struck limit)] []) (some (Env.quiet 6 0)), .crash 0,
   .operate (Env.quiet (39 * Duration.second) 0) (.reclaimExpired 500), .start mailer, .engine 0 .poll none,
   .engine 0 (.claimed [scanMessage (struckTwice limit)] []) (some (Env.quiet (40 * Duration.second) 0))]

theorem attempts_within_limit_two :
    ∃ f, (fleetSystem ⟨false, .full⟩).run newFleet (poisoned 2) = some f ∧
      f.store.messages.rows = [struckTwice 2] ∧
      ∀ r ∈ f.store.messages.rows, r.attempt ≤ r.maxAttempts ∧
        ((f.tallies r.id).claims : Int) - (f.tallies r.id).releases = r.attempt :=
  ⟨_,rfl,by decide +kernel,
    (attempts_within_limit (poisoned 2) _ rfl (by decide +kernel) (by decide +kernel)).1⟩

/-- With a single attempt the reclaimed row is claimed all the same. -/
theorem attempts_beyond_limit :
    ((fleetSystem ⟨false, .full⟩).run newFleet (poisoned 1)).map
      (fun f => ((f.store.row 7).map fun r => (r.status, r.attempt, r.maxAttempts), f.tallies 7)) =
        some (some (.handling, 2, 1), ⟨2, 0⟩) := by
  decide +kernel

end Tickr
