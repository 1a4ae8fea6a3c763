import Tickr.Outcome
import Tickr.QueueContract
import Tickr.Transition

/-! The work that is left in a queue. A message can be handed out again as long as it has
attempts left, so the attempts that are left pay for the claims, and a queue that is polled
more often than they allow is found with nothing to do. -/
namespace Tickr

open KeyedTable Transition

/-- How often the message may still be handed out, if it only fails. The last time is not
given up to a lease that runs out. -/
def Entry.left (e : Entry) : Nat :=
  if e.status.pending then max 1 (e.content.maxAttempts - e.attempt).toNat
  else if e.status = .handling then (e.content.maxAttempts - e.attempt).toNat
  else 0

/-- What a call may add to that: a message, the attempts of a requeued one, or the attempt that
a release gives back. A reclaim may bring a message back that has no attempt left. -/
def Call.adds (before after : Option Entry) : Call → Nat
  | .enqueue _ | .enqueueBatch _ | .requeue _ _ => if before = after then 0 else after.elim 0 Entry.left
  | .releaseShutdown _ _ _ _ | .reclaimExpired _ => if before = after then 0 else 1
  | _ => 0

def Call.claims : Call → Nat
  | .claim _ => 1
  | _ => 0

/-- The ids that a call inserts rows under, if it inserts them. -/
def Call.generates (env : Env) : Call → List Uuid
  | .enqueue _ => [env.newID 0]
  | .enqueueBatch ps => (List.range ps.length).map env.newID
  | _ => []

section
variable {σ : Type} (q : Queue σ)

/-- The queue under the calls of any number of processes. -/
def Queue.system : System σ (Env × Call) := ⟨fun s step => some (q.exec s step.1 step.2).1⟩

def Queue.left (s : σ) (id : Uuid) : Nat := (q.entry s id).elim 0 Entry.left

def Queue.adds (id : Uuid) (s : σ) (step : Env × Call) : Nat :=
  step.2.adds (q.entry s id) (q.entry (q.exec s step.1 step.2).1 id)

/-- Whether a claim returns the message. -/
def Queue.delivers (id : Uuid) (s : σ) (step : Env × Call) : Nat :=
  match step.2 with
  | .claim p => ((q.exec s step.1 (.claim p)).2.returns id).toNat
  | _ => 0

/-- A message goes back to be retried only while it has attempts left. -/
def Queue.Prudent (s : σ) (step : Env × Call) : Prop :=
  ∀ p id e, step.2 = .fail p → p.dead = false → q.entry s id = some e →
    q.entry (q.exec s step.1 step.2).1 id ≠ some e → e.attempt < e.content.maxAttempts

variable {q}

theorem Queue.run_execute (s : σ) (trace : List (Env × Call)) : q.system.run s trace = some (q.execute s trace) := by
  induction trace generalizing s with
  | nil => rfl
  | cons step rest ih => exact ih (q.exec s step.1 step.2).1

/-! ### One message -/

theorem Entry.left_pending {e : Entry} (pending : e.status.pending = true) :
    e.left = max 1 (e.content.maxAttempts - e.attempt).toNat := if_pos pending

theorem Entry.left_handling {e : Entry} (handling : e.status = .handling) :
    e.left = (e.content.maxAttempts - e.attempt).toNat := by
  rw [Entry.left, handling]
  rfl

theorem Entry.left_terminal {e : Entry} (terminal : e.status.terminal = true) : e.left = 0 := by
  have closed : ¬e.status.pending = true := by
    intro pending
    rw [Status.pending_open pending] at terminal
    cases terminal
  rw [Entry.left, if_neg closed, if_neg (Status.terminal_idle terminal)]

theorem Entry.left_claimed {e : Entry} (pending : e.status.pending = true) :
    Entry.left { e with status := .handling, attempt := e.attempt + 1 } + 1 ≤ e.left := by
  rw [Entry.left_pending pending, Entry.left_handling rfl]
  dsimp only
  omega

theorem Entry.left_retried {e : Entry} {status : Status} (handling : e.status = .handling) (pending : status.pending = true)
    (more : e.attempt < e.content.maxAttempts) : Entry.left { e with status } ≤ e.left := by
  rw [Entry.left_handling handling, Entry.left_pending pending]
  dsimp only
  omega

/-- A message that comes back with its attempt or with one less, attempts left or not. -/
theorem Entry.left_returned {e : Entry} {status : Status} {attempt : Int} (handling : e.status = .handling)
    (pending : status.pending = true) (back : attempt = e.attempt ∨ attempt = max (e.attempt - 1) 0) :
    Entry.left { e with status, attempt } ≤ e.left + 1 := by
  rw [Entry.left_handling handling, Entry.left_pending pending]
  dsimp only
  omega

/-- What a call hands out or takes away, it takes from what is left or adds itself. -/
theorem EntryMove.left {env : Env} {id : Uuid} {call : Call} {before after : Option Entry}
    (move : EntryMove env id call before after) (changed : after ≠ before)
    (prudent : ∀ p e, call = .fail p → p.dead = false → before = some e → e.attempt < e.content.maxAttempts) :
    after.elim 0 Entry.left + call.claims ≤ before.elim 0 Entry.left + call.adds before after := by
  have moved : ¬before = after := Ne.symm changed
  cases move with
  | same => exact absurd rfl changed
  | enqueue | enqueueBatch | requeue =>
    simp only [Call.adds, if_neg moved, Call.claims]
    exact Nat.le_add_left _ _
  | claim pending => exact Entry.left_claimed pending
  | succeed | batchSucceed =>
    rw [Option.elim, Entry.left_terminal]
    · exact Nat.zero_le _
    · rfl
  | purgeTerminal => exact Nat.zero_le _
  | fail handling named is =>
    split at is
    · rw [Option.elim, is, Entry.left_terminal]
      · exact Nat.zero_le _
      · rfl
    · rename_i alive
      have more := prudent _ _ rfl (Bool.eq_false_of_not_eq_true alive) rfl
      exact Entry.left_retried handling (by rw [is]; rfl) more
  | releaseShutdown handling pending is =>
    simp only [Option.elim, Call.adds, if_neg moved, Call.claims]
    exact Entry.left_returned handling pending (Or.inr is)
  | reclaimExpired handling =>
    simp only [Option.elim, Call.adds, if_neg moved, Call.claims]
    have pending : Status.retrying.pending = true := rfl
    exact Entry.left_returned handling pending (Or.inl rfl)

theorem Queue.delivers_le (id : Uuid) (s : σ) (step : Env × Call) : q.delivers id s step ≤ step.2.claims := by
  unfold Queue.delivers
  split
  · rename_i p is
    rw [is]
    exact Bool.toNat_le _
  · exact Nat.zero_le _

/-- A claim that returns a message changes it. -/
theorem Queue.delivers_changed {s : σ} {step : Env × Call} {id : Uuid} (delivered : 0 < q.delivers id s step) :
    q.entry (q.exec s step.1 step.2).1 id ≠ q.entry s id := by
  obtain ⟨env,call⟩ := step
  cases call with
  | claim p =>
    have returned : (q.exec s env (.claim p)).2.returns id = true := by
      change 0 < Bool.toNat _ at delivered
      by_contra none
      rw [Bool.eq_false_of_not_eq_true none] at delivered
      cases delivered
    cases replied : (q.exec s env (.claim p)).2 with
    | messages msgs =>
      rw [replied] at returned
      obtain ⟨m,member,named⟩ := List.any_eq_true.mp returned
      exact (((q.meets s env (.claim p)).handsOut msgs replied).2.2 id).mp ⟨m,member,of_decide_eq_true named⟩
    | unit | message | batch | extended | count =>
      rw [replied] at returned
      cases returned
  | _ => cases delivered

/-- Every call pays for the message that it hands out. -/
theorem Queue.left_step {s : σ} {step : Env × Call} (prudent : q.Prudent s step) (id : Uuid) :
    q.left (q.exec s step.1 step.2).1 id + q.delivers id s step ≤ q.left s id + q.adds id s step := by
  by_cases changed : q.entry (q.exec s step.1 step.2).1 id = q.entry s id
  · have undelivered : q.delivers id s step = 0 := by
      by_contra delivered
      exact Queue.delivers_changed (Nat.pos_of_ne_zero delivered) changed
    rw [undelivered, Queue.left, Queue.left, changed]
    exact Nat.le_add_right _ _
  · have paid := ((q.meets s step.1 step.2).moves id).left changed
      (fun p e is alive found => prudent p id e is alive found (found ▸ changed))
    exact (Nat.add_le_add_left (q.delivers_le id s step) _).trans paid

theorem Queue.prudent_other {s : σ} {env : Env} {call : Call} (other : ∀ p, call ≠ .fail p) : q.Prudent s (env, call) :=
  fun p _ _ is _ _ _ => absurd is (other p)

/-- A failure below the limit of the row that it names is prudent. -/
theorem fail_prudent {cfg : Postgres.Config} {s : Postgres.Store cfg} {env : Env} {p : FailParams}
    (below : p.dead = false → ∀ id r, p.messageID = .uuid id → s.row id = some r → p.attempt < r.maxAttempts) :
    (postgresQueue cfg).Prudent s (env, .fail p) := by
  rintro _ id e ⟨⟩ alive found changed
  obtain ⟨r,present,rfl⟩ := Option.map_eq_some_iff.mp found
  have step := Postgres.exec_row s env (.fail p) id
  change s.row id = some r at present
  change Option.map Row.entry (Postgres.Store.row (Postgres.exec s env _).1 id) ≠ some r.entry at changed
  rw [present] at step
  generalize (Postgres.exec s env (.fail p)).1.row id = after at *
  cases step with
  | same => exact absurd rfl changed
  | failRetry _ named attempt => exact lt_of_eq_of_lt attempt (below alive id r named present)
  | failDead _ _ _ dead =>
    rw [dead] at alive
    cases alive

/-- The engine fails its messages prudently, as long as they are those of the table. -/
theorem failParams_prudent {cfg : Postgres.Config} {s : Postgres.Store cfg} {env : Env} {workerID : String}
    {m : InboundMessage} {handler : HandlerConfig} {err : GoError} {outcome : Outcome} {clock : Time}
    {nextDelay : Duration} (limited : 0 < m.maxAttempts)
    (same : ∀ id r, m.id = .uuid id → s.row id = some r → r.maxAttempts = m.maxAttempts) :
    (postgresQueue cfg).Prudent s (env, .fail (failParams workerID m handler err outcome clock nextDelay)) := by
  apply fail_prudent
  intro alive id r named found
  have below := deadAfter_eq_false alive
  rw [effectiveMaxAttempts, if_neg (Int.not_le.mpr limited)] at below
  rw [same id r named found]
  exact below

/-! ### Whole runs -/

/-- The claims that return a message and the times it may still be handed out are paid for by
what was left of it and by what the calls of the run add. -/
theorem deliveries_within_budget (q : Queue σ) (s : σ) (trace : List (Env × Call))
    (prudent : q.system.Along q.Prudent s trace) (id : Uuid) :
    q.left (q.execute s trace) id + q.system.sum (q.delivers id) s trace ≤
      q.left s id + q.system.sum (q.adds id) s trace := by
  apply System.balance q.Prudent (fun _ => True) (fun s => q.left s id) _ _ _ (Queue.run_execute s trace) prudent trivial
  rintro s step _ _ prudent ⟨⟩
  exact ⟨trivial,Queue.left_step prudent id⟩

/-- No message lives under any other id. -/
def Queue.Known (q : Queue σ) (known : List Uuid) (s : σ) : Prop := ∀ id, id ∉ known → q.entry s id = none

theorem Queue.Known.step {known : List Uuid} {s : σ} {step : Env × Call} (only : q.Known known s)
    (fresh : step.2.generates step.1 ⊆ known) : q.Known known (q.exec s step.1 step.2).1 := by
  intro id unknown
  obtain ⟨env,call⟩ := step
  have move := (q.meets s env call).moves id
  rw [only id unknown] at move
  generalize q.entry (q.exec s env call).1 id = after at move
  cases move with
  | same => rfl
  | enqueue named => exact absurd (fresh (List.mem_singleton.mpr named)) unknown
  | enqueueBatch named at_ =>
    have bound := (List.getElem?_eq_some_iff.mp at_).1
    exact absurd (fresh (named ▸ List.mem_map_of_mem (List.mem_range.mpr bound))) unknown

/-- Whether a claim returns anything. -/
def Queue.fruitful (q : Queue σ) (s : σ) (step : Env × Call) : Nat :=
  match step.2 with
  | .claim p => match (q.exec s step.1 (.claim p)).2 with
    | .messages (_ :: _) => 1
    | _ => 0
  | _ => 0

theorem Queue.fruitful_le {known : List Uuid} {s : σ} {step : Env × Call}
    (only : q.Known known (q.exec s step.1 step.2).1) :
    q.fruitful s step ≤ total (fun id => q.delivers id s step) known := by
  obtain ⟨env,call⟩ := step
  unfold Queue.fruitful
  split
  · rename_i p is
    cases is
    split
    · rename_i m rest replied
      obtain ⟨id,e,named,present,_⟩ := ((q.meets s env (.claim p)).handsOut _ replied).2.1 m List.mem_cons_self
      have listed : id ∈ known := by
        by_contra unknown
        rw [only id unknown] at present
        cases present
      have delivered : q.delivers id s (env, .claim p) = 1 := by
        simp only [Queue.delivers, replied, Reply.returns, List.any_cons, named, decide_true, Bool.true_or, Bool.toNat_true]
      rw [← delivered]
      exact weight_le_total (fun id => q.delivers id s (env, .claim p)) listed
    · exact Nat.zero_le _
  · exact Nat.zero_le _

/-- All messages together pay for the claims that return something. -/
theorem Queue.fruitful_run {known : List Uuid} {s : σ} {trace : List (Env × Call)}
    (prudent : q.system.Along q.Prudent s trace) (only : q.Known known s)
    (fresh : ∀ step ∈ trace, step.2.generates step.1 ⊆ known) :
    q.system.sum q.fruitful s trace ≤
      total (q.left s) known + q.system.sum (fun s step => total (fun id => q.adds id s step) known) s trace := by
  have paid := System.balance (m := q.system)
    (fun s step => q.Prudent s step ∧ step.2.generates step.1 ⊆ known) (q.Known known)
    (fun s => total (q.left s) known) q.fruitful (fun s step => total (fun id => q.adds id s step) known) ?_
    (Queue.run_execute s trace)
    (prudent.and (System.along_labels fresh)) only
  · omega
  · rintro s step _ only ⟨prudent,fresh⟩ ⟨⟩
    have kept := only.step fresh
    have each := total_mono (l := known) fun id _ => Queue.left_step prudent id
    rw [total_add, total_add] at each
    have returned := Queue.fruitful_le kept
    exact ⟨kept,by omega⟩

end

/-! ### Claims that find what is due -/

/-- A queue in which a claim does not come back empty while a message is due for it. -/
structure LiveQueue (σ : Type) extends Queue σ where
  due : Env → ClaimParams → Row → Bool
  serves : ∀ s env p id r, row s id = some r → due env p r = true →
    ∃ m msgs, (exec s env (.claim p)).2 = .messages (m :: msgs)

theorem Postgres.claim_serves {cfg : Postgres.Config} {s : Postgres.Store cfg} {env : Env} {p : ClaimParams} {r : Row}
    (member : r ∈ s.messages.rows) (due : Postgres.eligible env 1 (Postgres.claimTypes p) none r = true) :
    (Postgres.claim s env p).2 ≠ [] := by
  intro nothing
  have passes : (Postgres.claimPasses s.messages env p).2 = [] := nothing
  unfold Postgres.claimPasses at passes
  dsimp only at passes
  split at passes
  · rename_i first
    rw [Postgres.claimSQL_nil first] at passes
    have sorted : r ∈ (s.messages.rows.filter (Postgres.eligible env 1 (Postgres.claimTypes p) none)).insertionSort
        claimOrder := (List.mem_insertionSort _).mpr (List.mem_filter.mpr ⟨member,due⟩)
    have room : 0 < Postgres.claimBatch p := by
      unfold Postgres.claimBatch
      split <;> omega
    have filled : Postgres.claimChosen s.messages env 1 (Postgres.claimTypes p) (Postgres.claimBatch p) none ≠ [] := by
      rw [Postgres.claimChosen, ne_eq, List.map_eq_nil_iff, List.take_eq_nil_iff, not_or]
      exact ⟨Nat.pos_iff_ne_zero.mp room,List.ne_nil_of_mem sorted⟩
    obtain ⟨k,chosen⟩ := List.exists_mem_of_ne_nil _ filled
    obtain ⟨r',found,_⟩ := Postgres.mem_claimChosen chosen
    exact List.eq_nil_iff_forall_not_mem.mp passes _
      (Postgres.mem_claimSQL.mpr ⟨r',Table.find?_mem found,Table.find?_key found ▸ chosen,rfl⟩)
  · contradiction

theorem Mysql.claim_serves {cfg : Mysql.Config} {s : Mysql.Store cfg} {env : Env} {p : ClaimParams} {r : Row}
    (member : r ∈ s.messages.rows) (due : Mysql.eligible cfg env 1 p.eventTypes none r = true) :
    (Mysql.claim s env p).2 ≠ [] := by
  have typed : p.eventTypes ≠ [] := by
    intro none
    rw [none] at due
    simp [Mysql.eligible] at due
  have room : 0 < limitOr 100 p.batch := limitOr_pos (by decide) _
  have sorted : r ∈ (s.messages.rows.filter (Mysql.eligible cfg env 1 p.eventTypes none)).insertionSort claimOrder :=
    (List.mem_insertionSort _).mpr (List.mem_filter.mpr ⟨member,due⟩)
  have filled : Mysql.claimIDs s.messages env p ≠ [] := by
    unfold Mysql.claimIDs
    dsimp only
    split
    · rw [Mysql.selectClaimIDs, ne_eq, List.map_eq_nil_iff, List.take_eq_nil_iff, not_or]
      exact ⟨Nat.pos_iff_ne_zero.mp room,List.ne_nil_of_mem sorted⟩
    · assumption
  intro nothing
  have same := (Mysql.claim_selected s env p typed).1
  rw [nothing] at same
  exact filled (List.eq_nil_of_length_eq_zero same.symm)

def livePostgres (cfg : Postgres.Config) : LiveQueue (Postgres.Store cfg) where
  toQueue := postgresQueue cfg
  due := fun env p => Postgres.eligible env 1 (Postgres.claimTypes p) none
  serves := by
    intro s env p id r found due
    obtain ⟨m,msgs,is⟩ := List.exists_cons_of_ne_nil (Postgres.claim_serves (Postgres.Store.row_mem found) due)
    exact ⟨m,msgs,congrArg Reply.messages is⟩

def liveMysql (cfg : Mysql.Config) : LiveQueue (Mysql.Store cfg) where
  toQueue := mysqlQueue cfg
  due := fun env p => Mysql.eligible cfg env 1 p.eventTypes none
  serves := by
    intro s env p id r found due
    obtain ⟨m,msgs,is⟩ := List.exists_cons_of_ne_nil (Mysql.claim_serves (Mysql.Store.row_mem found) due)
    exact ⟨m,msgs,congrArg Reply.messages is⟩

/-- A queue that is polled more often than its messages, old and new, can be handed out, is
found with nothing due: some claim of the run comes when no message is due for it. -/
theorem polled_queue_runs_dry {σ : Type} (q : LiveQueue σ) (s : σ) (trace : List (Env × Call))
    (prudent : q.system.Along q.Prudent s trace) (known : List Uuid) (only : q.Known known s)
    (fresh : ∀ step ∈ trace, step.2.generates step.1 ⊆ known)
    (often : total (q.left s) known + q.system.sum (fun s step => total (fun id => q.adds id s step) known) s trace <
      total (fun step => step.2.claims) trace) :
    ∃ earlier env p later, trace = earlier ++ (env, .claim p) :: later ∧
      ∀ id r, q.row (q.execute s earlier) id = some r → q.due env p r = false := by
  have few := Queue.fruitful_run prudent only fresh
  have claims := System.sum_labels (fun step : Env × Call => step.2.claims) (Queue.run_execute (q := q.toQueue) s trace)
  obtain ⟨earlier,⟨env,call⟩,later,state,split_,reached,barren⟩ := System.exists_of_sum_lt
    (lt_of_le_of_lt few (claims ▸ often))
  obtain rfl := Option.some.inj ((Queue.run_execute s earlier).symm.trans reached)
  cases call with
  | claim p =>
    refine ⟨earlier,env,p,later,split_,fun id r found => ?_⟩
    by_contra due
    obtain ⟨m,msgs,replied⟩ := q.serves _ env p id r found (by simpa using due)
    simp only [Queue.fruitful, replied, Call.claims, Nat.lt_irrefl] at barren
  | _ => exact absurd barren (Nat.lt_irrefl 0)

/-! ### A message with two attempts -/

def twice : Postgres.Store ⟨false, .off⟩ :=
  ((postgresQueue ⟨false, .off⟩).exec Postgres.Store.empty (Env.quiet 5 7) (.enqueue (plainParams "mail" 2))).1

def firstMail : InboundMessage := ⟨.uuid 7, "mail", [], [], "", 1, 2, 5, 0, "", none⟩

/-- Its handler fails and then succeeds; the worker polls once more. -/
def twoAttempts : List (Env × Call) :=
  [(Env.quiet 6 8, .claim (fetchMail "w")),
    (Env.quiet 7 8, .fail (failParams "w" firstMail ⟨0, 0, 0, none⟩ (.text "boom") .retry 7 1)),
    (Env.quiet 8 8, .claim (fetchMail "w")),
    (Env.quiet 9 8, .succeed (.uuid 7) 2 "w"),
    (Env.quiet 10 8, .claim (fetchMail "w"))]

/-- What is left of a message after its first claim is told by the table. -/
theorem twoAttempts_prudent : (postgresQueue ⟨false, .off⟩).system.Along (postgresQueue ⟨false, .off⟩).Prudent twice
    twoAttempts := by
  have given : ∀ id r, firstMail.id = .uuid id → Postgres.Store.row
      ((postgresQueue ⟨false, .off⟩).exec twice (Env.quiet 6 8) (.claim (fetchMail "w"))).1 id = some r →
      r.maxAttempts = firstMail.maxAttempts := by
    rintro _ r ⟨⟩ found
    obtain rfl := Option.some.inj found
    rfl
  refine ⟨Queue.prudent_other (fun _ is => nomatch is),?_⟩
  rintro _ ⟨⟩
  refine ⟨failParams_prudent (by decide) given,?_⟩
  rintro _ ⟨⟩
  refine ⟨Queue.prudent_other (fun _ is => nomatch is),?_⟩
  rintro _ ⟨⟩
  refine ⟨Queue.prudent_other (fun _ is => nomatch is),?_⟩
  rintro _ ⟨⟩
  exact ⟨Queue.prudent_other (fun _ is => nomatch is),fun _ _ => trivial⟩

theorem deliveries_within_budget_twice :
    (postgresQueue ⟨false, .off⟩).left twice 7 = 2 ∧
    (postgresQueue ⟨false, .off⟩).system.sum ((postgresQueue ⟨false, .off⟩).delivers 7) twice twoAttempts = 2 ∧
    (postgresQueue ⟨false, .off⟩).left ((postgresQueue ⟨false, .off⟩).execute twice twoAttempts) 7 +
        (postgresQueue ⟨false, .off⟩).system.sum ((postgresQueue ⟨false, .off⟩).delivers 7) twice twoAttempts ≤
      (postgresQueue ⟨false, .off⟩).left twice 7 +
        (postgresQueue ⟨false, .off⟩).system.sum ((postgresQueue ⟨false, .off⟩).adds 7) twice twoAttempts :=
  ⟨by decide,by decide,deliveries_within_budget (postgresQueue ⟨false, .off⟩) twice twoAttempts twoAttempts_prudent 7⟩

theorem twice_known : (postgresQueue ⟨false, .off⟩).Known [7] twice := by
  intro id unknown
  change Option.map Row.entry (twice.messages.find? id) = none
  rw [Table.find?_eq_none.mpr, Option.map_none]
  change id ∉ [(7 : Uuid)]
  exact unknown

theorem polled_queue_runs_dry_twice :
    total ((livePostgres ⟨false, .off⟩).left twice) [7] = 2 ∧ total (fun step => step.2.claims) twoAttempts = 3 ∧
    ∃ earlier env p later, twoAttempts = earlier ++ (env, .claim p) :: later ∧
      ∀ id r, (livePostgres ⟨false, .off⟩).row ((livePostgres ⟨false, .off⟩).execute twice earlier) id = some r →
        (livePostgres ⟨false, .off⟩).due env p r = false :=
  ⟨by decide,by decide,polled_queue_runs_dry (livePostgres ⟨false, .off⟩) twice twoAttempts twoAttempts_prudent [7]
    twice_known (by decide) (by decide)⟩

end Tickr
