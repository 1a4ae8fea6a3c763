import Mathlib.Algebra.BigOperators.Group.List.Lemmas
import Mathlib.Algebra.GroupWithZero.Nat
import Tickr.Errors
import Tickr.QueueContract
import Tickr.QueueDepth

/-! The drain command of tickrctl. It adds up the open groups of one Stats after another until
the sum is 0, while producers and workers go on calling the store. -/
namespace Tickr

open KeyedTable

/-- The two loops over `ByEventType`. -/
def drainPending (stats : Stats) (order : RangeOrder) : Nat :=
  (stats.reports order).foldl (fun pending row =>
    if row.status = .created ∨ row.status = .retrying ∨ row.status = .handling ∨ row.status = .failed
    then pending + row.count else pending) 0

/-- What the command returns; `drained` is the nil error. -/
inductive DrainEnd where
  | drained
  | stats (err : StoreError)
  | timeout (pending : Nat)
  | context (err : GoError)
  deriving DecidableEq, Repr

/-- One pass of the loop: the calls of others since the pass before, and what the pass itself
meets. -/
structure DrainPoll where
  calls : List (Env × Call)
  statsErr : Option StoreError
  clock : Time
  groups : Scan (String × Status)
  order : RangeOrder
  /-- `time.Now()` against the deadline. -/
  now : Time
  /-- `ctx.Err()`, if the context ends before the timer fires. -/
  ctxErr : Option GoError

/-- The store as the last pass has seen it, the numbers in the lines `waiting: %d pending`, and
the result, once there is one. -/
structure DrainRun (cfg : Postgres.Config) where
  store : Postgres.Store cfg
  waiting : List Nat
  result : Option DrainEnd

section
variable {cfg : Postgres.Config}

def DrainPoll.seen (poll : DrainPoll) (s : Postgres.Store cfg) : Postgres.Store cfg :=
  (postgresQueue cfg).execute s poll.calls

def DrainPoll.pending (poll : DrainPoll) (s : Postgres.Store cfg) : Nat :=
  drainPending (Postgres.stats s.messages poll.groups poll.clock) poll.order

def cmdDrain (deadline : Time) (s : Postgres.Store cfg) : List DrainPoll → DrainRun cfg
  | [] => ⟨s, [], none⟩
  | poll :: rest =>
    let s := poll.seen s
    match poll.statsErr with
    | some err => ⟨s, [], some (.stats err)⟩
    | none =>
      let pending := poll.pending s
      if pending = 0 then ⟨s, [], some .drained⟩
      else if deadline < poll.now then ⟨s, [], some (.timeout pending)⟩
      else
        match poll.ctxErr with
        | some err => ⟨s, [pending], some (.context err)⟩
        | none =>
          let run := cmdDrain deadline s rest
          { run with waiting := pending :: run.waiting }

/-! ### One sum -/

/-- The messages that are neither in SUCCESS nor in DEAD. -/
def Postgres.unfinished (messages : Postgres.Messages cfg) : Nat :=
  messages.rows.countP fun r => !r.status.terminal

theorem drainPending_sum (stats : Stats) (order : RangeOrder) :
    drainPending stats order =
      (((stats.reports order).filter fun row => !row.status.terminal).map StatsRow.count).sum := by
  have counted (row : StatsRow) : (row.status = .created ∨ row.status = .retrying ∨ row.status = .handling ∨
      row.status = .failed) ↔ (!row.status.terminal) = true := by
    cases row.status <;> decide
  have added (rows : List StatsRow) (n : Nat) : rows.foldl (fun pending row =>
      if row.status = .created ∨ row.status = .retrying ∨ row.status = .handling ∨ row.status = .failed
      then pending + row.count else pending) n =
        n + ((rows.filter fun row => !row.status.terminal).map StatsRow.count).sum := by
    induction rows generalizing n with
    | nil => rfl
    | cons row rest ih =>
      rw [List.foldl_cons, ih, List.filter_cons]
      by_cases isOpen : (!row.status.terminal) = true
      · rw [if_pos ((counted row).mpr isOpen), if_pos isOpen, List.map_cons, List.sum_cons, Nat.add_assoc]
      · rw [if_neg fun named => isOpen ((counted row).mp named), if_neg isOpen]
  exact (added _ 0).trans (Nat.zero_add _)

/-- Ranging over the maps comes across each of their entries once. -/
theorem Stats.reports_nodup (stats : Stats) (order : RangeOrder) : (stats.reports order).Nodup := by
  apply List.nodup_flatMap.mpr
  constructor
  · intro byStatus _
    apply List.Nodup.map
    · rintro ⟨status,n⟩ ⟨status',n'⟩ same
      cases same
      rfl
    · exact ((order.statuses byStatus.1).perm _).nodup_iff.mpr byStatus.2.nodupKeys.nodup
  · have types : ((order.types.visit stats.byEventType.entries).map Sigma.fst).Nodup :=
      ((order.types.perm _).map _).nodup_iff.mpr stats.byEventType.nodupKeys
    refine (List.pairwise_map.mp types).imp fun {byStatus byStatus'} distinct row left right => ?_
    obtain ⟨_,_,rfl⟩ := List.mem_map.mp left
    obtain ⟨_,_,same⟩ := List.mem_map.mp right
    exact distinct (congrArg StatsRow.eventType same).symm

/-- What the maps hold are the rows of the query. -/
theorem Postgres.reports_perm (messages : Postgres.Messages cfg) (groups : Scan (String × Status)) (clock : Time)
    (order : RangeOrder) :
    ((stats messages groups clock).reports order).Perm
      ((messages.rows.map fun r => (r.eventType, r.status)).dedup.map fun group =>
        ⟨group.1, group.2, depth messages group.1 group.2⟩) := by
  apply (List.perm_ext_iff_of_nodup (Stats.reports_nodup _ order) _).mpr
  · intro row
    rw [Stats.mem_reports, stats_depth?, List.mem_map]
    constructor
    · intro shown
      split at shown
      · rename_i filled
        refine ⟨(row.eventType,row.status),List.mem_dedup.mpr (depth_pos.mp filled),?_⟩
        rw [Option.some.inj shown]
      · cases shown
    · rintro ⟨group,member,rfl⟩
      exact if_pos (depth_pos.mpr (List.mem_dedup.mp member))
  · apply (List.nodup_dedup _).map
    rintro ⟨eventType,status⟩ ⟨eventType',status'⟩ same
    cases same
    rfl

/-- The command's sum is the number of unfinished messages, in whatever order the database and
the process go through the groups. -/
theorem DrainPoll.pending_eq (poll : DrainPoll) (s : Postgres.Store cfg) :
    poll.pending s = Postgres.unfinished s.messages := by
  let pairs := s.messages.rows.map fun r => (r.eventType, r.status)
  have depths (group : String × Status) : Postgres.depth s.messages group.1 group.2 =
      pairs.countP fun pair => decide (pair = group) := by
    rw [Postgres.depth, List.countP_map]
    apply List.countP_congr
    intro r _
    simp [Prod.ext_iff]
  have groups := List.sum_map_count_dedup_filter_eq_countP (fun group => !group.2.terminal) pairs
  simp only [List.count_eq_countP, beq_eq_decide] at groups
  calc poll.pending s
    _ = _ := drainPending_sum _ _
    _ = _ := (((Postgres.reports_perm s.messages poll.groups poll.clock poll.order).filter _).map _).sum_eq
    _ = ((pairs.dedup.filter fun group => !group.2.terminal).map fun group =>
          pairs.countP fun pair => decide (pair = group)).sum := by
      rw [List.filter_map, List.map_map]
      congr 1
      apply List.map_congr_left
      intro group _
      exact depths group
    _ = pairs.countP fun group => !group.2.terminal := groups
    _ = Postgres.unfinished s.messages := List.countP_map

/-! ### Calls that open nothing -/

/-- The calls by which a message comes to be open. -/
def Call.opens : Call → Bool
  | .enqueue _ | .enqueueBatch _ | .requeue _ _ => true
  | _ => false

/-- A message that is open after another call was open before it. -/
theorem EntryMove.unfinished {env : Env} {id : Uuid} {call : Call} {before after : Option Entry}
    (move : EntryMove env id call before after) (closed : call.opens = false)
    (isOpen : ∃ e, after = some e ∧ e.status.terminal = false) :
    ∃ e, before = some e ∧ e.status.terminal = false := by
  cases move with
  | same => exact isOpen
  | enqueue | enqueueBatch | requeue => cases closed
  | purgeTerminal =>
    obtain ⟨_,gone,_⟩ := isOpen
    cases gone
  | claim pending => exact ⟨_,rfl,Status.pending_open pending⟩
  | succeed handling | batchSucceed handling | fail handling | releaseShutdown handling | reclaimExpired handling =>
    exact ⟨_,rfl,by rw [handling]; rfl⟩

/-- A run of such calls. -/
def Closed (calls : List (Env × Call)) : Prop := ∀ step ∈ calls, step.2.opens = false

theorem Closed.unfinished {σ : Type} {q : Queue σ} {s : σ} {calls : List (Env × Call)} (closed : Closed calls)
    {id : Uuid} (isOpen : ∃ e, q.entry (q.execute s calls) id = some e ∧ e.status.terminal = false) :
    ∃ e, q.entry s id = some e ∧ e.status.terminal = false :=
  Queue.execute_entry
    (fun entry => (∃ e, entry = some e ∧ e.status.terminal = false) →
      ∃ e, q.entry s id = some e ∧ e.status.terminal = false)
    (fun _ call => call.opens = false)
    (fun _ _ _ _ before shut move after => before (move.unfinished shut after)) closed (fun before => before) isOpen

/-- The ids of the unfinished messages. -/
def Postgres.openIDs (messages : Postgres.Messages cfg) : List Uuid :=
  (messages.rows.filter fun r => !r.status.terminal).map Row.id

theorem Postgres.openIDs_length (messages : Postgres.Messages cfg) :
    (openIDs messages).length = unfinished messages := by
  rw [openIDs, List.length_map, unfinished, List.countP_eq_length_filter]

theorem Postgres.mem_openIDs {s : Postgres.Store cfg} {id : Uuid} :
    id ∈ openIDs s.messages ↔ ∃ e, (postgresQueue cfg).entry s id = some e ∧ e.status.terminal = false := by
  simp only [openIDs, List.mem_map, List.mem_filter, Bool.not_eq_true']
  constructor
  · rintro ⟨r,⟨member,isOpen⟩,rfl⟩
    exact ⟨r.entry,congrArg (Option.map Row.entry) (Table.find?_of_mem member),isOpen⟩
  · rintro ⟨e,present,isOpen⟩
    obtain ⟨r,found,rfl⟩ := Option.map_eq_some_iff.mp present
    exact ⟨r,⟨Table.find?_mem found,isOpen⟩,Table.find?_key found⟩

theorem Postgres.openIDs_nodup (messages : Postgres.Messages cfg) : (openIDs messages).Nodup :=
  (List.filter_sublist.map Row.id).nodup messages.primary

theorem Closed.unfinished_le {calls : List (Env × Call)} (closed : Closed calls) (s : Postgres.Store cfg) :
    Postgres.unfinished ((postgresQueue cfg).execute s calls).messages ≤ Postgres.unfinished s.messages := by
  rw [← Postgres.openIDs_length, ← Postgres.openIDs_length]
  apply List.Subperm.length_le
  apply List.subperm_of_subset (Postgres.openIDs_nodup _)
  intro id member
  exact Postgres.mem_openIDs.mpr (closed.unfinished (Postgres.mem_openIDs.mp member))

/-- A claim on a store without unfinished messages returns none. -/
theorem Postgres.claim_nothing {s : Postgres.Store cfg} (none : unfinished s.messages = 0) {env : Env}
    {p : ClaimParams} {msgs : List InboundMessage}
    (claimed : ((postgresQueue cfg).exec s env (.claim p)).2 = .messages msgs) : msgs = [] := by
  apply List.eq_nil_iff_forall_not_mem.mpr
  intro m member
  obtain ⟨id,_,named,_⟩ := (((postgresQueue cfg).meets s env (.claim p)).handsOut msgs claimed).2.1 m member
  obtain ⟨e,present,pending,_⟩ := (postgresQueue cfg).claim_before claimed member named
  rw [← openIDs_length, List.length_eq_zero_iff] at none
  have listed : id ∈ openIDs s.messages := mem_openIDs.mpr ⟨e,present,Status.pending_open pending⟩
  rw [none] at listed
  cases listed

/-! ### Whole waits -/

/-- What the end of a wait says about the store. -/
def DrainEnd.Fits (messages : Postgres.Messages cfg) : DrainEnd → Prop
  | .drained => Postgres.unfinished messages = 0
  | .timeout pending => pending = Postgres.unfinished messages ∧ 0 < pending
  | .stats _ | .context _ => True

theorem cmdDrain_fits {deadline : Time} {s : Postgres.Store cfg} {polls : List DrainPoll} {ended : DrainEnd}
    (result : (cmdDrain deadline s polls).result = some ended) :
    ended.Fits (cmdDrain deadline s polls).store.messages := by
  induction polls generalizing s with
  | nil => cases result
  | cons poll rest ih =>
    rw [cmdDrain] at result ⊢
    split at result
    · cases result
      trivial
    · dsimp only at result ⊢
      split at result
      · rename_i zero
        rw [if_pos zero]
        cases result
        exact (poll.pending_eq _).symm.trans zero
      · rename_i waits
        rw [if_neg waits]
        split at result
        · rename_i late
          rw [if_pos late]
          cases result
          exact ⟨poll.pending_eq _,Nat.pos_of_ne_zero waits⟩
        · rename_i early
          rw [if_neg early]
          split at result
          · cases result
            trivial
          · exact ih result

/-- The numbers that the command prints never go up while nothing is enqueued or requeued, and
the store that it leaves is no fuller than any of them. -/
theorem drain_counts_down (deadline : Time) (s : Postgres.Store cfg) (polls : List DrainPoll)
    (closed : ∀ poll ∈ polls, Closed poll.calls) :
    (Postgres.unfinished s.messages :: (cmdDrain deadline s polls).waiting ++
      [Postgres.unfinished (cmdDrain deadline s polls).store.messages]).Pairwise (· ≥ ·) := by
  induction polls generalizing s with
  | nil => simp [cmdDrain]
  | cons poll rest ih =>
    obtain ⟨now,later⟩ := List.forall_mem_cons.mp closed
    have lower : Postgres.unfinished (poll.seen s).messages ≤ Postgres.unfinished s.messages := now.unfinished_le s
    have descends := ih (poll.seen s) later
    rw [cmdDrain]
    split
    · simpa using lower
    · dsimp only
      split
      · simpa using lower
      · split
        · simpa using lower
        · rw [poll.pending_eq]
          split
          · simpa using lower
          · refine List.pairwise_cons.mpr ⟨?_,descends⟩
            intro n member
            rcases List.mem_cons.mp member with rfl | member
            · exact lower
            · exact Nat.le_trans (List.rel_of_pairwise_cons descends member) lower

/-- Whatever others call meanwhile, the command tells the truth: a timeout names the number of
messages that are unfinished in the store, and once it has printed `drained`, no Claim returns a
message until somebody enqueues or requeues one. -/
theorem drain_tells_depth (deadline : Time) (s : Postgres.Store cfg) (polls : List DrainPoll) :
    (∀ pending, (cmdDrain deadline s polls).result = some (.timeout pending) →
      pending = Postgres.unfinished (cmdDrain deadline s polls).store.messages ∧ 0 < pending) ∧
    ((cmdDrain deadline s polls).result = some .drained → ∀ later, Closed later → ∀ env p msgs,
      ((postgresQueue cfg).exec ((postgresQueue cfg).execute (cmdDrain deadline s polls).store later) env
        (.claim p)).2 = .messages msgs → msgs = []) := by
  constructor
  · intro pending result
    exact cmdDrain_fits result
  · intro drained later closed env p msgs claimed
    have none : Postgres.unfinished (cmdDrain deadline s polls).store.messages = 0 := cmdDrain_fits drained
    have still := closed.unfinished_le (cmdDrain deadline s polls).store
    rw [none] at still
    exact Postgres.claim_nothing (Nat.le_zero.mp still) claimed

end

/-- A pass before the deadline. -/
def calmPoll (calls : List (Env × Call)) : DrainPoll :=
  ⟨calls, none, 0, .physical _, ⟨.physical _, fun _ => .physical _⟩, 0, none⟩

def mailWaits : Postgres.Store ⟨false, .full⟩ :=
  (Postgres.enqueue Postgres.Store.empty (Env.quiet 5 7) (plainParams "mail" 3)).1

/-- A message that is still there at the first pass and handled by the second. -/
def mailHandled : List DrainPoll :=
  [calmPoll [], calmPoll [(Env.quiet 6 8, .claim (fetchMail "w")), (Env.quiet 7 8, .succeed (.uuid 7) 1 "w")]]

theorem drain_counts_down_handled :
    (cmdDrain 9 mailWaits mailHandled).waiting = [1] ∧ (cmdDrain 9 mailWaits mailHandled).result = some .drained ∧
    (Postgres.unfinished mailWaits.messages :: (cmdDrain 9 mailWaits mailHandled).waiting ++
      [Postgres.unfinished (cmdDrain 9 mailWaits mailHandled).store.messages]).Pairwise (· ≥ ·) :=
  have closed : ∀ poll ∈ mailHandled, Closed poll.calls := by
    intro poll member
    simp only [mailHandled, calmPoll, List.mem_cons, List.not_mem_nil, or_false] at member
    rcases member with rfl | rfl <;> simp [Closed, Call.opens]
  ⟨by decide +kernel,by decide +kernel,drain_counts_down 9 mailWaits mailHandled closed⟩

end Tickr
