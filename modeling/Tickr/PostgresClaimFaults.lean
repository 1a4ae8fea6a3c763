import Tickr.PostgresRuns

/-! A Claim one of whose SQL statements fails. The claim query commits by itself, and the
history rows of the claimed messages are written in a transaction after it: when that
transaction fails, Claim reports an error for rows that are already under claim. -/
namespace Tickr.Postgres

open KeyedTable

variable {cfg : Config}

/-- The statements of Claim: the query over one shard, the query over all of them, and the
transaction of `appendHistoryBatch` with one INSERT for each claimed message. -/
inductive ClaimStatement where
  | shardPass
  | fullPass
  | beginHistory
  | insertHistory (i : Nat)
  | commitHistory
  deriving DecidableEq, Repr

def ClaimStatement.isQuery : ClaimStatement → Bool
  | .shardPass | .fullPass => true
  | _ => false

def ClaimStatement.inHistory (count : Nat) : ClaimStatement → Bool
  | .shardPass | .fullPass => false
  | .beginHistory | .commitHistory => true
  | .insertHistory i => i < count

def shardPass (messages : Messages cfg) (env : Env) (p : ClaimParams) : Messages cfg × List InboundMessage :=
  claimSQL messages env 0 (claimTypes p) (claimBatch p) p.workerID (claimLeaseSec p) (some (env.pickShard 0))

def fullPass (messages : Messages cfg) (env : Env) (p : ClaimParams) : Messages cfg × List InboundMessage :=
  claimSQL messages env 1 (claimTypes p) (claimBatch p) p.workerID (claimLeaseSec p) none

/-- The end of Claim, after the queries. A transaction that fails leaves no history rows. -/
def claimHistory (s : Store cfg) (env : Env) (p : ClaimParams) (fails : Option ClaimStatement)
    (result : Messages cfg × List InboundMessage) : Store cfg × List InboundMessage × Option StoreError :=
  if result.2 = [] ∨ cfg.historyPolicy = .off then (⟨result.1, s.history⟩, result.2, none)
  else if fails.any (ClaimStatement.inHistory result.2.length) then
    (⟨result.1, s.history⟩, result.2, some (.sql "claim history"))
  else
    (⟨result.1, appendHistoryBatch s.history (env.now 2) result.2 .handling "" p.workerID⟩, result.2, none)

/-- `Claim`, where the statement `fails` fails if it is issued. A failed query has no effect. -/
def claimWith (s : Store cfg) (env : Env) (p : ClaimParams) (fails : Option ClaimStatement) :
    Store cfg × List InboundMessage × Option StoreError :=
  if fails = some .shardPass then (s, [], some (.sql "claim"))
  else
    let first := shardPass s.messages env p
    if first.2 = [] then
      if fails = some .fullPass then (⟨first.1, s.history⟩, [], some (.sql "claim"))
      else claimHistory s env p fails (fullPass first.1 env p)
    else claimHistory s env p fails first

/-- The statements that an undisturbed Claim issues, in order. -/
def claimStatements (s : Store cfg) (env : Env) (p : ClaimParams) : List ClaimStatement :=
  let out := (claimPasses s.messages env p).2
  .shardPass :: (if (shardPass s.messages env p).2 = [] then [.fullPass] else []) ++
    if out = [] ∨ cfg.historyPolicy = .off then []
    else .beginHistory :: (List.range out.length).map .insertHistory ++ [.commitHistory]

/-- What `pollOnce` hands to dispatch: it returns at once when Claim reports an error. -/
def pollOnceMessages (msgs : List InboundMessage) : Option StoreError → List InboundMessage
  | some _ => []
  | none => msgs

/-- A Claim that reports an error has changed no row, and every row that it has changed is
one whose message goes on to dispatch. -/
def FailsCleanly (s : Store cfg) (env : Env) (p : ClaimParams) (fails : ClaimStatement) : Prop :=
  let result := claimWith s env p (some fails)
  (result.2.2 ≠ none → ∀ k, result.1.row k = s.row k) ∧
  ∀ k, result.1.row k ≠ s.row k → ∃ m ∈ pollOnceMessages result.2.1 result.2.2, m.id = .uuid k

/-! ### The undisturbed call -/

theorem claimPasses_shard (messages : Messages cfg) (env : Env) (p : ClaimParams) :
    claimPasses messages env p =
      if (shardPass messages env p).2 = [] then fullPass (shardPass messages env p).1 env p
      else shardPass messages env p := rfl

theorem claimWith_passes (s : Store cfg) (env : Env) (p : ClaimParams) {fails : Option ClaimStatement}
    (queries : fails.all (fun f => !f.isQuery) = true) :
    claimWith s env p fails = claimHistory s env p fails (claimPasses s.messages env p) := by
  have first : fails ≠ some .shardPass := by
    rintro rfl
    cases queries
  have second : fails ≠ some .fullPass := by
    rintro rfl
    cases queries
  simp only [claimPasses_shard, claimWith, if_neg first, if_neg second]
  split <;> rfl

/-- Without a failure this is `claim`. -/
theorem claimWith_none (s : Store cfg) (env : Env) (p : ClaimParams) :
    claimWith s env p none = ((claim s env p).1, (claim s env p).2, none) := by
  rw [claimWith_passes s env p rfl, claimHistory, claim]
  by_cases nothing : (claimPasses s.messages env p).2 = []
  · simp [nothing, appendHistoryBatch]
  · by_cases off : cfg.historyPolicy = .off <;> simp [nothing, off]

/-! ### Failing statements -/

theorem claimWith_query (s : Store cfg) (env : Env) (p : ClaimParams) {fails : ClaimStatement}
    (issued : fails ∈ claimStatements s env p) (query : fails.isQuery = true) :
    claimWith s env p (some fails) = (s, [], some (.sql "claim")) := by
  cases fails with
  | shardPass => rfl
  | fullPass =>
    have nothing : (shardPass s.messages env p).2 = [] := by
      by_contra some
      simp only [claimStatements, if_neg some] at issued
      split at issued <;> simp at issued
    have unchanged : (shardPass s.messages env p).1 = s.messages := claimSQL_nil nothing
    simp [claimWith, nothing, unchanged]
  | beginHistory | insertHistory | commitHistory => cases query

/-- A statement of the history transaction is issued only for claimed messages. -/
theorem claimStatements_history {s : Store cfg} {env : Env} {p : ClaimParams} {fails : ClaimStatement}
    (issued : fails ∈ claimStatements s env p) (history : fails.isQuery = false) :
    (claimPasses s.messages env p).2 ≠ [] ∧ cfg.historyPolicy ≠ .off ∧
      fails.inHistory (claimPasses s.messages env p).2.length = true := by
  simp only [claimStatements, List.mem_append, List.mem_cons] at issued
  rcases issued with (rfl | second) | last
  · cases history
  · split at second
    · rw [List.mem_singleton.mp second] at history
      cases history
    · cases second
  · split at last
    · cases last
    · rename_i written
      refine ⟨fun nothing => written (Or.inl nothing),fun off => written (Or.inr off),?_⟩
      simp only [List.mem_append, List.mem_cons, List.mem_map, List.mem_range] at last
      rcases last with (rfl | ⟨i,bound,rfl⟩) | rfl | impossible
      · rfl
      · exact decide_eq_true bound
      · rfl
      · cases impossible

theorem claimWith_history (s : Store cfg) (env : Env) (p : ClaimParams) {fails : ClaimStatement}
    (issued : fails ∈ claimStatements s env p) (history : fails.isQuery = false) :
    claimWith s env p (some fails) =
      (⟨(claimPasses s.messages env p).1, s.history⟩, (claimPasses s.messages env p).2,
        some (.sql "claim history")) := by
  obtain ⟨claimed,kept,failing⟩ := claimStatements_history issued history
  rw [claimWith_passes s env p (by simp [history]), claimHistory, if_neg (by simp [claimed, kept]),
    if_pos (by simpa using failing)]

/-- A claim that returns a message has changed its row. -/
theorem claimPasses_changed {s : Store cfg} {env : Env} {p : ClaimParams}
    (claimed : (claimPasses s.messages env p).2 ≠ []) :
    ∃ k, (claimPasses s.messages env p).1.find? k ≠ s.row k := by
  obtain ⟨m,member⟩ := List.exists_mem_of_ne_nil _ claimed
  obtain ⟨statement,chosen,spec⟩ := claim_spec s env p
  obtain ⟨k,listed,r,found,_⟩ := (spec.returned m).mp member
  obtain ⟨r',found',pending,_⟩ := spec.eligible k listed
  cases found.symm.trans found'
  have row : (claimPasses s.messages env p).1.find? k = _ := spec.row k
  rw [found, Option.map_some, when, if_pos (decide_eq_true (Store.row_id found ▸ listed))] at row
  refine ⟨k,fun same => Status.pending_idle pending ?_⟩
  rw [row, found] at same
  exact (congrArg Row.status (Option.some.inj same)).symm

/-- Of the statements that a Claim issues, exactly the queries can fail without leaving
rows under a claim that nobody works on. -/
theorem fails_cleanly_iff (s : Store cfg) (env : Env) (p : ClaimParams) (fails : ClaimStatement)
    (issued : fails ∈ claimStatements s env p) : FailsCleanly s env p fails ↔ fails.isQuery = true := by
  constructor
  · rintro ⟨clean,_⟩
    by_contra history
    rw [Bool.not_eq_true] at history
    rw [claimWith_history s env p issued history] at clean
    obtain ⟨k,changed⟩ := claimPasses_changed (claimStatements_history issued history).1
    exact changed (clean (by simp) k)
  · intro query
    rw [FailsCleanly, claimWith_query s env p issued query]
    exact ⟨fun _ _ => rfl,fun _ changed => absurd rfl changed⟩

/-- A table with the one due message `k`. -/
def dueStore (k : Uuid) : Store ⟨false, .full⟩ :=
  (enqueue Store.empty (Env.quiet 5 k) (plainParams "mail" 3)).1

def claimMail : ClaimParams := ⟨"w", 10, 30 * Duration.second, ["mail"]⟩

theorem fails_cleanly_iff_shardPass :
    ClaimStatement.shardPass ∈ claimStatements (dueStore 7) (Env.quiet 6 0) claimMail ∧
    FailsCleanly (dueStore 7) (Env.quiet 6 0) claimMail .shardPass :=
  ⟨by decide +kernel,
    (fails_cleanly_iff (dueStore 7) (Env.quiet 6 0) claimMail .shardPass (by decide +kernel)).mpr rfl⟩

/-- The history transaction fails to commit: Claim reports an error, the message is under
claim with one attempt consumed, and nothing is dispatched. -/
theorem claim_history_failed :
    ClaimStatement.commitHistory ∈ claimStatements (dueStore 7) (Env.quiet 6 0) claimMail ∧
    (claimWith (dueStore 7) (Env.quiet 6 0) claimMail (some .commitHistory)).2.2 = some (.sql "claim history") ∧
    (claimWith (dueStore 7) (Env.quiet 6 0) claimMail (some .commitHistory)).1.row 7 =
      some (claimSet 6 "w" 30 (enqueueRow (Env.quiet 5 7) 0 (plainParams "mail" 3))) ∧
    ¬FailsCleanly (dueStore 7) (Env.quiet 6 0) claimMail .commitHistory := by
  refine ⟨by decide +kernel,rfl,rfl,fun clean => ?_⟩
  have same := clean.1 (by decide +kernel) 7
  revert same
  decide +kernel

end Tickr.Postgres
