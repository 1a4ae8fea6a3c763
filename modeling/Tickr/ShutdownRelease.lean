import Tickr.MysqlRuns
import Tickr.MysqlTally
import Tickr.PostgresRuns
import Tickr.PostgresTally

/-! A Claim that is given back at once. MySQL works the old status out from the counter;
PostgreSQL writes RETRYING whatever the status was. -/
namespace Tickr

open KeyedTable

/-- A message whose first attempt has failed. -/
def failedOnce : List (Env × Call) :=
  [(Env.quiet 5 7, .enqueue (plainParams "mail" 3)),
   (Env.quiet 6 0, .claim ⟨"a", 10, 30 * Duration.second, ["mail"]⟩),
   (Env.quiet 7 0, .fail ⟨.uuid 7, 1, "a", "boom", 8, false⟩)]

def claimByB : ClaimParams := ⟨"b", 10, 30 * Duration.second, ["mail"]⟩

/-- Something that leaves message 7 alone. -/
def elsewhere : List (Env × Call) := [(Env.quiet 10 8, .enqueue (plainParams "mail" 3))]

namespace Mysql

variable {cfg : Config}

/-- Taken and given back, a row differs in its time of update alone. -/
theorem releaseShutdownSet_claimSet {r : Row} (countable : Countable r) (pending : r.status.pending = true)
    (claimed released until_ : Time) (workerID : String) :
    releaseShutdownSet released (claimSet claimed workerID until_ r) = { r with updatedAt := released } := by
  obtain ⟨owner,lease⟩ := countable.unclaimed pending
  have counter := countable.counter
  have attempt : max (r.attempt + 1 - 1) 0 = r.attempt := by omega
  have status : (if r.attempt + 1 > 1 then Status.retrying else .created) = r.status := by
    have untried := countable.untried pending
    rcases Status.pending_iff.mp pending with created | retrying
    · have zero := untried.mp created
      rw [if_neg (by omega), created]
    · have tried : r.attempt ≠ 0 := by
        intro zero
        rw [retrying] at untried
        cases untried.mpr zero
      rw [if_pos (by omega), retrying]
  calc releaseShutdownSet released (claimSet claimed workerID until_ r)
      = { r with
          status := if r.attempt + 1 > 1 then .retrying else .created
          attempt := max (r.attempt + 1 - 1) 0
          claimedBy := none
          claimedUntil := none
          updatedAt := released } := rfl
    _ = { r with claimedBy := none, claimedUntil := none, updatedAt := released } := by rw [status, attempt]
    _ = { r with updatedAt := released } := by rw [← owner, ← lease]

theorem claimed_row {s : Store cfg} {env : Env} {p : ClaimParams} {m : InboundMessage} {k : Uuid} {r : Row}
    (found : s.row k = some r) (returned : m ∈ (claim s env p).2) (named : m.id = .uuid k) :
    r.status.pending = true ∧ (claim s env p).1.row k =
      some (claimSet (timestamp cfg env 2) p.workerID (env.clock 2 + p.lease) r) := by
  obtain ⟨chosen,handout⟩ := claim_handout s env p
  obtain ⟨r',found',pending,after,_⟩ := handout.taken (fun _ => rfl) returned named
  cases found.symm.trans found'
  exact ⟨pending,after⟩

/-- In every reachable table, a ReleaseShutdown by the claimant undoes a Claim on each row
that it returned, whatever happened to other rows in between. -/
theorem release_undoes_claim (trace : List (Env × Call)) (env : Env) (p : ClaimParams) (m : InboundMessage)
    (k : Uuid) (r : Row) (between : List (Env × Call)) (later : Env) (attempt : Int) (reason : String)
    (before : (execute (Store.empty : Store cfg) trace).row k = some r)
    (returned : m ∈ (claim (execute (Store.empty : Store cfg) trace) env p).2) (named : m.id = .uuid k)
    (untouched : (execute (claim (execute (Store.empty : Store cfg) trace) env p).1 between).row k =
      (claim (execute (Store.empty : Store cfg) trace) env p).1.row k) :
    (r.status = .created ∨ r.status = .retrying) ∧ r.claimedBy = none ∧ r.claimedUntil = none ∧
    ∃ time, (releaseShutdown (execute (claim (execute (Store.empty : Store cfg) trace) env p).1 between) later
      m.id attempt p.workerID reason).row k = some { r with updatedAt := time } := by
  have countable := execute_countable trace k r before
  obtain ⟨pending,claimed⟩ := claimed_row before returned named
  obtain ⟨owner,lease⟩ := countable.unclaimed pending
  refine ⟨Status.pending_iff.mp pending,owner,lease,timestamp cfg later 0,?_⟩
  have held : holdsClaim cfg m.id p.workerID
      (claimSet (timestamp cfg env 2) p.workerID (env.clock 2 + p.lease) r) = true :=
    holdsClaim_iff.mpr ⟨named.trans (congrArg _ (Store.row_id before).symm),rfl,p.workerID,rfl,rfl⟩
  rw [releaseShutdown_row, untouched, claimed, Option.map_some, when, if_pos held,
    releaseShutdownSet_claimSet countable pending]

theorem release_undoes_claim_retrying :
    ∃ r time, (execute (Store.empty : Store .binary) failedOnce).row 7 = some r ∧ r.status = .retrying ∧
      (releaseShutdown (execute (claim (execute (Store.empty : Store .binary) failedOnce) (Env.quiet 9 0) claimByB).1
        elsewhere) (Env.quiet 11 0) (.uuid 7) 2 "b" "worker shutdown").row 7 = some { r with updatedAt := time } := by
  obtain ⟨_,_,_,time,undone⟩ := @release_undoes_claim .binary failedOnce (Env.quiet 9 0) claimByB
    ⟨.uuid 7, "mail", [], [], "", 2, 3, 5, 8, "boom", none⟩ 7 _ elsewhere (Env.quiet 11 0) 2 "worker shutdown"
    rfl (by decide +kernel) rfl (by decide +kernel)
  exact ⟨_,time,rfl,rfl,undone⟩

end Mysql

namespace Postgres

variable {cfg : Config}

theorem claimed_row {s : Store cfg} {env : Env} {p : ClaimParams} {m : InboundMessage} {k : Uuid} {r : Row}
    (found : s.row k = some r) (returned : m ∈ (claim s env p).2) (named : m.id = .uuid k) :
    r.status.pending = true ∧ m.attempt = r.attempt + 1 ∧ ∃ statement, (claim s env p).1.row k =
      some (claimSet (env.now statement) p.workerID (claimLeaseSec p) r) := by
  obtain ⟨statement,chosen,handout⟩ := claim_handout s env p
  obtain ⟨r',found',pending,after,scanned⟩ := handout.taken (fun _ => rfl) returned named
  cases found.symm.trans found'
  exact ⟨pending,congrArg InboundMessage.attempt scanned,statement,after⟩

/-- In every reachable table, a ReleaseShutdown with the returned attempt restores the
attempt of a claimed row, and its status exactly if that was RETRYING. -/
theorem release_restores_iff (trace : List (Env × Call)) (env : Env) (p : ClaimParams) (m : InboundMessage)
    (k : Uuid) (r : Row) (between : List (Env × Call)) (later : Env) (workerID reason : String)
    (before : (execute (Store.empty : Store cfg) trace).row k = some r)
    (returned : m ∈ (claim (execute (Store.empty : Store cfg) trace) env p).2) (named : m.id = .uuid k)
    (untouched : (execute (claim (execute (Store.empty : Store cfg) trace) env p).1 between).row k =
      (claim (execute (Store.empty : Store cfg) trace) env p).1.row k) :
    ∃ r', (releaseShutdown (execute (claim (execute (Store.empty : Store cfg) trace) env p).1 between) later
        m.id m.attempt workerID reason).1.row k = some r' ∧ r'.attempt = r.attempt ∧
      (r'.status = r.status ∧ r'.attempt = r.attempt ↔ r.status = .retrying) := by
  obtain ⟨_,counter⟩ := execute_sound trace k r before
  obtain ⟨pending,counted,statement,claimed⟩ := claimed_row before returned named
  have keyed : r.id = k := Store.row_id before
  have held : holds k m.attempt (claimSet (env.now statement) p.workerID (claimLeaseSec p) r) = true :=
    holds_iff.mpr ⟨keyed,rfl,counted.symm⟩
  have attempt : max 0 (r.attempt + 1 - 1) = r.attempt := by omega
  refine ⟨releaseShutdownSet (later.now 0) reason (claimSet (env.now statement) p.workerID (claimLeaseSec p) r),
    ?_,attempt,?_⟩
  · simp only [releaseShutdown, named, MessageID.parse]
    rw [releaseStatement_row, untouched, claimed, Option.map_some, when, if_pos held]
  · constructor
    · rintro ⟨status,_⟩
      exact status.symm
    · intro retrying
      exact ⟨retrying.symm,attempt⟩

theorem release_restores_iff_retrying :
    ∃ r r', (execute (Store.empty : Store ⟨false, .full⟩) failedOnce).row 7 = some r ∧ r.status = .retrying ∧
      (releaseShutdown (execute (claim (execute (Store.empty : Store ⟨false, .full⟩) failedOnce) (Env.quiet 9 0)
        claimByB).1 elsewhere) (Env.quiet 11 0) (.uuid 7) 2 "b" "worker shutdown").1.row 7 = some r' ∧
      r'.status = r.status ∧ r'.attempt = r.attempt := by
  obtain ⟨r',after,_,restored⟩ := @release_restores_iff ⟨false, .full⟩ failedOnce (Env.quiet 9 0) claimByB
    ⟨.uuid 7, "mail", [], [], "", 2, 3, 5, 8, "boom", some .handling⟩ 7 _ elsewhere (Env.quiet 11 0) "b"
    "worker shutdown" rfl (by decide +kernel) rfl (by decide +kernel)
  exact ⟨_,r',rfl,rfl,after,restored.mpr rfl⟩

/-- A message that was never tried comes back as one that was. -/
theorem release_forgets_created :
    ((execute (Store.empty : Store ⟨false, .full⟩) [(Env.quiet 5 7, .enqueue (plainParams "mail" 3))]).row 7).map
      (fun r => (r.status, r.attempt)) = some (.created, 0) ∧
    ((execute (Store.empty : Store ⟨false, .full⟩)
      [(Env.quiet 5 7, .enqueue (plainParams "mail" 3)), (Env.quiet 6 0, .claim claimByB),
       (Env.quiet 7 0, .releaseShutdown (.uuid 7) 1 "b" "worker shutdown")]).row 7).map
      (fun r => (r.status, r.attempt)) = some (.retrying, 0) := by
  decide +kernel

end Postgres

end Tickr
