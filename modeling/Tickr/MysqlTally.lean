import Tickr.MysqlRows
import Tickr.StorageTally

/-! The attempt counter of the MySQL adapter. ReleaseShutdown finds its row by the claimant
alone, so the counter of the row may be any positive number when it is given back. -/
namespace Tickr.Mysql

open KeyedTable

variable {cfg : Config}

theorem RowStep.counter {env : Env} {k : Uuid} {call : Call} {before after : Option Row}
    (step : RowStep cfg env k call before after) (other : ∀ p, call ≠ .claim p) :
    CounterStep call before after := by
  cases step with
  | same => exact .same
  | enqueue => exact .enqueue rfl rfl
  | enqueueBatch => exact .enqueueBatch rfl rfl
  | claim => exact absurd rfl (other _)
  | succeed | batchSucceed | failRetry | failDead | reclaimExpired =>
    exact .keep (fun _ _ _ _ => rfl) rfl (by simp [succeedSet, failRetrySet, failDeadSet, reclaimSet])
  | releaseShutdown holding =>
    refine .release (holdsClaim_iff.mp holding).2.1 ?_ rfl
    simp only [releaseShutdownSet]
    split <;> simp
  | extend holding => exact .keep (fun _ _ _ _ => rfl) rfl (fun _ => (holdsClaim_iff.mp holding).2.1)
  | requeue dead => exact .requeue dead rfl rfl
  | purgeTerminal => exact .remove

theorem claim_handout (s : Store cfg) (env : Env) (p : ClaimParams) :
    ∃ chosen, Handout s.row (claim s env p).1.row
      (claimSet (timestamp cfg env 2) p.workerID (env.clock 2 + p.lease)) scanMessage chosen (claim s env p).2 := by
  obtain ⟨chosen,spec⟩ := claim_spec s env p
  refine ⟨chosen,fun _ _ => Store.row_id,?_,spec.row,spec.returned⟩
  intro k listed
  obtain ⟨_,r,found,pending,_⟩ := spec.eligible k listed
  exact ⟨r,found,pending⟩

/-- Every call keeps the account of every message. -/
theorem exec_counted (s : Store cfg) (env : Env) (call : Call) (k : Uuid) (t : Tally)
    (counted : ∀ r, s.row k = some r → Counted t r) :
    ∀ r, (exec s env call).1.row k = some r →
      Counted (t.count k call (exec s env call).2 (s.row k ≠ (exec s env call).1.row k)) r := by
  by_cases claims : ∃ p, call = .claim p
  · obtain ⟨p,rfl⟩ := claims
    obtain ⟨_,handout⟩ := claim_handout s env p
    exact handout.counted (fun _ => rfl) (fun _ => rfl) k counted
  · have other (p : ClaimParams) : call ≠ .claim p := fun same => claims ⟨p,same⟩
    exact ((exec_row s env call k).counter other).counted other counted

end Tickr.Mysql
