import Tickr.PostgresRuns
import Tickr.StorageTally

/-! The attempt counter of the PostgreSQL adapter, row by row beside the invariant of its
columns. -/
namespace Tickr.Postgres

open KeyedTable

variable {cfg : Config}

def Tallied (t : Tally) (row : Option Row) : Prop :=
  ∀ r, row = some r → Sound r ∧ r.attempt = t.claims - t.releases

theorem Tallied.counted {t : Tally} {row : Option Row} (tallied : Tallied t row) :
    ∀ r, row = some r → Counted t r := by
  intro r present
  obtain ⟨sound,balance⟩ := tallied r present
  exact ⟨balance,sound.2,sound.1.attempted⟩

theorem RowStep.counter {env : Env} {k : Uuid} {call : Call} {before after : Option Row}
    (step : RowStep env k call before after) (other : ∀ p, call ≠ .claim p) : CounterStep call before after := by
  cases step with
  | same => exact .same
  | enqueue => exact .enqueue rfl rfl
  | enqueueBatch => exact .enqueueBatch rfl rfl
  | claim => exact absurd rfl (other _)
  | succeed | batchSucceed | failRetry | failDead | reclaimExpired =>
    exact .keep (fun _ _ _ _ => rfl) rfl (by simp [succeedSet, failRetrySet, failDeadSet, reclaimSet])
  | releaseShutdown handling => exact .release handling (by simp [releaseShutdownSet]) (Int.max_comm ..)
  | extend handling => exact .keep (fun _ _ _ _ => rfl) rfl (fun _ => handling)
  | requeue dead => exact .requeue dead rfl rfl
  | purgeTerminal => exact .remove

theorem claim_handout (s : Store cfg) (env : Env) (p : ClaimParams) :
    ∃ statement chosen, Handout s.row (claim s env p).1.row
      (claimSet (env.now statement) p.workerID (claimLeaseSec p)) scanMessage chosen (claim s env p).2 := by
  obtain ⟨statement,chosen,spec⟩ := claim_spec s env p
  refine ⟨statement,chosen,fun _ _ => Store.row_id,?_,spec.row,spec.returned⟩
  intro k listed
  obtain ⟨r,found,pending,_⟩ := spec.eligible k listed
  exact ⟨r,found,pending⟩

/-- Every call keeps the account of every message. -/
theorem exec_counted (s : Store cfg) (env : Env) (call : Call) (k : Uuid) (t : Tally)
    (counted : ∀ r, s.row k = some r → Counted t r) :
    ∀ r, (exec s env call).1.row k = some r →
      Counted (t.count k call (exec s env call).2 (s.row k ≠ (exec s env call).1.row k)) r := by
  by_cases claims : ∃ p, call = .claim p
  · obtain ⟨p,rfl⟩ := claims
    obtain ⟨_,_,handout⟩ := claim_handout s env p
    exact handout.counted (fun _ => rfl) (fun _ => rfl) k counted
  · have other (p : ClaimParams) : call ≠ .claim p := fun same => claims ⟨p,same⟩
    exact ((exec_row s env call k).counter other).counted other counted

theorem exec_tallied (s : Store cfg) (env : Env) (call : Call) (k : Uuid) {t : Tally}
    (tallied : Tallied t (s.row k)) :
    Tallied (t.count k call (exec s env call).2 (s.row k ≠ (exec s env call).1.row k))
      ((exec s env call).1.row k) := by
  intro r' found
  refine ⟨?_,(exec_counted s env call k t tallied.counted r' found).balance⟩
  have step := exec_row s env call k
  rw [found] at step
  cases before : s.row k with
  | some r => exact (before ▸ step).sound (tallied r before).1
  | none =>
    rw [before] at step
    cases step with
    | enqueue | enqueueBatch => exact enqueueRow_sound ..

end Tickr.Postgres
