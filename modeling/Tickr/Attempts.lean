import Tickr.MysqlTally
import Tickr.PostgresTally

/-! Attempt accounting of both SQL adapters, over runs in which the calls come in any order
and from any worker. -/
namespace Tickr

section
variable {σ : Type} (exec : σ → Env → Call → σ × Reply) (row : σ → Uuid → Option Row)

/-- From `initial` on, the counter of every row is the claims that returned it less the
releases that changed it, and a release takes exactly one away. -/
def AttemptsExact (initial : σ) : Prop :=
  ∀ trace : List (Env × Call),
    let final := tallied exec row initial (fun _ => ⟨0, 0⟩) trace
    ∀ k r, row final.1 k = some r →
      r.attempt = (final.2 k).claims - (final.2 k).releases ∧
      ∀ env mid attempt workerID reason r',
        row (exec final.1 env (.releaseShutdown mid attempt workerID reason)).1 k = some r' → r' ≠ r →
        r'.attempt = r.attempt - 1 ∧ 0 ≤ r'.attempt

variable {exec row}

theorem attemptsExact_of_counted {initial : σ}
    (step : ∀ s env call k t, (∀ r, row s k = some r → Counted t r) →
      ∀ r, row (exec s env call).1 k = some r →
        Counted (t.count k call (exec s env call).2 (row s k ≠ row (exec s env call).1 k)) r)
    (empty : ∀ k, row initial k = none) : AttemptsExact exec row initial := by
  intro trace final k r found
  have account : ∀ k r, row final.1 k = some r → Counted (final.2 k) r :=
    tallied_counted step trace (by simp [empty])
  refine ⟨(account k r found).balance,?_⟩
  intro env mid attempt workerID reason r' found' moved
  have after := step final.1 env (.releaseShutdown mid attempt workerID reason) k (final.2 k) (account k) r' found'
  have changed : decide (row final.1 k ≠ row (exec final.1 env (.releaseShutdown mid attempt workerID reason)).1 k) =
      true := by
    rw [found, found', decide_eq_true_eq]
    exact fun same => moved (Option.some.inj same).symm
  rw [Tally.count, changed, if_pos rfl] at after
  have balance := after.balance
  have before := (account k r found).balance
  simp only at balance
  exact ⟨by omega,after.counter⟩

end

/-- Both adapters keep the account of every message in every run. -/
theorem attempts_exact (pg : Postgres.Config) (my : Mysql.Config) :
    AttemptsExact Postgres.exec Postgres.Store.row (Postgres.Store.empty : Postgres.Store pg) ∧
    AttemptsExact Mysql.exec Mysql.Store.row (Mysql.Store.empty : Mysql.Store my) :=
  ⟨attemptsExact_of_counted Postgres.exec_counted (fun _ => rfl),
    attemptsExact_of_counted Mysql.exec_counted (fun _ => rfl)⟩

/-- Claimed, reclaimed, claimed again and given back on shutdown. -/
def releasedTrace : List (Env × Call) :=
  [(Env.quiet 5 7, .enqueue (plainParams "mail" 3)),
   (Env.quiet 6 0, .claim ⟨"a", 10, 30 * Duration.second, ["mail"]⟩),
   (Env.quiet (40 * Duration.second) 0, .reclaimExpired 500),
   (Env.quiet (41 * Duration.second) 0, .claim ⟨"b", 10, 30 * Duration.second, ["mail"]⟩),
   (Env.quiet (42 * Duration.second) 0, .releaseShutdown (.uuid 7) 2 "b" "shutdown")]

example : (tallied Mysql.exec Mysql.Store.row (Mysql.Store.empty : Mysql.Store .binary) (fun _ => ⟨0, 0⟩)
    releasedTrace).2 7 = ⟨2, 1⟩ := by decide +kernel

end Tickr
