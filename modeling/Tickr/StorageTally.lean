import Tickr.StorageLeases

/-! The attempt counter of a row as an account, for either adapter: claims are its deposits
and releases its withdrawals, from the insertion or the last Requeue on. -/
namespace Tickr

open KeyedTable

/-- A row under claim has a deposit to give back, so a release never has to clip. -/
structure Counted (t : Tally) (r : Row) : Prop where
  balance : r.attempt = t.claims - t.releases
  counter : 0 ≤ r.attempt
  attempted : r.status = .handling → 1 ≤ r.attempt

/-- What a call other than Claim does to the counter of one row. -/
inductive CounterStep : Call → Option Row → Option Row → Prop where
  | same : CounterStep call row row
  | enqueue : r.attempt = 0 → r.status = .created → CounterStep (.enqueue p) none (some r)
  | enqueueBatch : r.attempt = 0 → r.status = .created → CounterStep (.enqueueBatch ps) none (some r)
  | release : r.status = .handling → r'.status ≠ .handling → r'.attempt = max (r.attempt - 1) 0 →
      CounterStep (.releaseShutdown mid attempt workerID reason) (some r) (some r')
  | requeue : r.status = .dead → r'.status = .created → r'.attempt = 0 →
      CounterStep (.requeue mid processAt) (some r) (some r')
  | keep : (∀ t id reply changed, Tally.count t id call reply changed = t) → r'.attempt = r.attempt →
      (r'.status = .handling → r.status = .handling) → CounterStep call (some r) (some r')
  | remove : CounterStep call (some r) none

theorem CounterStep.counted {call : Call} {before after : Option Row} {t : Tally} {id : Uuid} {reply : Reply}
    (step : CounterStep call before after) (other : ∀ p, call ≠ .claim p)
    (counted : ∀ r, before = some r → Counted t r) :
    ∀ r, after = some r → Counted (t.count id call reply (before ≠ after)) r := by
  intro r' present
  cases step with
  | same =>
    rw [decide_eq_false (fun changed => changed rfl), Tally.count_unchanged other]
    exact counted r' present
  | enqueue zero created | enqueueBatch zero created =>
    cases present
    exact ⟨by simp [Tally.count, zero],by omega,by simp [created]⟩
  | release handling left drop =>
    cases present
    have before := counted _ rfl
    have deposit := before.attempted handling
    have balance := before.balance
    rw [Tally.count, moved_of_status (by rw [handling]; exact left), if_pos rfl]
    exact ⟨by simp only; omega,by omega,fun impossible => absurd impossible left⟩
  | requeue dead created zero =>
    cases present
    rw [Tally.count, moved_of_status (by simp [dead, created]), if_pos rfl]
    exact ⟨by simp [zero],by omega,by simp [created]⟩
  | keep uncounted same status =>
    cases present
    have before := counted _ rfl
    rw [uncounted]
    exact ⟨same ▸ before.balance,same ▸ before.counter,fun held => same ▸ before.attempted (status held)⟩
  | remove => cases present

section
variable {row row' : Uuid → Option Row} {set : Row → Row} {scan : Row → InboundMessage}
  {chosen : List Uuid} {msgs : List InboundMessage}

theorem Handout.returns (handout : Handout row row' set scan chosen msgs)
    (scanned : ∀ r, (scan (set r)).id = .uuid r.id) {k : Uuid} {r : Row} (found : row k = some r) :
    Reply.returns k (.messages msgs) = true ↔ k ∈ chosen := by
  rw [Reply.returns, List.any_eq_true]
  constructor
  · rintro ⟨m,member,named⟩
    obtain ⟨k',listed,r',found',rfl⟩ := (handout.returned m).mp member
    have same : k' = k := by
      rw [decide_eq_true_eq, scanned] at named
      exact (handout.keyed k' r' found').symm.trans (MessageID.uuid.inj named)
    exact same ▸ listed
  · intro listed
    refine ⟨_,(handout.returned _).mpr ⟨k,listed,r,found,rfl⟩,decide_eq_true ?_⟩
    rw [scanned, handout.keyed k r found]

/-- A claim returns a message exactly when it advances its counter. -/
theorem Handout.counted (handout : Handout row row' set scan chosen msgs)
    (scanned : ∀ r, (scan (set r)).id = .uuid r.id) (advanced : ∀ r, (set r).attempt = r.attempt + 1)
    {p : ClaimParams} {t : Tally} {changed : Bool} (k : Uuid) (counted : ∀ r, row k = some r → Counted t r) :
    ∀ r, row' k = some r → Counted (t.count k (.claim p) (.messages msgs) changed) r := by
  intro r' present
  rw [handout.after] at present
  obtain ⟨r,found,rfl⟩ := Option.map_eq_some_iff.mp present
  have before := counted r found
  have returned := handout.returns scanned found
  rw [Tally.count, when, handout.keyed k r found]
  by_cases listed : k ∈ chosen
  · rw [if_pos (returned.mpr listed), if_pos (decide_eq_true listed)]
    have balance := before.balance
    have counter := before.counter
    exact ⟨by rw [advanced]; simp only; omega,by rw [advanced]; omega,fun _ => by rw [advanced]; omega⟩
  · rw [if_neg (mt returned.mp listed), if_neg (by simpa using listed)]
    exact before

end

/-! ### Whole runs -/

section
variable {σ : Type} (exec : σ → Env → Call → σ × Reply) (row : σ → Uuid → Option Row)

/-- A run of an adapter beside the tally of every message. -/
def tallied (s : σ) (tallies : Uuid → Tally) : List (Env × Call) → σ × (Uuid → Tally)
  | [] => (s, tallies)
  | (env, call) :: rest =>
    tallied (exec s env call).1
      (fun k => (tallies k).count k call (exec s env call).2 (row s k ≠ row (exec s env call).1 k)) rest

variable {exec row}

theorem tallied_counted
    (step : ∀ s env call k t, (∀ r, row s k = some r → Counted t r) →
      ∀ r, row (exec s env call).1 k = some r →
        Counted (t.count k call (exec s env call).2 (row s k ≠ row (exec s env call).1 k)) r)
    {s : σ} {tallies : Uuid → Tally} (trace : List (Env × Call))
    (initial : ∀ k r, row s k = some r → Counted (tallies k) r) :
    ∀ k r, row (tallied exec row s tallies trace).1 k = some r →
      Counted ((tallied exec row s tallies trace).2 k) r := by
  induction trace generalizing s tallies with
  | nil => exact initial
  | cons label rest ih =>
    obtain ⟨env,call⟩ := label
    exact ih fun k => step s env call k (tallies k) (initial k)

end

end Tickr
