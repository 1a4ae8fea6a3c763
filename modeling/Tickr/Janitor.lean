import Tickr.BatchLoop
import Tickr.PostgresRuns

/-! The janitor. Its two message loops call one storage operation that is told a cutoff
but not a status. -/
namespace Tickr

open Postgres BatchLoop

variable {pg : Postgres.Config}

structure RetentionPolicy where
  success : Duration
  dead : Duration
  history : Duration
  purgeBatch : Int
  deriving DecidableEq, Repr

def RetentionPolicy.successAge (p : RetentionPolicy) : Duration :=
  if p.success ≤ 0 then 24 * Duration.hour else p.success

/-- Of a policy that purges DEAD rows at all. -/
def RetentionPolicy.deadAge (p : RetentionPolicy) : Duration :=
  if p.dead = 0 then 30 * 24 * Duration.hour else p.dead

def RetentionPolicy.historyAge (p : RetentionPolicy) : Duration :=
  if p.history = 0 then
    max (max p.successAge (if p.dead < 0 then 0 else p.deadAge)) (30 * 24 * Duration.hour)
  else p.history

def RetentionPolicy.batch (p : RetentionPolicy) : Nat := limitOr 5000 p.purgeBatch

/-- What one pass takes from outside: the clock before each of its three loops, and the
database at each round of a loop. -/
structure Pass where
  clock : Nat → Time
  env : Nat → Nat → Env
  scan : Nat → KeyedTable.Scan HistoryRow

def purgeLoop (env : Nat → Env) (cutoff : Time) (batch fuel : Nat) (s : Store pg) : Option (Store pg) :=
  untilShort (fun round s => purgeTerminal s (env round) cutoff batch) batch fuel 0 s

def purgeHistoryLoop (policy : RetentionPolicy) (pass : Pass) (fuel : Nat) (s : Store pg) : Option (Store pg) :=
  if policy.history < 0 then some s
  else untilShort (fun round s =>
    purgeHistory s (pass.scan round) (pass.clock 2 - policy.historyAge) policy.batch) policy.batch fuel 0 s

/-- `tryPurge` under the leader lock, without storage errors or shutdown in between. -/
def tryPurge (policy : RetentionPolicy) (pass : Pass) (fuel : Nat) (s : Store pg) : Option (Store pg) :=
  (purgeLoop (pass.env 0) (pass.clock 0 - policy.successAge) policy.batch fuel s).bind fun s =>
    (if 0 ≤ policy.dead then purgeLoop (pass.env 1) (pass.clock 1 - policy.deadAge) policy.batch fuel s
      else some s).bind fun s => purgeHistoryLoop policy pass fuel s

/-! ### One purge -/

section
variable (s : Store pg) (env : Env) (before : Time) (limit : Int)

theorem purgeTerminal_kept (k : Uuid) :
    (purgeTerminal s env before limit).1.row k = s.row k ∨
    ((purgeTerminal s env before limit).1.row k = none ∧ ∃ r, s.row k = some r ∧ purgeable before r = true) := by
  have row := purgeTerminal_row s env before limit k
  cases found : s.row k with
  | none => exact Or.inl (by rw [row, found, Option.filter_none])
  | some r =>
    rw [found] at row
    by_cases chosen : r.id ∈ purgeChosen s.messages env before (limitOr 5000 limit)
    · obtain ⟨r',found',old⟩ := mem_purgeChosen chosen
      cases found.symm.trans (Store.row_id found ▸ found')
      exact Or.inr ⟨by simp [row, chosen],r,rfl,old⟩
    · exact Or.inl (by simp [row, chosen])

theorem purgeChosen_nodup (n : Nat) : (purgeChosen s.messages env before n).Nodup := by
  have visited : ((env.scan.visit s.messages.rows).map Row.id).Nodup :=
    ((env.scan.perm _).map Row.id).nodup_iff.mpr s.messages.primary
  have filtered : (((env.scan.visit s.messages.rows).filter (purgeable before)).map Row.id).Nodup :=
    visited.sublist (List.filter_sublist.map Row.id)
  have sorted := ((List.perm_insertionSort completedOrder _).map Row.id).nodup_iff.mpr filtered
  exact sorted.sublist ((List.take_sublist _ _).map _)

theorem purgeTerminal_consumes :
    (purgeTerminal s env before limit).1.messages.rows.length + (purgeTerminal s env before limit).2 ≤
      s.messages.rows.length := by
  refine KeyedTable.Table.delete_length (purgeChosen_nodup s env before _) fun k chosen => ?_
  obtain ⟨r,found,_⟩ := mem_purgeChosen chosen
  exact List.mem_map.mpr ⟨r,KeyedTable.Table.find?_mem found,KeyedTable.Table.find?_key found⟩

/-- A round that found less than a full batch has left nothing behind. -/
theorem purgeTerminal_short (short : (purgeTerminal s env before limit).2 < limitOr 5000 limit) {k : Uuid}
    {r : Row} (left : (purgeTerminal s env before limit).1.row k = some r) : purgeable before r = false := by
  rw [purgeTerminal_row] at left
  obtain ⟨found,passed⟩ := Option.filter_eq_some_iff.mp left
  by_contra old
  have all : r.id ∈ purgeChosen s.messages env before (limitOr 5000 limit) := by
    simp only [purgeTerminal, purgeChosen, List.length_map, List.length_take] at short
    rw [purgeChosen, List.take_of_length_le (by omega)]
    refine List.mem_map_of_mem ((List.mem_insertionSort _).mpr (List.mem_filter.mpr ⟨?_,?_⟩))
    · exact env.scan.mem_visit.mpr (Store.row_mem found)
    · exact Bool.eq_true_of_not_eq_false old
  simp [all] at passed

end

/-! ### The loops -/

theorem RetentionPolicy.batch_pos (p : RetentionPolicy) : 0 < p.batch := limitOr_pos (by decide) p.purgeBatch

/-- A limit that the storage does not replace by its own default. -/
theorem limitOr_natCast {default n : Nat} (positive : 0 < n) : limitOr default n = n := by
  rw [limitOr, if_neg (by omega), Int.toNat_natCast]

theorem purgeLoop_spec (env : Nat → Env) (cutoff : Time) {batch fuel : Nat} (positive : 0 < batch) (s : Store pg)
    (enough : s.messages.rows.length < fuel) :
    ∃ s', purgeLoop env cutoff batch fuel s = some s' ∧
      (∀ k, s'.row k = (s.row k).filter fun r => !purgeable cutoff r) ∧
      s'.messages.rows.length ≤ s.messages.rows.length ∧ s'.history = s.history := by
  obtain ⟨s',ran⟩ := untilShort_ends (fun s : Store pg => s.messages.rows.length)
    (fun round s => purgeTerminal_consumes s (env round) cutoff batch) positive 0 enough
  -- rows leave only if they are purgeable; the last round has seen all of those that remained
  obtain ⟨⟨kept,shorter,history⟩,rest⟩ := untilShort_spec
    (fun t : Store pg => (∀ k, t.row k = s.row k ∨
        (t.row k = none ∧ ∃ r, s.row k = some r ∧ purgeable cutoff r = true)) ∧
      t.messages.rows.length ≤ s.messages.rows.length ∧ t.history = s.history)
    (fun t => ∀ k r, t.row k = some r → purgeable cutoff r = false)
    (by
      rintro round t ⟨kept,shorter,history⟩
      refine ⟨fun k => ?_,?_,history⟩
      · rcases purgeTerminal_kept t (env round) cutoff batch k with same | ⟨gone,r,found,old⟩
        · rw [same]
          exact kept k
        · rcases kept k with before | ⟨absent,_⟩
          · exact Or.inr ⟨gone,r,before ▸ found,old⟩
          · cases found.symm.trans absent
      · have consumed := purgeTerminal_consumes t (env round) cutoff batch
        omega)
    (fun round t _ short k r left => by
      refine purgeTerminal_short t (env round) cutoff batch ?_ left
      rw [limitOr_natCast positive]
      exact short)
    ran ⟨fun _ => Or.inl rfl,Nat.le_refl _,rfl⟩
  refine ⟨s',ran,fun k => ?_,shorter,history⟩
  rcases kept k with same | ⟨gone,r,found,old⟩
  · cases left : s'.row k with
    | none => rw [← same, left, Option.filter_none]
    | some r => rw [← same, left, Option.filter_some, rest k r left]; rfl
  · rw [gone, found, Option.filter_some, old]; rfl

theorem purgeHistory_consumes (s : Store pg) (scan : KeyedTable.Scan HistoryRow) (before : Time) (limit : Int) :
    (purgeHistory s scan before limit).1.history.length + (purgeHistory s scan before limit).2 ≤
      s.history.length := by
  have parts := List.length_eq_length_filter_add (l := s.history) fun h =>
    decide ((h.messageID, h.seq) ∈ purgeHistoryChosen s.history scan before (limitOr 5000 limit))
  simp only [purgeHistory]
  omega

theorem purgeHistoryLoop_spec (policy : RetentionPolicy) (pass : Pass) {fuel : Nat} (s : Store pg)
    (enough : s.history.length < fuel) :
    ∃ s', purgeHistoryLoop policy pass fuel s = some s' ∧ s'.messages = s.messages := by
  unfold purgeHistoryLoop
  split
  · exact ⟨s,rfl,rfl⟩
  · obtain ⟨s',ran⟩ := untilShort_ends (fun s : Store pg => s.history.length)
      (fun round s => purgeHistory_consumes s (pass.scan round) _ _) policy.batch_pos 0 enough
    exact ⟨s',ran,(untilShort_spec (fun t : Store pg => t.messages = s.messages) (fun _ => True)
      (fun _ _ same => same) (fun _ _ _ _ => trivial) ran rfl).1⟩

/-! ### One pass -/

def completedBefore (cutoff : Time) (r : Row) : Bool := r.completedAt.any fun t => t < cutoff

/-- What the retention policy says may be deleted. -/
def Due (policy : RetentionPolicy) (pass : Pass) (r : Row) : Prop :=
  (r.status = .success ∧ completedBefore (pass.clock 0 - policy.successAge) r = true) ∨
  (r.status = .dead ∧ 0 ≤ policy.dead ∧ completedBefore (pass.clock 1 - policy.deadAge) r = true)

/-- What a pass deletes: each loop takes both terminal statuses. -/
def taken (policy : RetentionPolicy) (pass : Pass) (r : Row) : Bool :=
  r.status.terminal && (completedBefore (pass.clock 0 - policy.successAge) r ||
    (0 ≤ policy.dead && completedBefore (pass.clock 1 - policy.deadAge) r))

/-- The two cutoffs do not get into each other's way at `r`. -/
def Apart (policy : RetentionPolicy) (pass : Pass) (r : Row) : Prop :=
  (r.status = .dead → completedBefore (pass.clock 0 - policy.successAge) r = true →
    0 ≤ policy.dead ∧ completedBefore (pass.clock 1 - policy.deadAge) r = true) ∧
  (r.status = .success → 0 ≤ policy.dead → completedBefore (pass.clock 1 - policy.deadAge) r = true →
    completedBefore (pass.clock 0 - policy.successAge) r = true)

instance (policy : RetentionPolicy) (pass : Pass) (r : Row) : Decidable (Apart policy pass r) :=
  inferInstanceAs (Decidable (_ ∧ _))

theorem due_of_taken_iff {policy : RetentionPolicy} {pass : Pass} {r : Row} :
    (taken policy pass r = true → Due policy pass r) ↔ Apart policy pass r := by
  cases status : r.status <;> simp [taken, Due, Apart, status, Status.terminal]
  · tauto
  · tauto

theorem purgeable_eq (cutoff : Time) (r : Row) :
    purgeable cutoff r = (r.status.terminal && completedBefore cutoff r) := rfl

/-- A pass ends, and it leaves exactly the rows that neither loop takes. -/
theorem tryPurge_spec (policy : RetentionPolicy) (pass : Pass) (s : Store pg) {fuel : Nat}
    (enough : s.messages.rows.length < fuel) (history : s.history.length < fuel) :
    ∃ s', tryPurge policy pass fuel s = some s' ∧
      ∀ k, s'.row k = (s.row k).filter fun r => !taken policy pass r := by
  obtain ⟨s₁,first,rows₁,shorter,same₁⟩ :=
    purgeLoop_spec (pass.env 0) (pass.clock 0 - policy.successAge) policy.batch_pos s enough
  by_cases purged : 0 ≤ policy.dead
  · obtain ⟨s₂,second,rows₂,_,same₂⟩ := purgeLoop_spec (pass.env 1) (pass.clock 1 - policy.deadAge)
      policy.batch_pos s₁ (Nat.lt_of_le_of_lt shorter enough)
    obtain ⟨s₃,third,same₃⟩ := purgeHistoryLoop_spec policy pass s₂ (by rwa [same₂, same₁])
    refine ⟨s₃,by simp [tryPurge, first, purged, second, third],fun k => ?_⟩
    rw [Store.row, same₃, ← Store.row, rows₂, rows₁, Option.filter_filter]
    congr 1
    funext r
    simp only [taken, purgeable_eq, purged, decide_true, Bool.true_and]
    cases r.status.terminal <;> simp
  · obtain ⟨s₃,third,same₃⟩ := purgeHistoryLoop_spec policy pass s₁ (by rwa [same₁])
    refine ⟨s₃,by simp [tryPurge, first, purged, third],fun k => ?_⟩
    rw [Store.row, same₃, ← Store.row, rows₁]
    simp only [taken, purgeable_eq, purged, decide_false, Bool.false_and, Bool.or_false]

/-- A pass always ends, and it deletes only what the policy allows exactly when no DEAD
row is past the Success age before its own and no SUCCESS row is past the Dead age before
its own. -/
theorem retention_by_status (policy : RetentionPolicy) (pass : Pass) (s : Store pg) (fuel : Nat)
    (enough : s.messages.rows.length < fuel) (history : s.history.length < fuel) :
    ∃ s', tryPurge policy pass fuel s = some s' ∧
      ((∀ r ∈ s.messages.rows, s'.row r.id = none → Due policy pass r) ↔
        ∀ r ∈ s.messages.rows, Apart policy pass r) := by
  obtain ⟨s',ran,rows⟩ := tryPurge_spec policy pass s enough history
  refine ⟨s',ran,forall₂_congr fun r member => ?_⟩
  have deleted : s'.row r.id = none ↔ taken policy pass r = true := by
    rw [rows, Store.row_of_mem member, Option.filter_some]
    cases taken policy pass r <;> simp
  rw [deleted, due_of_taken_iff]

/-! ### A dead letter of the day before yesterday -/

/-- One message that is completed at once, as SUCCESS or as DEAD. -/
def finished (dead : Bool) : Store ⟨false, .full⟩ :=
  execute Store.empty [(Env.quiet 5 7, .enqueue (plainParams "mail" 1)), (Env.quiet 6 0, fetchAll "w"),
    (Env.quiet 7 0, if dead then .fail ⟨.uuid 7, 1, "w", "boom", Time.zero, true⟩ else .succeed (.uuid 7) 1 "w")]

def passAt (now : Time) : Pass := ⟨fun _ => now, fun _ _ => Env.quiet now 0, fun _ => KeyedTable.Scan.physical _⟩

theorem retention_by_status_success :
    ∃ s', tryPurge ⟨0, -1, 0, 0⟩ (passAt (48 * Duration.hour)) 10 (finished false) = some s' ∧
      s'.row 7 = none ∧
      ∀ r ∈ (finished false).messages.rows, s'.row r.id = none →
        Due ⟨0, -1, 0, 0⟩ (passAt (48 * Duration.hour)) r := by
  obtain ⟨s',ran,allowed⟩ := retention_by_status ⟨0, -1, 0, 0⟩ (passAt (48 * Duration.hour)) (finished false) 10
    (by decide +kernel) (by decide +kernel)
  have gone : (tryPurge ⟨0, -1, 0, 0⟩ (passAt (48 * Duration.hour)) 10 (finished false)).bind
      (fun s => s.row 7) = none := by decide +kernel
  rw [ran] at gone
  exact ⟨s',ran,gone,allowed.mpr (by decide +kernel)⟩

/-- The policy never purges DEAD rows, but the first loop does. -/
theorem retention_by_status_broken :
    ((finished true).row 7).map Row.status = some .dead ∧
    (tryPurge ⟨0, -1, 0, 0⟩ (passAt (48 * Duration.hour)) 10 (finished true)).map (fun s => s.row 7) =
      some none := by
  decide +kernel

end Tickr
