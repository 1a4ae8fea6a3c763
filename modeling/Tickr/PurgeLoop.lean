import Tickr.Janitor

/-! One message loop of the janitor among everything else that happens to the table. The loop
has no bound of its own: it ends because the rows that it may still delete only ever get fewer
once the cutoff has passed. -/
namespace Tickr

open Postgres BatchLoop

variable {pg : Postgres.Config}

/-- What one call of the loop meets: the calls of others before it, its error if it returns
one (and then whether the DELETE was committed all the same), and whether the context is done at
the `select` after a full batch. -/
structure Round where
  others : List (Env × Call)
  env : Env
  fault : Option Bool
  done : Bool

inductive PurgeEnd where
  | short
  | failed
  | shutdown
  deriving DecidableEq, Repr

/-- The table, and the tables before and after each call that the loop has made. -/
structure Purging (pg : Postgres.Config) where
  store : Store pg
  calls : List (Store pg × Store pg)

def purgeRound (cutoff : Time) (batch : Nat) (round : Round) (w : Purging pg) : Purging pg × Option PurgeEnd :=
  let before := execute w.store round.others
  let result := purgeTerminal before round.env cutoff batch
  match round.fault with
  | some committed =>
    let after := if committed then result.1 else before
    (⟨after, w.calls ++ [(before, after)]⟩, some .failed)
  | none =>
    (⟨result.1, w.calls ++ [(before, result.1)]⟩,
      if result.2 < batch then some .short else if round.done then some .shutdown else none)

def purgeAmid (rounds : Nat → Round) (cutoff : Time) (batch fuel : Nat) (s : Store pg) :
    Option (Purging pg × PurgeEnd) :=
  untilStop (fun n => purgeRound cutoff batch (rounds n)) fuel 0 ⟨s, []⟩

/-- With nobody else around this is the loop of one pass. -/
theorem purgeLoop_eq_amid (env : Nat → Env) (cutoff : Time) (batch fuel : Nat) (s : Store pg) :
    purgeLoop env cutoff batch fuel s =
      (purgeAmid (fun n => ⟨[], env n, none, false⟩) cutoff batch fuel s).map fun out => out.1.store := by
  suffices general : ∀ round calls, untilShort (fun round s => purgeTerminal s (env round) cutoff batch) batch fuel
      round s = (untilStop (fun n => purgeRound cutoff batch ⟨[], env n, none, false⟩) fuel round ⟨s, calls⟩).map
        fun out => out.1.store from general 0 []
  induction fuel generalizing s with
  | zero => exact fun _ _ => rfl
  | succ fuel ih =>
    intro round calls
    rw [untilShort, untilStop]
    by_cases short : (purgeTerminal s (env round) cutoff batch).2 < batch
    · simp [purgeRound, execute, short]
    · rw [if_neg short, ih _ (round + 1) (calls ++ [(s, (purgeTerminal s (env round) cutoff batch).1)])]
      simp [purgeRound, execute, short]

/-! ### The rows that the loop may still delete -/

def remaining (cutoff : Time) (s : Store pg) : List Uuid :=
  (s.messages.rows.filter (purgeable cutoff)).map Row.id

theorem mem_remaining {cutoff : Time} {s : Store pg} {k : Uuid} :
    k ∈ remaining cutoff s ↔ ∃ r, s.row k = some r ∧ purgeable cutoff r = true := by
  constructor
  · intro member
    obtain ⟨r,filtered,rfl⟩ := List.mem_map.mp member
    obtain ⟨listed,old⟩ := List.mem_filter.mp filtered
    exact ⟨r,Store.row_of_mem listed,old⟩
  · rintro ⟨r,found,old⟩
    exact List.mem_map.mpr ⟨r,List.mem_filter.mpr ⟨Store.row_mem found,old⟩,Store.row_id found⟩

theorem remaining_nodup (cutoff : Time) (s : Store pg) : (remaining cutoff s).Nodup :=
  s.messages.primary.sublist (List.filter_sublist.map Row.id)

/-- Once the cutoff has passed, no call of any kind makes a row purgeable. -/
theorem RowStep.purgeable {env : Env} {k : Uuid} {call : Call} {before : Option Row} {r : Row} {cutoff : Time}
    (step : RowStep env k call before (some r)) (late : ∀ i, cutoff ≤ env.now i)
    (old : Tickr.purgeable cutoff r = true) : before = some r := by
  obtain ⟨terminal,completed⟩ := (Bool.and_eq_true _ _).mp old
  -- a row becomes terminal only with the time of the statement as its completed_at
  have fresh (now : Time) (passed : cutoff ≤ now) (before : decide (now < cutoff) = true) : False :=
    absurd (of_decide_eq_true before) (Int.not_lt.mpr passed)
  cases step
  case same => rfl
  case succeed => exact (fresh _ (late 0) completed).elim
  case batchSucceed => exact (fresh _ (late 0) completed).elim
  case failDead => exact (fresh _ (late 0) completed).elim
  case extend handling _ =>
    simp [extendSet, handling, Status.terminal] at terminal
  all_goals cases terminal

theorem exec_remaining (s : Store pg) (env : Env) (call : Call) {cutoff : Time}
    (late : ∀ i, cutoff ≤ env.now i) : remaining cutoff (exec s env call).1 ⊆ remaining cutoff s := by
  intro k member
  obtain ⟨r,found,old⟩ := mem_remaining.mp member
  have step := exec_row s env call k
  rw [found] at step
  exact mem_remaining.mpr ⟨r,RowStep.purgeable step late old,old⟩

theorem execute_remaining (s : Store pg) (trace : List (Env × Call)) {cutoff : Time}
    (late : ∀ other ∈ trace, ∀ i, cutoff ≤ other.1.now i) :
    remaining cutoff (execute s trace) ⊆ remaining cutoff s := by
  induction trace generalizing s with
  | nil => exact List.Subset.refl _
  | cons other rest ih =>
    obtain ⟨first,later⟩ := List.forall_mem_cons.mp late
    exact List.Subset.trans (ih (exec s other.1 other.2).1 later) (exec_remaining s other.1 other.2 first)

/-- The rows that a purge deletes leave the list, and nothing enters it. -/
theorem purgeTerminal_remaining (s : Store pg) (env : Env) (cutoff : Time) (limit : Int) :
    (remaining cutoff (purgeTerminal s env cutoff limit).1).length + (purgeTerminal s env cutoff limit).2 ≤
      (remaining cutoff s).length := by
  have apart : ∀ k ∈ remaining cutoff (purgeTerminal s env cutoff limit).1,
      k ∉ purgeChosen s.messages env cutoff (limitOr 5000 limit) := by
    intro k member chosen
    obtain ⟨r,left,_⟩ := mem_remaining.mp member
    rw [purgeTerminal_row] at left
    obtain ⟨found,passed⟩ := Option.filter_eq_some_iff.mp left
    simp [Store.row_id found, chosen] at passed
  have both := (remaining_nodup cutoff (purgeTerminal s env cutoff limit).1).append
    (purgeChosen_nodup s env cutoff (limitOr 5000 limit)) apart
  have within : remaining cutoff (purgeTerminal s env cutoff limit).1 ++
      purgeChosen s.messages env cutoff (limitOr 5000 limit) ⊆ remaining cutoff s := by
    refine List.append_subset.mpr ⟨fun k member => ?_,fun k chosen => mem_remaining.mpr (mem_purgeChosen chosen)⟩
    obtain ⟨r,left,old⟩ := mem_remaining.mp member
    rw [purgeTerminal_row] at left
    exact mem_remaining.mpr ⟨r,(Option.filter_eq_some_iff.mp left).1,old⟩
  have counted := (List.subperm_of_subset both within).length_le
  rwa [List.length_append] at counted

/-! ### The loop -/

/-- A call of the loop leaves each row as it was or deletes an old terminal one. -/
def Deletes (cutoff : Time) (call : Store pg × Store pg) : Prop :=
  ∀ r ∈ call.1.messages.rows, call.2.row r.id = some r ∨
    (call.2.row r.id = none ∧ r.status.terminal = true ∧ ∃ t, r.completedAt = some t ∧ t < cutoff)

theorem deletes_refl (cutoff : Time) (s : Store pg) : Deletes cutoff (s, s) :=
  fun _ member => Or.inl (Store.row_of_mem member)

theorem purgeTerminal_deletes (s : Store pg) (env : Env) (cutoff : Time) (limit : Int) :
    Deletes cutoff (s, (purgeTerminal s env cutoff limit).1) := by
  intro r member
  rcases purgeTerminal_kept s env cutoff limit r.id with same | ⟨gone,r',found,old⟩
  · exact Or.inl (same.trans (Store.row_of_mem member))
  · cases found.symm.trans (Store.row_of_mem member)
    exact Or.inr ⟨gone,purgeable_iff.mp old⟩

section
variable (cutoff : Time) (batch : Nat) (round : Round) (w : Purging pg)

/-- Each round makes one call. -/
theorem purgeRound_calls : ∃ call, (purgeRound cutoff batch round w).1.calls = w.calls ++ [call] ∧
    Deletes cutoff call := by
  have purged := purgeTerminal_deletes (execute w.store round.others) round.env cutoff batch
  cases fault : round.fault with
  | none =>
    simp only [purgeRound, fault]
    exact ⟨_,rfl,purged⟩
  | some committed =>
    simp only [purgeRound, fault]
    refine ⟨_,rfl,?_⟩
    cases committed
    · exact deletes_refl cutoff _
    · exact purged

variable {cutoff batch round w}

/-- A round that goes on has taken a full batch from the rows that were left. -/
theorem purgeRound_onward (late : ∀ other ∈ round.others, ∀ i, cutoff ≤ other.1.now i)
    (onward : (purgeRound cutoff batch round w).2 = none) :
    (remaining cutoff (purgeRound cutoff batch round w).1.store).length + batch ≤
      (remaining cutoff w.store).length := by
  have others := (List.subperm_of_subset (remaining_nodup cutoff (execute w.store round.others))
    (execute_remaining w.store round.others late)).length_le
  have purged := purgeTerminal_remaining (execute w.store round.others) round.env cutoff batch
  cases fault : round.fault with
  | some committed => simp [purgeRound, fault] at onward
  | none =>
    simp only [purgeRound, fault] at onward ⊢
    split at onward
    · cases onward
    · omega

/-- A round fails the loop only with an error and shuts it down only with its context done. -/
theorem purgeRound_stopped {why : PurgeEnd} (stopped : (purgeRound cutoff batch round w).2 = some why) :
    (why = .failed → round.fault ≠ none) ∧ (why = .shutdown → round.done = true) := by
  cases fault : round.fault with
  | some committed =>
    simp only [purgeRound, fault, Option.some.injEq] at stopped
    subst stopped
    simp
  | none =>
    simp only [purgeRound, fault] at stopped
    split at stopped
    · cases stopped
      simp
    · split at stopped
      · rename_i done
        cases stopped
        simpa using done
      · cases stopped

/-- A round that ends short of a batch leaves nothing to purge. -/
theorem purgeRound_short (positive : 0 < batch) (stopped : (purgeRound cutoff batch round w).2 = some .short)
    {r : Row} (member : r ∈ (purgeRound cutoff batch round w).1.store.messages.rows) :
    purgeable cutoff r = false := by
  cases fault : round.fault with
  | some committed => simp [purgeRound, fault] at stopped
  | none =>
    simp only [purgeRound, fault] at stopped member
    split at stopped
    · rename_i short
      refine purgeTerminal_short _ round.env cutoff batch ?_ (Store.row_of_mem member)
      rwa [limitOr_natCast positive]
    · split at stopped <;> cases stopped

end

/-- What the loop has done when it stops, and why it has stopped: an error of its last call,
a context that is done after it, or a short batch. -/
structure Purged (rounds : Nat → Round) (cutoff : Time) (batch : Nat) (s : Store pg)
    (out : Purging pg × PurgeEnd) : Prop where
  calls : out.1.calls.length ≤ (remaining cutoff s).length / batch + 1
  deletes : ∀ call ∈ out.1.calls, Deletes cutoff call
  failed : out.2 = .failed → ∃ n, out.1.calls.length = n + 1 ∧ (rounds n).fault ≠ none
  shutdown : out.2 = .shutdown → ∃ n, out.1.calls.length = n + 1 ∧ (rounds n).done = true
  finished : out.2 = .short → ∀ r ∈ out.1.store.messages.rows, r.status.terminal = true →
    ∀ t, r.completedAt = some t → cutoff ≤ t

/-- Without an error and without a shutdown the loop finishes its work. -/
theorem Purged.short {rounds : Nat → Round} {cutoff : Time} {batch : Nat} {s : Store pg}
    {out : Purging pg × PurgeEnd} (purged : Purged rounds cutoff batch s out)
    (undisturbed : ∀ n, (rounds n).fault = none ∧ (rounds n).done = false) : out.2 = .short := by
  cases ended : out.2 with
  | short => rfl
  | failed =>
    obtain ⟨n,_,fault⟩ := purged.failed ended
    exact absurd (undisturbed n).1 fault
  | shutdown =>
    obtain ⟨n,_,done⟩ := purged.shutdown ended
    rw [(undisturbed n).2] at done
    cases done

/-- Whatever happens to the table between its calls, the loop stops, after at most one call
more than there are full batches of old rows to begin with, and its calls delete nothing else.
Only an error of a call or a context that is done stops it early: otherwise it ends on a short
batch, and then no old row is left. -/
theorem purge_finishes (rounds : Nat → Round) (cutoff : Time) (batch fuel : Nat) (s : Store pg)
    (positive : 0 < batch) (late : ∀ n, ∀ other ∈ (rounds n).others, ∀ i, cutoff ≤ other.1.now i)
    (enough : (remaining cutoff s).length / batch < fuel) :
    ∃ out, purgeAmid rounds cutoff batch fuel s = some out ∧ Purged rounds cutoff batch s out ∧
      ((∀ n, (rounds n).fault = none ∧ (rounds n).done = false) → out.2 = .short) := by
  have supply : (remaining cutoff s).length < ((remaining cutoff s).length / batch + 1) * batch := by
    rw [Nat.add_mul, Nat.one_mul]
    exact Nat.lt_div_mul_add positive
  obtain ⟨out,ran⟩ : ∃ out, untilStop (fun n => purgeRound cutoff batch (rounds n))
      ((remaining cutoff s).length / batch + 1) 0 (⟨s, []⟩ : Purging pg) = some out :=
    untilStop_ends (fun w => (remaining cutoff w.store).length)
      (fun n _ onward => purgeRound_onward (late n) onward) 0 supply
  obtain ⟨⟨made,within,count,deletes⟩,finished,failed,shutdown⟩ := untilStop_spec
    (fun n (w : Purging pg) => w.calls.length = n ∧ ∀ call ∈ w.calls, Deletes cutoff call)
    (fun why w => (why = .short → ∀ r ∈ w.store.messages.rows, purgeable cutoff r = false) ∧
      (why = .failed → ∃ n, w.calls.length = n + 1 ∧ (rounds n).fault ≠ none) ∧
      (why = .shutdown → ∃ n, w.calls.length = n + 1 ∧ (rounds n).done = true))
    (by
      rintro n w ⟨count,deletes⟩
      obtain ⟨call,calls,last⟩ := purgeRound_calls cutoff batch (rounds n) w
      rw [calls]
      refine ⟨by simp [count],fun c member => ?_⟩
      rcases List.mem_append.mp member with old | new
      · exact deletes c old
      · exact List.mem_singleton.mp new ▸ last)
    (by
      rintro n w why ⟨count,_⟩ stopped
      have another : (purgeRound cutoff batch (rounds n) w).1.calls.length = n + 1 := by
        obtain ⟨call,calls,_⟩ := purgeRound_calls cutoff batch (rounds n) w
        simp [calls, count]
      obtain ⟨fault,done⟩ := purgeRound_stopped stopped
      exact ⟨fun short r member => purgeRound_short positive (short ▸ stopped) member,
        fun ended => ⟨n,another,fault ended⟩,fun ended => ⟨n,another,done ended⟩⟩)
    ran ⟨rfl,by simp⟩
  have purged : Purged rounds cutoff batch s out := by
    refine ⟨by omega,deletes,failed,shutdown,fun short r member terminal t completed => ?_⟩
    by_contra old
    have left := finished short r member
    rw [purgeable_iff.mpr ⟨terminal,t,completed,Int.not_le.mp old⟩] at left
    cases left
  exact ⟨out,untilStop_mono enough ran,purged,purged.short⟩

/-- Between the calls a message arrives, is claimed and is acknowledged. -/
def busy (n : Nat) : Round where
  others := [(Env.quiet 20 (8 + n), .enqueue (plainParams "mail" 1)), (Env.quiet 21 0, fetchAll "w"),
    (Env.quiet 22 0, .succeed (.uuid (8 + n)) 1 "w")]
  env := Env.quiet 23 0
  fault := none
  done := false

/-- The one old row is deleted, the new ones stay. -/
theorem purge_finishes_busy : (remaining 10 (finished true)).length = 1 ∧
    ∃ out, purgeAmid busy 10 1 2 (finished true) = some out ∧ Purged busy 10 1 (finished true) out ∧
      out.2 = .short ∧ out.1.store.messages.rows.map Row.id = [8, 9] := by
  have old : (remaining 10 (finished true)).length = 1 := by decide +kernel
  obtain ⟨out,ran,purged,short⟩ := purge_finishes busy 10 1 2 (finished true) (by decide)
    (fun n => by simp [busy, Env.quiet]) (by rw [old]; decide)
  have left : (purgeAmid busy 10 1 2 (finished true)).map (fun out => out.1.store.messages.rows.map Row.id) =
      some [8, 9] := by decide +kernel
  rw [ran] at left
  exact ⟨old,out,ran,purged,short fun _ => ⟨rfl,rfl⟩,Option.some.inj left⟩

end Tickr
