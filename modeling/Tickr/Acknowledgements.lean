import Tickr.MysqlRows
import Tickr.PostgresRows

/-! Acknowledging a batch against acknowledging its messages one by one. The PostgreSQL
adapter asks the driver for one result for each parameter, queued or not; the two paths of
the MySQL adapter compare different columns of the row. -/
namespace Tickr

open KeyedTable

namespace Postgres

variable {cfg : Config}

/-- Succeed for one parameter after the other, passing over malformed ids. -/
def succeedEach (s : Store cfg) (env : Env) (params : List BatchSucceedParam) : Store cfg :=
  (params.filter fun p => p.messageID.parse.isSome).foldl
    (fun s p => (succeed s env p.messageID p.attempt p.workerID).1) s

theorem succeedEach_queued (s : Store cfg) (env : Env) (params : List BatchSucceedParam) :
    succeedEach s env params =
      (queued params).foldl (fun s q => succeedStatement s (env.now 0) q.1 q.2.attempt q.2.workerID) s := by
  induction params generalizing s with
  | nil => rfl
  | cons p rest ih =>
    cases parsed : p.messageID.parse with
    | none =>
      have skipped : succeedEach s env (p :: rest) = succeedEach s env rest := by simp [succeedEach, parsed]
      have unqueued : queued (p :: rest) = queued rest := by simp [queued, parsed]
      rw [skipped, unqueued, ih]
    | some mid =>
      have acked : (succeed s env p.messageID p.attempt p.workerID).1 =
          succeedStatement s (env.now 0) mid p.attempt p.workerID := by simp [succeed, parsed]
      have first : succeedEach s env (p :: rest) =
          succeedEach (succeedStatement s (env.now 0) mid p.attempt p.workerID) env rest := by
        simp only [succeedEach, List.filter_cons, parsed, Option.isSome_some, if_true, List.foldl_cons, acked]
      rw [first, queued_cons parsed, List.foldl_cons, ih]

/-- The batch succeeds and leaves what Succeed would leave for one parameter after the
other, exactly if none of its ids is malformed. -/
theorem batch_succeeds_iff (s : Store cfg) (env : Env) (params : List BatchSucceedParam) :
    batchSucceed s env params = (succeedEach s env params, none) ↔
      ∀ p ∈ params, p.messageID.parse.isSome = true := by
  constructor
  · intro same
    by_contra malformed
    rw [batchSucceed, if_pos (queued_length.mpr malformed)] at same
    cases congrArg Prod.snd same
  · intro parsed
    rw [batchSucceed, if_neg fun short => queued_length.mp short parsed, succeedEach_queued]

/-- Worker `w` holds message 7 under its first attempt. -/
def heldStore : Store ⟨false, .full⟩ :=
  (claim (enqueue Store.empty (Env.quiet 5 7) (plainParams "mail" 3)).1 (Env.quiet 6 0)
    ⟨"w", 10, 30 * Duration.second, []⟩).1

def mixedAcks : List BatchSucceedParam := [⟨.uuid 7, 1, "w"⟩, ⟨.malformed "7", 1, "w"⟩]

/-- One malformed id, and the acknowledgement of the other message is rolled back. -/
theorem batch_rolled_back :
    (batchSucceed heldStore (Env.quiet 8 0) mixedAcks).2 = some (.sql "batch succeed exec") ∧
    ((batchSucceed heldStore (Env.quiet 8 0) mixedAcks).1.row 7).map Row.status = some .handling ∧
    ((succeedEach heldStore (Env.quiet 8 0) mixedAcks).row 7).map Row.status = some .success ∧
    batchSucceed heldStore (Env.quiet 8 0) mixedAcks ≠ (succeedEach heldStore (Env.quiet 8 0) mixedAcks, none) := by
  refine ⟨by decide +kernel,by decide +kernel,by decide +kernel,fun same => ?_⟩
  have failed : (batchSucceed heldStore (Env.quiet 8 0) mixedAcks).2 = some (.sql "batch succeed exec") := by
    decide +kernel
  rw [same] at failed
  cases failed

end Postgres

namespace Mysql

variable {cfg : Config}

def succeedEach (s : Store cfg) (env : Env) (params : List BatchSucceedParam) : Store cfg :=
  params.foldl (fun s p => succeed s env p.messageID p.attempt p.workerID) s

theorem succeedEach_messages (s : Store cfg) (env : Env) (params : List BatchSucceedParam) :
    (succeedEach s env params).messages =
      s.messages.update (fun r => params.any fun p => holdsClaim cfg p.messageID p.workerID r)
        ⟨succeedSet (timestamp cfg env 0), fun _ => rfl, fun _ => rfl⟩ := by
  rw [← Table.foldl_update fun p : BatchSucceedParam => holdsClaim cfg p.messageID p.workerID]
  · exact (List.foldl_hom Store.messages fun _ _ => rfl).symm
  · simp [holdsClaim, succeedSet]

/-- At one instant both paths write the same history, whatever their guards find. -/
theorem histories_agree (s : Store cfg) (env : Env) (now : Time) (params : List BatchSucceedParam) :
    (batchSucceed s (env.stamped now) params).history = (succeedEach s (env.stamped now) params).history := by
  let write (history : List HistoryRow) (p : BatchSucceedParam) : List HistoryRow :=
    appendHistory cfg history (timestamp cfg (env.stamped now) 0) p.messageID .handling .success p.attempt "" p.workerID
  have batch : params.foldl write s.history = (batchSucceed s (env.stamped now) params).history :=
    List.foldl_hom Store.history fun _ _ => rfl
  have each : params.foldl write s.history = (succeedEach s (env.stamped now) params).history :=
    List.foldl_hom Store.history fun _ _ => rfl
  exact batch.symm.trans each

theorem Store.ext {s t : Store cfg} (messages : s.messages = t.messages) (history : s.history = t.history) :
    s = t := by
  cases s
  cases t
  cases messages
  cases history
  rfl

/-- At one instant the two paths leave the same tables exactly if every row that a parameter
matches by its attempt is matched by a worker id as well, and the other way round. -/
theorem batch_agrees_iff (s : Store cfg) (env : Env) (now : Time) (params : List BatchSucceedParam) :
    batchSucceed s (env.stamped now) params = succeedEach s (env.stamped now) params ↔
      ∀ r ∈ s.messages.rows, (∃ p ∈ params, holdsAttempt p.messageID p.attempt r = true) ↔
        ∃ p ∈ params, holdsClaim cfg p.messageID p.workerID r = true := by
  have moves (r : Row) (held : (params.any fun p => holdsAttempt p.messageID p.attempt r) = true ∨
      (params.any fun p => holdsClaim cfg p.messageID p.workerID r) = true) :
      succeedSet (timestamp cfg (env.stamped now) 0) r ≠ r := by
    have handling : r.status = .handling := by
      rcases held with byAttempt | byClaim
      · obtain ⟨p,_,on⟩ := List.any_eq_true.mp byAttempt
        exact (holdsAttempt_iff.mp on).2.1
      · obtain ⟨p,_,on⟩ := List.any_eq_true.mp byClaim
        exact (holdsClaim_iff.mp on).2.1
    intro same
    cases (congrArg Row.status same).trans handling
  have guards (r : Row) : ((params.any fun p => holdsAttempt p.messageID p.attempt r) =
      params.any fun p => holdsClaim cfg p.messageID p.workerID r) ↔
      ((∃ p ∈ params, holdsAttempt p.messageID p.attempt r = true) ↔
        ∃ p ∈ params, holdsClaim cfg p.messageID p.workerID r = true) := by
    rw [Bool.eq_iff_iff, List.any_eq_true, List.any_eq_true]
  have tables : batchSucceed s (env.stamped now) params = succeedEach s (env.stamped now) params ↔
      (batchSucceed s (env.stamped now) params).messages = (succeedEach s (env.stamped now) params).messages :=
    ⟨congrArg Store.messages,fun same => Store.ext same (histories_agree s env now params)⟩
  rw [tables, batchSucceed_messages, succeedEach_messages, Table.update_eq_iff moves]
  exact forall₂_congr fun r _ => guards r

/-- Worker `w` holds message 7 under its second attempt; the first has failed. -/
def retriedStore : Store .binary :=
  let first := (claim (enqueue Store.empty (Env.quiet 5 7) 0 (plainParams "mail" 3)).1 (Env.quiet 6 0)
    ⟨"w", 10, 30 * Duration.second, ["mail"]⟩).1
  (claim (fail first (Env.quiet 7 0) ⟨.uuid 7, 1, "w", "boom", 8, false⟩).1 (Env.quiet 9 0)
    ⟨"w", 10, 30 * Duration.second, ["mail"]⟩).1

/-- A late acknowledgement of the first attempt. -/
def staleAck : List BatchSucceedParam := [⟨.uuid 7, 1, "w"⟩]

theorem batch_disagrees :
    ((batchSucceed retriedStore ((Env.quiet 9 0).stamped 10) staleAck).row 7).map Row.status = some .handling ∧
    ((succeedEach retriedStore ((Env.quiet 9 0).stamped 10) staleAck).row 7).map Row.status = some .success ∧
    batchSucceed retriedStore ((Env.quiet 9 0).stamped 10) staleAck ≠
      succeedEach retriedStore ((Env.quiet 9 0).stamped 10) staleAck := by
  refine ⟨by decide +kernel,by decide +kernel,fun same => ?_⟩
  have held : ((batchSucceed retriedStore ((Env.quiet 9 0).stamped 10) staleAck).row 7).map Row.status =
      some .handling := by decide +kernel
  rw [same] at held
  revert held
  decide +kernel

end Mysql

end Tickr
