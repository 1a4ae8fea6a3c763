import Tickr.MysqlRows

/-! Wall-clock columns and the instants they stand for. The process writes leases and due
times in UTC, the server writes completion times and the due time of a reclaimed message
in the time of its session, and each side compares the columns with its own clock. -/
namespace Tickr.Mysql

open KeyedTable

variable {cfg : Config}

/-- What the calls on one message have meant: when its lease ends, when it is due and when
it was completed. -/
structure Instants where
  leaseEnd : Time
  due : Time
  completed : Time
  deriving DecidableEq, Repr

/-- A call that has changed the row has set one of them. -/
def Instants.note (t : Instants) (env : Env) (call : Call) (changed : Bool) : Instants :=
  if changed then
    match call with
    | .claim p => { t with leaseEnd := env.clock 2 + p.lease }
    | .extend _ _ until_ => { t with leaseEnd := until_ }
    | .succeed _ _ _ | .batchSucceed _ => { t with completed := env.now 0 }
    | .fail p => if p.dead then { t with completed := env.now 0 } else { t with due := p.nextRetryAt }
    | .requeue _ (some processAt) => { t with due := processAt }
    | .reclaimExpired _ => { t with due := env.now 0 }
    | _ => t
  else t

def enqueueInstants (s : Store cfg) (env : Env) (i : Nat) (p : EnqueueParams) (instants : Uuid → Instants) :
    Uuid → Instants :=
  if (enqueue s env i p).2.2 = none then
    fun k => if k = env.newID i then { instants k with due := p.processAt.getD (env.clock i) } else instants k
  else instants

def enqueueBatchInstants (s : Store cfg) (env : Env) :
    Nat → List EnqueueParams → (Uuid → Instants) → Uuid → Instants
  | _, [], instants => instants
  | i, p :: rest, instants =>
    enqueueBatchInstants (enqueue s env i p).1 env (i + 1) rest (enqueueInstants s env i p instants)

/-- The store beside what has been meant by its columns. -/
structure Timed (cfg : Config) where
  store : Store cfg
  instants : Uuid → Instants

def Timed.start : Timed cfg := ⟨Store.empty, fun _ => ⟨0, 0, 0⟩⟩

def Timed.exec (w : Timed cfg) (env : Env) (call : Call) : Timed cfg where
  store := (Mysql.exec w.store env call).1
  instants :=
    match call with
    | .enqueue p => enqueueInstants w.store env 0 p w.instants
    | .enqueueBatch ps => enqueueBatchInstants w.store env 0 ps w.instants
    | call => fun k =>
      (w.instants k).note env call (w.store.row k ≠ (Mysql.exec w.store env call).1.row k)

def Timed.run (w : Timed cfg) : List (Env × Call) → Timed cfg
  | [] => w
  | (env, call) :: rest => Timed.run (w.exec env call) rest

/-- A call that takes no time: the clocks of server and process both show the instant `T`. -/
def AtInstant (env : Env) (T : Time) : Prop := ∀ i, env.now i = T ∧ env.clock i = T

/-- The next call keeps to instants: ReclaimExpired takes the lapsed leases, Claim the due
messages, both as far as their limits go, and PurgeTerminal only what is old enough. -/
structure ZoneFree (w : Timed cfg) : Prop where
  reclaim : ∀ T env limit k r, AtInstant env T → w.store.row k = some r → r.status = .handling →
    let result := reclaimExpired w.store env limit
    let moved := (result.1.row k).map Row.status = some .retrying
    (moved → (w.instants k).leaseEnd < T) ∧
    ((w.instants k).leaseEnd < T → moved ∨ result.2 = limitOr 500 limit)
  claim : ∀ T env p k r, AtInstant env T → w.store.row k = some r → r.status.pending = true →
    let msgs := (claim w.store env p).2
    let returned := ∃ m ∈ msgs, m.id = .uuid k
    (returned → (w.instants k).due ≤ T) ∧
    ((w.instants k).due ≤ T → p.eventTypes.any (cfg.same r.eventType) = true →
      (∀ i, env.locked i k = false) →
      returned ∨ msgs.length = limitOr 100 p.batch ∨ (msgs ≠ [] ∧ r.shard ≠ env.pickShard 0))
  purge : ∀ env before limit k r, w.store.row k = some r → r.status.terminal = true →
    (purgeTerminal w.store env before limit).1.row k = none → (w.instants k).completed < before

/-! ### What the columns tell -/

/-- The columns show the instants, shifted by the offset of the session where the server
has written them. -/
structure Dated (cfg : Config) (t : Instants) (r : Row) : Prop where
  lease : r.status = .handling → r.claimedUntil = some t.leaseEnd
  due : r.processAt = t.due ∨ r.processAt = t.due + cfg.offset
  completed : r.status.terminal = true → r.completedAt = some (t.completed + cfg.offset)

theorem Dated.of_pending {t : Instants} {r : Row} (pending : r.status.pending = true)
    (due : r.processAt = t.due ∨ r.processAt = t.due + cfg.offset) : Dated cfg t r where
  lease handling := absurd handling (Status.pending_idle pending)
  due := due
  completed terminal := absurd terminal (by simp [Status.pending_open pending])

theorem Dated.of_terminal {t : Instants} {r : Row} (terminal : r.status.terminal = true)
    (due : r.processAt = t.due ∨ r.processAt = t.due + cfg.offset)
    (completed : r.completedAt = some (t.completed + cfg.offset)) : Dated cfg t r where
  lease handling := absurd handling (Status.terminal_idle terminal)
  due := due
  completed _ := completed

theorem RowStep.dated {env : Env} {k : Uuid} {call : Call} {r r' : Row} {t : Instants}
    (step : RowStep cfg env k call (some r) (some r')) (dated : Dated cfg t r) (moved : r ≠ r') :
    Dated cfg (t.note env call true) r' := by
  cases step with
  | same => exact absurd rfl moved
  | claim => exact ⟨fun _ => rfl,dated.due,by simp [claimSet, Status.terminal]⟩
  | succeed | batchSucceed => exact .of_terminal rfl dated.due rfl
  | failRetry named retried =>
    simp only [Instants.note, if_true, retried, Bool.false_eq_true, if_false]
    exact .of_pending rfl (Or.inl rfl)
  | failDead named dead =>
    simp only [Instants.note, if_true, dead]
    exact .of_terminal rfl dated.due rfl
  | releaseShutdown =>
    refine .of_pending ?_ dated.due
    simp only [releaseShutdownSet]
    split <;> rfl
  | extend => exact ⟨fun _ => rfl,dated.due,dated.completed⟩
  | requeue => exact .of_pending rfl (Or.inl rfl)
  | reclaimExpired => exact .of_pending rfl (Or.inr rfl)

theorem enqueue_dated (s : Store cfg) (env : Env) (i : Nat) (p : EnqueueParams) (instants : Uuid → Instants)
    (dated : ∀ k r, s.row k = some r → Dated cfg (instants k) r) :
    ∀ k r, (enqueue s env i p).1.row k = some r → Dated cfg (enqueueInstants s env i p instants k) r := by
  intro k r found
  rcases enqueue_cases s env i p with ⟨messages,inserted,result⟩ | ⟨msg,err,result⟩
  · rw [result] at found
    rw [enqueueInstants, result, if_pos rfl]
    have row : messages.find? k = some r := found
    rw [Table.find?_insert inserted k] at row
    by_cases same : k = env.newID i
    · rw [if_pos same]
      rw [if_pos (show (enqueueRow cfg env i p).id = k from same.symm)] at row
      cases row
      exact .of_pending rfl (Or.inl rfl)
    · rw [if_neg same]
      rw [if_neg (show ¬(enqueueRow cfg env i p).id = k from fun eq => same eq.symm)] at row
      exact dated k r row
  · rw [result] at found
    rw [enqueueInstants, result, if_neg (by simp)]
    exact dated k r found

theorem enqueueBatch_dated (s : Store cfg) (env : Env) (i : Nat) (ps : List EnqueueParams)
    (instants : Uuid → Instants) (dated : ∀ k r, s.row k = some r → Dated cfg (instants k) r) :
    ∀ k r, (enqueueBatch s env i ps).1.row k = some r → Dated cfg (enqueueBatchInstants s env i ps instants k) r := by
  induction ps generalizing s i instants with
  | nil => exact dated
  | cons p rest ih =>
    rw [enqueueBatch_store]
    exact ih _ _ _ (enqueue_dated s env i p instants dated)

/-- No call but an insertion brings a row into the table. -/
theorem RowStep.inserts {env : Env} {k : Uuid} {call : Call} {r : Row}
    (step : RowStep cfg env k call none (some r)) :
    (∃ p, call = .enqueue p) ∨ ∃ ps, call = .enqueueBatch ps := by
  cases step with
  | enqueue => exact Or.inl ⟨_,rfl⟩
  | enqueueBatch => exact Or.inr ⟨_,rfl⟩

theorem Timed.exec_noted (w : Timed cfg) (env : Env) {call : Call} (single : ∀ p, call ≠ .enqueue p)
    (batch : ∀ ps, call ≠ .enqueueBatch ps) (k : Uuid) :
    (w.exec env call).instants k =
      (w.instants k).note env call (w.store.row k ≠ (Mysql.exec w.store env call).1.row k) := by
  cases call with
  | enqueue p => exact absurd rfl (single p)
  | enqueueBatch ps => exact absurd rfl (batch ps)
  | _ => rfl

theorem Timed.exec_dated (w : Timed cfg) (env : Env) (call : Call)
    (dated : ∀ k r, w.store.row k = some r → Dated cfg (w.instants k) r) :
    ∀ k r, (w.exec env call).store.row k = some r → Dated cfg ((w.exec env call).instants k) r := by
  by_cases insertion : (∃ p, call = .enqueue p) ∨ ∃ ps, call = .enqueueBatch ps
  · rcases insertion with ⟨p,rfl⟩ | ⟨ps,rfl⟩
    · exact enqueue_dated w.store env 0 p w.instants dated
    · exact enqueueBatch_dated w.store env 0 ps w.instants dated
  · intro k r' found'
    have step := exec_row w.store env call k
    have after : (Mysql.exec w.store env call).1.row k = some r' := found'
    rw [w.exec_noted env (fun p same => insertion (Or.inl ⟨p,same⟩)) (fun ps same => insertion (Or.inr ⟨ps,same⟩)),
      after]
    rw [after] at step
    cases found : w.store.row k with
    | none =>
      rw [found] at step
      exact absurd step.inserts insertion
    | some r =>
      rw [found] at step
      by_cases same : r = r'
      · subst same
        simpa [Instants.note] using dated k r found
      · have changed : some r ≠ some r' := fun eq => same (Option.some.inj eq)
        rw [decide_eq_true changed]
        exact step.dated (dated k r found) same

theorem Timed.run_dated (w : Timed cfg) (trace : List (Env × Call))
    (dated : ∀ k r, w.store.row k = some r → Dated cfg (w.instants k) r) :
    ∀ k r, (w.run trace).store.row k = some r → Dated cfg ((w.run trace).instants k) r := by
  induction trace generalizing w with
  | nil => exact dated
  | cons label rest ih => exact ih _ (w.exec_dated label.1 label.2 dated)

theorem start_dated (trace : List (Env × Call)) (k : Uuid) (r : Row)
    (found : (Timed.start.run trace : Timed cfg).store.row k = some r) :
    Dated cfg ((Timed.start.run trace : Timed cfg).instants k) r :=
  Timed.run_dated Timed.start trace (fun _ _ impossible => nomatch impossible) k r found

/-! ### A session in UTC -/

theorem timestamp_utc (utc : cfg.offset = 0) (env : Env) (i : Nat) : timestamp cfg env i = env.now i := by
  rw [timestamp, utc]
  exact Int.add_zero _

theorem Dated.due_utc (utc : cfg.offset = 0) {t : Instants} {r : Row} (dated : Dated cfg t r) :
    r.processAt = t.due := by
  rcases dated.due with same | shifted
  · exact same
  · rw [shifted, utc]
    exact Int.add_zero _

theorem Dated.completed_utc (utc : cfg.offset = 0) {t : Instants} {r : Row} (dated : Dated cfg t r)
    (terminal : r.status.terminal = true) : r.completedAt = some t.completed := by
  rw [dated.completed terminal, utc]
  exact congrArg some (Int.add_zero _)

theorem reclaimChosen_within {messages : Messages cfg} {env : Env} {limit : Nat} {r : Row}
    (member : r ∈ messages.rows) (lapsed : expired cfg env r = true) :
    r.id ∈ reclaimChosen messages env limit ∨ (reclaimChosen messages env limit).length = limit := by
  have visited : r ∈ (env.scan.visit messages.rows).filter (expired cfg env) :=
    List.mem_filter.mpr ⟨env.scan.mem_visit.mpr member,lapsed⟩
  rw [reclaimChosen, List.length_map]
  exact (mem_take_or_full visited limit).imp_left fun taken => List.mem_map_of_mem taken

/-- The row of a reclaimed message and the others. -/
theorem reclaimExpired_moves {s : Store cfg} {env : Env} {limit : Int} {k : Uuid} {r : Row}
    (found : s.row k = some r) (handling : r.status = .handling) :
    ((reclaimExpired s env limit).1.row k).map Row.status = some .retrying ↔
      k ∈ reclaimChosen s.messages env (limitOr 500 limit) := by
  rw [reclaimExpired_row, found, Option.map_some, Option.map_some, when, Store.row_id found]
  by_cases chosen : k ∈ reclaimChosen s.messages env (limitOr 500 limit)
  · simp [chosen, reclaimSet]
  · simp [chosen, handling]

theorem Dated.zoneFree (utc : cfg.offset = 0) (w : Timed cfg)
    (dated : ∀ k r, w.store.row k = some r → Dated cfg (w.instants k) r) : ZoneFree w where
  reclaim T env limit k r instant found handling := by
    dsimp only
    have until_ := (dated k r found).lease handling
    have lapsed : expired cfg env r = true ↔ (w.instants k).leaseEnd < T := by
      simp [expired, handling, until_, timestamp_utc utc, (instant 0).1]
    rw [reclaimExpired_moves found handling, ← lapsed]
    constructor
    · intro chosen
      obtain ⟨r',found',past⟩ := mem_reclaimChosen chosen
      cases found.symm.trans found'
      exact past
    · intro past
      have within := @reclaimChosen_within _ w.store.messages env (limitOr 500 limit) r (Store.row_mem found) past
      rwa [Store.row_id found] at within
  claim T env p k r instant found pending := by
    dsimp only
    have due := (dated k r found).due_utc utc
    constructor
    · rintro ⟨m,member,named⟩
      obtain ⟨chosen,spec⟩ := claim_spec w.store env p
      obtain ⟨k',listed,r',found',rfl⟩ := (spec.returned m).mp member
      obtain ⟨pass,r'',found'',_,passed⟩ := spec.eligible k' listed
      obtain rfl : k' = k := (Store.row_id found').symm.trans (MessageID.uuid.inj named)
      cases found.symm.trans found''
      rw [← due]
      exact Int.le_trans passed (Int.le_of_eq (instant pass).2)
    · intro passed typed free
      have fits (pass : Nat) : eligible cfg env pass p.eventTypes none r = true := by
        have now : r.processAt ≤ env.clock pass := by
          rw [due, (instant pass).2]
          exact passed
        simp only [eligible, pending, Option.all_none, typed, Store.row_id found, free, now, decide_true,
          Bool.and_true, Bool.not_false]
      have listed : p.eventTypes ≠ [] := by
        intro empty
        rw [empty] at typed
        cases typed
      obtain ⟨count,returned⟩ := claim_selected w.store env p listed
      have within := claimIDs_within (Store.row_mem found) fits
      rw [Store.row_id found] at within
      rw [returned, count]
      refine within.imp id (Or.imp id (And.imp_left fun some nothing => some ?_))
      rw [nothing] at count
      exact List.eq_nil_of_length_eq_zero count.symm
  purge env before limit k r found terminal gone := by
    have step := exec_row w.store env (.purgeTerminal before limit) k
    rw [show (Mysql.exec w.store env (.purgeTerminal before limit)).1.row k = none from gone, found] at step
    cases step with
    | purgeTerminal _ completed past =>
      rw [(dated k r found).completed_utc utc terminal] at completed
      cases completed
      exact past

/-! ### Any other session -/

def mailRow (cfg : Config) : Row := enqueueRow cfg (Env.quiet 0 7) 0 (plainParams "mail" 3)

def mailStore (cfg : Config) : Store cfg := (enqueue Store.empty (Env.quiet 0 7) 0 (plainParams "mail" 3)).1

/-- A claim that ends as it begins. -/
def mailOnce : ClaimParams := ⟨"w", 10, 0, ["mail"]⟩

theorem mailStore_rows : (mailStore cfg).messages.rows = [mailRow cfg] := by
  have fits : fitsColumns cfg (plainParams "mail" 3) = true :=
    fitsColumns_plain cfg (by decide) (by decide) (by decide)
  simp only [mailStore, enqueue, if_pos fits]
  rfl

theorem mailStore_selected : claimIDs (mailStore cfg).messages (Env.quiet 0 0) mailOnce = [7] := by
  have fits : eligible cfg (Env.quiet 0 0) 0 mailOnce.eventTypes (some ((Env.quiet 0 0).pickShard 0))
      (mailRow cfg) = true := by
    simp [eligible, Config.same, mailOnce, mailRow, enqueueRow, insertedRow, plainParams, Env.quiet, Status.pending]
  have first : selectClaimIDs (mailStore cfg).messages (Env.quiet 0 0) 0 mailOnce.eventTypes
      (limitOr 100 mailOnce.batch) (some ((Env.quiet 0 0).pickShard 0)) = [7] := by
    rw [selectClaimIDs, mailStore_rows, List.filter_cons_of_pos fits]
    rfl
  simp [claimIDs, first]

theorem mailStore_claimed :
    (claim (mailStore cfg) (Env.quiet 0 0) mailOnce).1.messages.rows =
      [claimSet (timestamp cfg (Env.quiet 0 0) 2) "w" 0 (mailRow cfg)] := by
  simp only [claim, mailStore_selected, Table.update, mailStore_rows]
  rfl

/-- The message is under a lease that has ended at the instant 0. -/
def claimedTrace : List (Env × Call) :=
  [(Env.quiet 0 7, .enqueue (plainParams "mail" 3)), (Env.quiet 0 0, .claim mailOnce)]

def claimedRow (cfg : Config) : Row := claimSet (timestamp cfg (Env.quiet 0 0) 2) "w" 0 (mailRow cfg)

theorem claimedTrace_rows :
    (Timed.start.run claimedTrace : Timed cfg).store.messages.rows = [claimedRow cfg] := by
  have store : (Timed.start.run claimedTrace : Timed cfg).store =
      (claim (mailStore cfg) (Env.quiet 0 0) mailOnce).1 := by
    simp only [claimedTrace, Timed.run, Timed.exec, Timed.start, Mysql.exec, mailStore]
  rw [store]
  exact mailStore_claimed

theorem claimedTrace_row : (Timed.start.run claimedTrace : Timed cfg).store.row 7 = some (claimedRow cfg) := by
  have member : claimedRow cfg ∈ (Timed.start.run claimedTrace : Timed cfg).store.messages.rows := by
    rw [claimedTrace_rows]
    exact List.mem_singleton_self _
  have named : (claimedRow cfg).id = 7 := rfl
  rw [← named]
  exact Store.row_of_mem member

theorem claimedTrace_leaseEnd : ((Timed.start.run claimedTrace : Timed cfg).instants 7).leaseEnd = 0 := by
  have lease := (start_dated claimedTrace 7 _ (@claimedTrace_row cfg)).lease rfl
  exact (Option.some.inj lease).symm

theorem quiet_atInstant (T : Time) (first : Uuid) : AtInstant (Env.quiet T first) T := fun _ => ⟨rfl,rfl⟩

/-- At the instant `T` the server reads `T + offset`, and the lease ends at 0. -/
theorem claimedRow_expired (T : Time) : expired cfg (Env.quiet T 0) (claimedRow cfg) = true ↔ 0 < T + cfg.offset := by
  simp [expired, claimedRow, claimSet, timestamp, Env.quiet]

theorem claimedTrace_reclaimed (T : Time) :
    reclaimChosen (Timed.start.run claimedTrace : Timed cfg).store.messages (Env.quiet T 0) (limitOr 500 0) =
      if 0 < T + cfg.offset then [7] else [] := by
  have visited : (Env.quiet T 0).scan.visit [claimedRow cfg] = [claimedRow cfg] := rfl
  rw [reclaimChosen, claimedTrace_rows, visited]
  by_cases past : 0 < T + cfg.offset
  · rw [if_pos past, List.filter_cons_of_pos ((claimedRow_expired T).mpr past)]
    rfl
  · rw [if_neg past, List.filter_cons_of_neg (mt (claimedRow_expired T).mp past)]
    rfl

/-- Time arithmetic holds by instants in every run exactly if the session is in UTC. -/
theorem zone_free_iff (cfg : Config) :
    (∀ trace, ZoneFree (Timed.start.run trace : Timed cfg)) ↔ cfg.offset = 0 := by
  constructor
  · intro free
    have reclaim := (free claimedTrace).reclaim
    -- at the very end of the lease, and right after it
    have early := (reclaim 0 (Env.quiet 0 0) 0 7 _ (quiet_atInstant 0 0) claimedTrace_row rfl).1
    have late := (reclaim 1 (Env.quiet 1 0) 0 7 _ (quiet_atInstant 1 0) claimedTrace_row rfl).2
    rw [reclaimExpired_moves claimedTrace_row rfl, claimedTrace_leaseEnd, claimedTrace_reclaimed] at early late
    by_cases ahead : 0 < cfg.offset
    · rw [if_pos (by rwa [Int.zero_add])] at early
      exact absurd (early (by simp)) (by decide)
    · by_cases behind : 0 < 1 + cfg.offset
      · rw [Int.add_comm] at behind
        exact Int.le_antisymm (Int.not_lt.mp ahead) (Int.le_of_lt_add_one behind)
      · rw [if_neg behind] at late
        rcases late (by decide) with impossible | full
        · cases impossible
        · rw [reclaimExpired, claimedTrace_reclaimed, if_neg behind] at full
          cases full
  · intro utc trace
    exact Dated.zoneFree utc _ (start_dated trace)

/-- A session seven hours east of UTC, with a message under a lease of 30 seconds. -/
def eastern : Config := { Config.binary with offset := 7 * Duration.hour }

def leasedTrace : List (Env × Call) :=
  [(Env.quiet 5 7, .enqueue (plainParams "mail" 3)),
   (Env.quiet 6 0, .claim ⟨"w", 10, 30 * Duration.second, ["mail"]⟩)]

/-- One second later ReclaimExpired takes the lease away, 29 seconds before it ends. -/
theorem zone_free_broken :
    ((Timed.start.run leasedTrace : Timed eastern).instants 7).leaseEnd = 6 + 30 * Duration.second ∧
    ((reclaimExpired (Timed.start.run leasedTrace : Timed eastern).store (Env.quiet Duration.second 0) 0).1.row 7).map
      Row.status = some .retrying ∧
    ¬ZoneFree (Timed.start.run leasedTrace : Timed eastern) := by
  have ends : ((Timed.start.run leasedTrace : Timed eastern).instants 7).leaseEnd = 6 + 30 * Duration.second := by
    decide +kernel
  have moved : ((reclaimExpired (Timed.start.run leasedTrace : Timed eastern).store
      (Env.quiet Duration.second 0) 0).1.row 7).map Row.status = some .retrying := by decide +kernel
  refine ⟨ends,moved,fun free => ?_⟩
  have claimed : ((Timed.start.run leasedTrace : Timed eastern).store.row 7).map Row.status = some .handling := by
    decide +kernel
  obtain ⟨r,found,handling⟩ := Option.map_eq_some_iff.mp claimed
  have early := (free.reclaim _ _ 0 7 r (quiet_atInstant Duration.second 0) found handling).1 moved
  rw [ends] at early
  exact absurd early (by decide)

end Tickr.Mysql
