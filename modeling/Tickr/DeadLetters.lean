import Mathlib.Data.List.Sort
import Tickr.QueueContract
import Tickr.Transition

/-! Dead letters: ListDead shows a page of them, Requeue brings one back. An operator who goes
on requeueing what is listed competes with workers that bury new messages meanwhile. -/
namespace Tickr

open KeyedTable Transition

/-! ### ListDead -/

/-- ORDER BY completed_at DESC, with ties in scan order. -/
def newestOrder (a b : Row) : Prop := b.completedAt.getD 0 ≤ a.completedAt.getD 0

instance : DecidableRel newestOrder := fun _ _ => inferInstanceAs (Decidable (_ ≤ _))

instance : Std.Total newestOrder := ⟨fun _ _ => Int.le_total _ _⟩

instance : IsTrans Row newestOrder := ⟨fun _ _ _ newer older => Int.le_trans older newer⟩

def deadRows (rows : List Row) (listed : Row → Bool) : List Row := rows.filter fun r => r.status = .dead && listed r

def listDeadSQL (rows : List Row) (scan : Scan Row) (listed : Row → Bool) (limit : Nat) : List Row :=
  ((deadRows (scan.visit rows) listed).insertionSort newestOrder).take limit

def Postgres.listed (eventType : String) (after : Time) (r : Row) : Bool :=
  (eventType = "" || r.eventType = eventType) && r.completedAt.any fun t => after < t

def Postgres.listDead {cfg : Postgres.Config} (s : Postgres.Store cfg) (scan : Scan Row) (eventType : String)
    (after : Time) (limit : Int) : List InboundMessage :=
  (listDeadSQL s.messages.rows scan (listed eventType after) (limitOr 100 limit)).map scanMessage

/-- The time of the caller is compared with what the session wrote as its own. -/
def Mysql.listed (cfg : Mysql.Config) (eventType : String) (after : Time) (r : Row) : Bool :=
  (eventType = "" || cfg.same r.eventType eventType) && r.completedAt.any fun t => after ≤ t

def Mysql.listDead {cfg : Mysql.Config} (s : Mysql.Store cfg) (scan : Scan Row) (eventType : String) (after : Time)
    (limit : Int) : List InboundMessage :=
  (listDeadSQL s.messages.rows scan (listed cfg eventType after) (limitOr 50 limit)).map scanMessage

/-! ### What calls do to dead letters -/

/-- The message that a Fail sends to DEAD, if it is still held. -/
def Call.buries : Call → Option MessageID
  | .fail p => if p.dead then some p.messageID else none
  | _ => none

/-- A Requeue at a given time; the MySQL adapter refuses one without. -/
def Call.revives (id : MessageID) : Call → Bool
  | .requeue mid (some _) => mid = id
  | _ => false

/-- A table with its dead letters and one way to list them. -/
structure DeadLetters (σ : Type) where
  rows : σ → List Row
  exec : σ → Env → Call → σ × Reply
  listed : Row → Bool
  limit : Nat
  scanMessage : Row → InboundMessage
  keyed : ∀ s, ((rows s).map Row.id).Nodup
  named : ∀ r, (scanMessage r).id = .uuid r.id
  positive : 0 < limit
  /-- A row that is dead after a call was so before it and is not revived by it, unless it is
  buried by it. -/
  dead : ∀ s env call r, r ∈ rows (exec s env call).1 → r.status = .dead →
    call.buries = some (.uuid r.id) ∨ r ∈ rows s ∧ call.revives (.uuid r.id) = false

theorem Postgres.RowStep.dead {env : Env} {id : Uuid} {call : Call} {before after : Option Row}
    (step : Postgres.RowStep env id call before after) {r : Row} (present : after = some r) (dead : r.status = .dead) :
    call.buries = some (.uuid id) ∨ before = some r := by
  cases step with
  | same => exact Or.inr present
  | failDead _ named _ isDead => exact Or.inl (by rw [Call.buries, if_pos isDead, named])
  | purgeTerminal => cases present
  | extend handling =>
    cases present
    rw [Postgres.extendSet, handling] at dead
    cases dead
  | enqueue | enqueueBatch | claim | succeed | batchSucceed | failRetry | releaseShutdown | requeue | reclaimExpired =>
    cases present
    cases dead

theorem Mysql.RowStep.dead {cfg : Mysql.Config} {env : Env} {id : Uuid} {call : Call} {before after : Option Row}
    (step : Mysql.RowStep cfg env id call before after) {r : Row} (present : after = some r)
    (dead : r.status = .dead) : call.buries = some (.uuid id) ∨ before = some r := by
  cases step with
  | same => exact Or.inr present
  | failDead named isDead => exact Or.inl (by rw [Call.buries, if_pos isDead, named])
  | purgeTerminal => cases present
  | extend held =>
    cases present
    rw [Mysql.extendSet, (Mysql.holdsClaim_iff.mp held).2.1] at dead
    cases dead
  | releaseShutdown =>
    cases present
    simp only [Mysql.releaseShutdownSet] at dead
    split at dead <;> cases dead
  | enqueue | enqueueBatch | claim | succeed | batchSucceed | failRetry | requeue | reclaimExpired =>
    cases present
    cases dead

theorem Call.revives_iff {id : MessageID} {call : Call} :
    call.revives id = true ↔ ∃ t, call = .requeue id (some t) := by
  cases call with
  | requeue mid processAt => cases processAt <;> simp [Call.revives]
  | _ => simp [Call.revives]

theorem Postgres.requeue_revives {cfg : Postgres.Config} {s : Postgres.Store cfg} {env : Env} {id : Uuid} {t : Time}
    {r : Row} (present : (Postgres.exec s env (.requeue (.uuid id) (some t))).1.row id = some r) :
    r.status ≠ .dead := by
  intro dead
  simp only [Postgres.exec, Postgres.requeue, MessageID.parse] at present
  split at present
  · obtain ⟨before,found,rfl⟩ := Option.map_eq_some_iff.mp ((Postgres.requeueSQL_row ..).symm.trans present)
    unfold when at dead
    split at dead
    · cases dead
    · rename_i alive
      exact alive (by rw [Postgres.isDead, Table.find?_key found, dead]; simp)
  · rename_i none
    have named := Table.find?_key present
    exact none (List.any_eq_true.mpr ⟨r,Table.find?_mem present,by rw [Postgres.isDead, named, dead]; simp⟩)

theorem Mysql.requeue_revives {cfg : Mysql.Config} {s : Mysql.Store cfg} {env : Env} {id : Uuid} {t : Time}
    {r : Row} (present : (Mysql.exec s env (.requeue (.uuid id) (some t))).1.row id = some r) :
    r.status ≠ .dead := by
  intro dead
  obtain ⟨before,found,rfl⟩ := Option.map_eq_some_iff.mp ((Mysql.requeue_row ..).symm.trans present)
  unfold when at dead
  split at dead
  · cases dead
  · rename_i alive
    exact alive (by rw [Mysql.isDead, Table.find?_key found, dead]; simp)

/-- The law of `DeadLetters`, from what one call does to one row. -/
theorem dead_of_row (row row' : Uuid → Option Row) {rows rows' : List Row} {call : Call}
    (back : ∀ {id r}, row id = some r → r ∈ rows) (there : ∀ {r}, r ∈ rows' → row' r.id = some r)
    (stays : ∀ {id r}, row' id = some r → r.status = .dead → call.buries = some (.uuid id) ∨ row id = some r)
    (revived : ∀ {id t r}, call = .requeue (.uuid id) (some t) → row' id = some r → r.status ≠ .dead) {r : Row}
    (member : r ∈ rows') (dead : r.status = .dead) :
    call.buries = some (.uuid r.id) ∨ r ∈ rows ∧ call.revives (.uuid r.id) = false := by
  rcases stays (there member) dead with buried | before
  · exact Or.inl buried
  · refine Or.inr ⟨back before,Bool.eq_false_iff.mpr fun revives => ?_⟩
    obtain ⟨t,is⟩ := Call.revives_iff.mp revives
    exact revived is (there member) dead

def postgresDeadLetters (cfg : Postgres.Config) (eventType : String) (after : Time) (limit : Int) :
    DeadLetters (Postgres.Store cfg) where
  rows s := s.messages.rows
  exec := Postgres.exec
  listed := Postgres.listed eventType after
  limit := limitOr 100 limit
  scanMessage := Postgres.scanMessage
  keyed s := s.messages.primary
  named _ := rfl
  positive := limitOr_pos (by decide) limit
  dead s env call _ member dead := by
    refine dead_of_row s.row (Postgres.exec s env call).1.row Postgres.Store.row_mem Postgres.Store.row_of_mem ?_ ?_ member dead
    · exact fun {id r} present dead => (Postgres.exec_row s env call id).dead present dead
    · rintro id t r rfl present
      exact Postgres.requeue_revives present

def mysqlDeadLetters (cfg : Mysql.Config) (eventType : String) (after : Time) (limit : Int) :
    DeadLetters (Mysql.Store cfg) where
  rows s := s.messages.rows
  exec := Mysql.exec
  listed := Mysql.listed cfg eventType after
  limit := limitOr 50 limit
  scanMessage := Mysql.scanMessage
  keyed s := s.messages.primary
  named _ := rfl
  positive := limitOr_pos (by decide) limit
  dead s env call _ member dead := by
    refine dead_of_row s.row (Mysql.exec s env call).1.row Mysql.Store.row_mem Mysql.Store.row_of_mem ?_ ?_ member dead
    · exact fun {id r} present dead => (Mysql.exec_row s env call id).dead present dead
    · rintro id t r rfl present
      exact Mysql.requeue_revives present

section
variable {σ : Type} (q : DeadLetters σ)

def DeadLetters.listDead (s : σ) (scan : Scan Row) : List InboundMessage :=
  (listDeadSQL (q.rows s) scan q.listed q.limit).map q.scanMessage

def DeadLetters.execute (s : σ) : List (Env × Call) → σ
  | [] => s
  | (env, call) :: rest => DeadLetters.execute (q.exec s env call).1 rest

/-- How many dead letters there are to be listed. -/
def DeadLetters.left (s : σ) : Nat := (deadRows (q.rows s) q.listed).length

end

theorem postgresDeadLetters_listDead {cfg : Postgres.Config} (s : Postgres.Store cfg) (scan : Scan Row)
    (eventType : String) (after : Time) (limit : Int) :
    (postgresDeadLetters cfg eventType after limit).listDead s scan = Postgres.listDead s scan eventType after limit :=
  rfl

theorem mysqlDeadLetters_listDead {cfg : Mysql.Config} (s : Mysql.Store cfg) (scan : Scan Row)
    (eventType : String) (after : Time) (limit : Int) :
    (mysqlDeadLetters cfg eventType after limit).listDead s scan = Mysql.listDead s scan eventType after limit := rfl

/-! ### One sweep -/

/-- The operator lists a page and requeues what is on it; the calls are theirs and those of
everybody else until the next page, in any order. -/
structure Sweep where
  scan : Scan Row
  calls : List (Env × Call)

def Sweep.buried (sweep : Sweep) : Nat := (sweep.calls.filterMap fun step => step.2.buries).length

section
variable {σ : Type} {q : DeadLetters σ} {s : σ}

def DeadLetters.Answered (q : DeadLetters σ) (s : σ) (sweep : Sweep) : Prop :=
  ∀ m ∈ q.listDead s sweep.scan, ∃ step ∈ sweep.calls, step.2.revives m.id = true

instance (q : DeadLetters σ) (s : σ) (sweep : Sweep) : Decidable (q.Answered s sweep) :=
  inferInstanceAs (Decidable (∀ m ∈ _, ∃ step ∈ _, _))

theorem DeadLetters.dead_before {calls : List (Env × Call)} {r : Row} (member : r ∈ q.rows (q.execute s calls))
    (dead : r.status = .dead) : (∃ step ∈ calls, step.2.buries = some (.uuid r.id)) ∨
      r ∈ q.rows s ∧ ∀ step ∈ calls, step.2.revives (.uuid r.id) = false := by
  induction calls generalizing s with
  | nil => exact Or.inr ⟨member,fun _ none => nomatch none⟩
  | cons step rest ih =>
    rcases ih member with ⟨later,listed,buries⟩ | ⟨there,spared⟩
    · exact Or.inl ⟨later,List.mem_cons_of_mem _ listed,buries⟩
    · rcases q.dead s step.1 step.2 r there dead with buries | ⟨before,spared'⟩
      · exact Or.inl ⟨step,List.mem_cons_self,buries⟩
      · exact Or.inr ⟨before,List.forall_mem_cons.mpr ⟨spared',spared⟩⟩

theorem DeadLetters.rows_nodup (q : DeadLetters σ) (s : σ) : (q.rows s).Nodup := (q.keyed s).of_map

theorem deadRows_visit (rows : List Row) (scan : Scan Row) (listed : Row → Bool) :
    (deadRows (scan.visit rows) listed).Perm (deadRows rows listed) := (scan.perm rows).filter _

/-- A page holds the newest dead letters, as many as the limit allows. -/
theorem DeadLetters.page_smallest (q : DeadLetters σ) (s : σ) (scan : Scan Row) :
    Smallest newestOrder q.limit (deadRows (scan.visit (q.rows s)) q.listed)
      (listDeadSQL (q.rows s) scan q.listed q.limit) :=
  take_smallest (((scan.perm _).nodup_iff.mpr (q.rows_nodup s)).filter _) q.limit

theorem DeadLetters.page_length (q : DeadLetters σ) (s : σ) (scan : Scan Row) :
    (listDeadSQL (q.rows s) scan q.listed q.limit).length = min q.limit (q.left s) := by
  rw [(q.page_smallest s scan).length, (deadRows_visit ..).length_eq, DeadLetters.left]

/-- The dead letters that a page passes over. -/
def DeadLetters.spared (q : DeadLetters σ) (s : σ) (scan : Scan Row) : List Row :=
  (deadRows (q.rows s) q.listed).filter fun r => r ∉ listDeadSQL (q.rows s) scan q.listed q.limit

theorem DeadLetters.spared_length (q : DeadLetters σ) (s : σ) (scan : Scan Row) :
    (q.listDead s scan).length + (q.spared s scan).length ≤ q.left s := by
  rw [DeadLetters.listDead, List.length_map, ← List.length_append]
  apply List.Subperm.length_le
  apply List.subperm_of_subset
  · apply (q.page_smallest s scan).nodup.append (((q.rows_nodup s).filter _).filter _)
    intro r shown other
    exact of_decide_eq_true (List.mem_filter.mp other).2 shown
  · refine List.append_subset.mpr ⟨fun r shown => ?_,List.filter_sublist.subset⟩
    exact (deadRows_visit ..).subset ((q.page_smallest s scan).subset shown)

/-- At the end of a sweep a dead letter was passed over by the page or has been buried since. -/
theorem DeadLetters.Answered.left_le {sweep : Sweep} (answered : q.Answered s sweep) :
    q.left (q.execute s sweep.calls) ≤ (q.spared s sweep.scan).length + sweep.buried := by
  have covered : ((deadRows (q.rows (q.execute s sweep.calls)) q.listed).map fun r => MessageID.uuid r.id) ⊆
      ((q.spared s sweep.scan).map fun r => MessageID.uuid r.id) ++
        sweep.calls.filterMap fun step => step.2.buries := by
    intro id member
    obtain ⟨r,shown,rfl⟩ := List.mem_map.mp member
    obtain ⟨there,isDead⟩ := List.mem_filter.mp shown
    have dead := of_decide_eq_true (Bool.and_eq_true_iff.mp isDead).1
    rcases DeadLetters.dead_before there dead with ⟨step,called,buries⟩ | ⟨before,untouched⟩
    · exact List.mem_append_right _ (List.mem_filterMap.mpr ⟨step,called,buries⟩)
    · refine List.mem_append_left _ (List.mem_map.mpr ⟨r,?_,rfl⟩)
      refine List.mem_filter.mpr ⟨List.mem_filter.mpr ⟨before,isDead⟩,decide_eq_true fun onPage => ?_⟩
      obtain ⟨step,called,revives⟩ := answered (q.scanMessage r) (List.mem_map.mpr ⟨r,onPage,rfl⟩)
      rw [q.named, untouched step called] at revives
      cases revives
  have distinct : ((deadRows (q.rows (q.execute s sweep.calls)) q.listed).map fun r => MessageID.uuid r.id).Nodup := by
    have ids : ((deadRows (q.rows (q.execute s sweep.calls)) q.listed).map Row.id).Nodup :=
      (q.keyed _).sublist (List.filter_sublist.map Row.id)
    have named := ids.map (f := MessageID.uuid) fun _ _ => MessageID.uuid.inj
    rwa [List.map_map] at named
  have bound := (List.subperm_of_subset distinct covered).length_le
  rwa [List.length_append, List.length_map, List.length_map] at bound

/-! ### Sweep after sweep -/

def DeadLetters.sweeps (q : DeadLetters σ) : System σ Sweep := ⟨fun s sweep => some (q.execute s sweep.calls)⟩

/-- However workers bury and others purge or requeue meanwhile, the pages that an operator works
off and the dead letters left at the end do not exceed those of the start and the burials. So a
sequence of sweeps that could list more has a page that is not full, and such a page lists all
dead letters there are. -/
theorem dead_letters_worked_off (q : DeadLetters σ) (s final : σ) (trace : List Sweep)
    (run : q.sweeps.run s trace = some final) (answered : q.sweeps.Along q.Answered s trace) :
    q.left final + q.sweeps.sum (fun s sweep => (q.listDead s sweep.scan).length) s trace ≤
      q.left s + total Sweep.buried trace ∧
    (q.left s + total Sweep.buried trace < trace.length * q.limit →
      ∃ earlier sweep later state, trace = earlier ++ sweep :: later ∧ q.sweeps.run s earlier = some state ∧
        (q.listDead state sweep.scan).length = q.left state ∧ q.left state < q.limit) := by
  have accounted : q.left final + q.sweeps.sum (fun s sweep => (q.listDead s sweep.scan).length) s trace ≤
      q.left s + total Sweep.buried trace := by
    rw [← System.sum_labels Sweep.buried run]
    refine System.balance q.Answered (fun _ => True) q.left _ _ ?_ run answered trivial
    rintro s sweep _ - answered ⟨⟩
    have page := q.spared_length s sweep.scan
    have after := answered.left_le
    exact ⟨trivial,by omega⟩
  refine ⟨accounted,fun many => ?_⟩
  have full : q.sweeps.sum (fun _ _ => q.limit) s trace = trace.length * q.limit := by
    rw [System.sum_labels (fun _ => q.limit) run]
    exact total_const ..
  have less : q.sweeps.sum (fun s sweep => (q.listDead s sweep.scan).length) s trace <
      q.sweeps.sum (fun _ _ => q.limit) s trace := by omega
  obtain ⟨earlier,sweep,later,state,parts,reached,short⟩ := System.exists_of_sum_lt less
  have length : (q.listDead state sweep.scan).length = min q.limit (q.left state) := by
    rw [DeadLetters.listDead, List.length_map, q.page_length]
  exact ⟨earlier,sweep,later,state,parts,reached,by omega,by omega⟩

end

/-! ### One dead letter -/

/-- A message that failed for good under id 7. -/
def buriedMail : Postgres.Store ⟨false, .full⟩ :=
  (postgresQueue ⟨false, .full⟩).execute Postgres.Store.empty
    [(Env.quiet 5 7, .enqueue (plainParams "mail" 3)), (Env.quiet 6 8, .claim (fetchMail "w")),
     (Env.quiet 7 8, .fail ⟨.uuid 7, 1, "w", "boom", 8, true⟩)]

def mailLetters : DeadLetters (Postgres.Store ⟨false, .full⟩) := postgresDeadLetters ⟨false, .full⟩ "mail" 0 1

/-- It is requeued in the first sweep, and the second finds nothing. -/
def mailSweeps : List Sweep :=
  [⟨.physical _, [(Env.quiet 8 8, .requeue (.uuid 7) (some 8))]⟩, ⟨.physical _, []⟩]

theorem dead_letters_worked_off_mail :
    mailLetters.left buriedMail = 1 ∧
    ∃ earlier sweep later state, mailSweeps = earlier ++ sweep :: later ∧
      mailLetters.sweeps.run buriedMail earlier = some state ∧
      (mailLetters.listDead state sweep.scan).length = mailLetters.left state ∧ mailLetters.left state < mailLetters.limit :=
  ⟨by decide +kernel,(dead_letters_worked_off mailLetters buriedMail _ mailSweeps rfl (by decide +kernel)).2
    (by decide +kernel)⟩

end Tickr
