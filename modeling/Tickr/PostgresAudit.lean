import Tickr.PostgresHistory
import Tickr.Transition

/-! Whether the log tells the status of a message. Completions, claims and requeues write
both tables in step. `ReclaimExpired` moves rows and logs nothing, and a Fail whose claim
is lost logs a failure that moved no row. -/
namespace Tickr.Postgres

open KeyedTable

variable {cfg : Config}

/-- Every message in the table is untouched and unlogged, or the row with the largest
number that the log has for it names its status. -/
def Accounts (s : Store cfg) : Prop :=
  ∀ r ∈ s.messages.rows,
    ((∀ e ∈ s.history, e.messageID ≠ r.id) ∧ r.status = .created) ∨
    ∃ e ∈ s.history, e.messageID = r.id ∧
      (∀ e' ∈ s.history, e'.messageID = r.id → e'.seq ≤ e.seq) ∧ e.toStatus = r.status

instance (s : Store cfg) : Decidable (Accounts s) := inferInstanceAs (Decidable (∀ _ ∈ _, _ ∨ _))

/-! ### The latest entry of a message -/

def newest (h : List HistoryRow) (k : Uuid) : Option Status :=
  (h.filter fun e => e.messageID = k).getLast?.map HistoryRow.toStatus

theorem newest_append (h : List HistoryRow) (e : HistoryRow) (k : Uuid) :
    newest (h ++ [e]) k = if e.messageID = k then some e.toStatus else newest h k := by
  unfold newest
  rw [List.filter_append]
  by_cases same : e.messageID = k <;> simp [same]

theorem newest_eq_none {h : List HistoryRow} {k : Uuid} :
    newest h k = none ↔ ∀ e ∈ h, e.messageID ≠ k := by
  simp [newest]

theorem newest_eq_some {h : List HistoryRow} (ordered : Ordered h) {k : Uuid} {status : Status} :
    newest h k = some status ↔ ∃ e ∈ h, e.messageID = k ∧
      (∀ e' ∈ h, e'.messageID = k → e'.seq ≤ e.seq) ∧ e.toStatus = status := by
  have mine : (h.filter fun e => e.messageID = k).Pairwise fun a b => a.seq < b.seq := by
    refine (ordered.sublist List.filter_sublist).imp_of_mem ?_
    intro a b left right before
    have named := of_decide_eq_true (List.mem_filter.mp left).2
    exact before (named.trans (of_decide_eq_true (List.mem_filter.mp right).2).symm)
  have listed (e : HistoryRow) : e ∈ h.filter (fun e => e.messageID = k) ↔ e ∈ h ∧ e.messageID = k := by
    rw [List.mem_filter, decide_eq_true_eq]
  unfold newest
  generalize h.filter (fun e => e.messageID = k) = entries at mine listed
  rw [Option.map_eq_some_iff]
  constructor
  · rintro ⟨e,last,rfl⟩
    obtain ⟨front,rfl⟩ := List.getLast?_eq_some_iff.mp last
    obtain ⟨present,named⟩ := (listed e).mp (by simp)
    refine ⟨e,present,named,?_,rfl⟩
    intro e' present' named'
    rcases List.mem_append.mp ((listed e').mpr ⟨present',named'⟩) with earlier | same
    · exact ((List.pairwise_append.mp mine).2.2 e' earlier e (by simp)).le
    · rw [List.mem_singleton.mp same]
  · rintro ⟨e,present,named,largest,rfl⟩
    have member := (listed e).mpr ⟨present,named⟩
    obtain ⟨last,found⟩ := Option.isSome_iff_exists.mp
      (List.getLast?_isSome.mpr (List.ne_nil_of_mem member))
    obtain ⟨front,rfl⟩ := List.getLast?_eq_some_iff.mp found
    refine ⟨last,found,?_⟩
    rcases List.mem_append.mp member with earlier | same
    · have before := (List.pairwise_append.mp mine).2.2 e earlier last (by simp)
      obtain ⟨present',named'⟩ := (listed last).mp (by simp)
      have := largest last present' named'
      omega
    · rw [List.mem_singleton.mp same]

/-- The inductive form of `Accounts`, message by message. -/
def Follows (latest : Option Status) (row : Option Row) : Prop :=
  ∀ r, row = some r → latest = some r.status ∨ latest = none ∧ r.status = .created

def Followed (s : Store cfg) : Prop := ∀ k, Follows (newest s.history k) (s.row k)

theorem accounts_iff {s : Store cfg} (ordered : Ordered s.history) : Accounts s ↔ Followed s := by
  have entry (r : Row) : (newest s.history r.id = some r.status ∨
        newest s.history r.id = none ∧ r.status = .created) ↔
      ((∀ e ∈ s.history, e.messageID ≠ r.id) ∧ r.status = .created) ∨
      ∃ e ∈ s.history, e.messageID = r.id ∧
        (∀ e' ∈ s.history, e'.messageID = r.id → e'.seq ≤ e.seq) ∧ e.toStatus = r.status := by
    rw [newest_eq_none, newest_eq_some ordered, or_comm]
  constructor
  · intro accounts k r found
    obtain rfl := Store.row_id found
    exact (entry r).mpr (accounts r (Store.row_mem found))
  · intro followed r member
    exact (entry r).mp (followed r.id r (Store.row_of_mem member))

/-! ### One statement -/

/-- A guarded UPDATE that logs the status it sets when it sets one, and logs nothing about
a present row when it does not. -/
theorem Followed.transition {s s' : Store cfg} {id : Uuid} {attempt : Int} {set : Row → Row}
    (followed : Followed s)
    (rows : ∀ k, s'.row k = (s.row k).map (when (holds id attempt) set))
    (log : (∃ r, s.row id = some r ∧ holds id attempt r = true ∧
        ∀ k, newest s'.history k = if id = k then some (set r).status else newest s.history k) ∨
      (∀ r, s.row id = some r → holds id attempt r = false) ∧
        ∀ k r, s.row k = some r → newest s'.history k = newest s.history k) : Followed s' := by
  intro k r' found
  rw [rows k] at found
  obtain ⟨r,before,rfl⟩ := Option.map_eq_some_iff.mp found
  have other (different : id ≠ k) : holds id attempt r = false := by
    refine Bool.eq_false_iff.mpr fun on => different ?_
    rw [← (holds_iff.mp on).1, Store.row_id before]
  rcases log with ⟨held,present,on,logged⟩ | ⟨missed,quiet⟩
  · rw [logged k]
    by_cases same : id = k
    · subst same
      cases before.symm.trans present
      rw [if_pos rfl, when, if_pos on]
      exact Or.inl rfl
    · rw [if_neg same, when, other same, if_neg Bool.false_ne_true]
      exact followed k r before
  · have off : holds id attempt r = false := by
      by_cases same : id = k
      · exact missed r (same ▸ before)
      · exact other same
    rw [quiet k r before, when, off, if_neg Bool.false_ne_true]
    exact followed k r before

/-- The same for a statement with one entry for each row that it transitions. -/
theorem Followed.logged {s s' : Store cfg} {id : Uuid} {attempt : Int} {set : Row → Row} {entry : Row → HistoryRow}
    (followed : Followed s) (rows : ∀ k, s'.row k = (s.row k).map (when (holds id attempt) set))
    (log : s'.history = s.history ++ (updated s id attempt set).map entry)
    (told : ∀ r, (entry (set r)).messageID = r.id ∧ (entry (set r)).toStatus = (set r).status) : Followed s' := by
  refine followed.transition rows ?_
  rw [log]
  rcases updated_cases s id attempt set with ⟨r,found,on,one⟩ | ⟨off,none⟩
  · refine Or.inl ⟨r,found,on,fun k => ?_⟩
    rw [one, List.map_singleton, newest_append, (told r).1, (told r).2, Store.row_id found]
  · refine Or.inr ⟨off,fun k r _ => ?_⟩
    rw [none, List.map_nil, List.append_nil]

/-- What a Fail logs about each message: the status that it sets if the claim was held,
and a bare failure if it was not. -/
theorem newest_failed (s : Store cfg) (now : Time) (error workerID : String) {id : Uuid} {attempt : Int}
    {set : Row → Row} {entry : Row → HistoryRow} {status : Status}
    (told : ∀ u, (entry u).messageID = id ∧ (entry u).toStatus = status) (k : Uuid) :
    newest (s.history ++ failedEntry s now id attempt error workerID :: (updated s id attempt set).map entry) k =
      if id = k then if (s.row id).any (holds id attempt) = true then some status else some .failed
      else newest s.history k := by
  rcases updated_cases s id attempt set with ⟨r,found,on,one⟩ | ⟨off,none⟩
  · have held : (s.row id).any (holds id attempt) = true := by rw [found]; exact on
    rw [one, List.map_singleton, List.append_cons, newest_append, newest_append, held, (told _).1, (told _).2]
    by_cases same : id = k <;> simp [same, failedEntry]
  · have unheld : (s.row id).any (holds id attempt) = false := by
      simpa [Option.any_eq_false] using off
    rw [none, List.map_nil, newest_append, unheld]
    by_cases same : id = k <;> simp [same, failedEntry]

theorem appendHistoryBatch_newest (history : List HistoryRow) (now : Time) (msgs : List InboundMessage)
    (toStatus : Status) (error workerID : String) (k : Uuid) :
    newest (appendHistoryBatch history now msgs toStatus error workerID) k =
      if msgs.any (fun m => m.id = .uuid k) = true then some toStatus else newest history k := by
  induction msgs generalizing history with
  | nil => rfl
  | cons m rest ih =>
    have step : appendHistoryBatch history now (m :: rest) toStatus error workerID =
        appendHistoryBatch (appendHistoryBatch history now [m] toStatus error workerID) now rest
          toStatus error workerID := rfl
    rw [step, ih]
    cases named : m.id with
    | malformed text => simp [appendHistoryBatch, MessageID.parse, named]
    | uuid id =>
      simp only [appendHistoryBatch, List.foldl_cons, List.foldl_nil, named, MessageID.parse,
        appendHistorySQL, newest_append, List.any_cons, MessageID.uuid.injEq, Bool.or_eq_true,
        decide_eq_true_eq]
      by_cases same : id = k <;> simp [same]

section
variable (full : cfg.historyPolicy = .full)
include full

theorem succeedStatement_followed {s : Store cfg} (followed : Followed s) (now : Time) (id : Uuid)
    (attempt : Int) (workerID : String) : Followed (succeedStatement s now id attempt workerID) := by
  have log : (succeedStatement s now id attempt workerID).history =
      (succeedSQL s now id attempt workerID).history := by
    unfold succeedStatement
    rw [full, if_neg (by decide)]
  exact followed.logged (succeedStatement_row s now id attempt workerID) log fun _ => ⟨rfl,rfl⟩

theorem acks_followed {s : Store cfg} (followed : Followed s) (now : Time)
    (acks : List (Uuid × BatchSucceedParam)) :
    Followed (acks.foldl (fun s q => succeedStatement s now q.1 q.2.attempt q.2.workerID) s) := by
  induction acks generalizing s with
  | nil => exact followed
  | cons q rest ih => exact ih (succeedStatement_followed full followed now q.1 q.2.attempt q.2.workerID)

theorem releaseStatement_followed {s : Store cfg} (followed : Followed s) (now : Time) (id : Uuid)
    (attempt : Int) (workerID reason : String) :
    Followed (releaseStatement s now id attempt workerID reason) := by
  have log : (releaseStatement s now id attempt workerID reason).history =
      (releaseShutdownSQL s now id attempt reason workerID).history := by
    unfold releaseStatement
    rw [full, if_neg (by decide)]
  exact followed.logged (releaseStatement_row s now id attempt workerID reason) log fun _ => ⟨rfl,rfl⟩

theorem failStatement_newest (s : Store cfg) (now : Time) (id : Uuid) (p : FailParams) (k : Uuid) :
    newest (failStatement s now id p).history k =
      if id = k then
        if (s.row id).any (holds id p.attempt) = true then some (if p.dead then .dead else .retrying)
        else some .failed
      else newest s.history k := by
  unfold failStatement
  rw [full, if_neg (by decide)]
  cases p.dead with
  | true =>
    simp only [if_true, failDeadSQL]
    refine newest_failed s now p.err p.workerID ?_ k
    exact fun _ => ⟨rfl,rfl⟩
  | false =>
    simp only [Bool.false_eq_true, if_false, failRetrySQL]
    refine newest_failed s now p.err p.workerID ?_ k
    exact fun _ => ⟨rfl,rfl⟩

theorem failStatement_followed {s : Store cfg} (followed : Followed s) (now : Time) (id : Uuid)
    (p : FailParams) (held : ∀ r, s.row id = some r → holds id p.attempt r = true) :
    Followed (failStatement s now id p) := by
  refine followed.transition (failStatement_row s now id p) ?_
  cases found : s.row id with
  | none =>
    refine Or.inr ⟨by simp,fun k r present => ?_⟩
    have different : id ≠ k := by
      rintro rfl
      cases found.symm.trans present
    rw [failStatement_newest full, if_neg different]
  | some r =>
    have on := held r found
    refine Or.inl ⟨r,rfl,on,fun k => ?_⟩
    rw [failStatement_newest full, found, Option.any_some, on, if_pos rfl]
    cases p.dead <;> rfl

theorem claim_followed {s : Store cfg} (followed : Followed s) (env : Env) (p : ClaimParams) :
    Followed (claim s env p).1 := by
  obtain ⟨statement,chosen,spec⟩ := claim_spec s env p
  intro k r' found
  rw [spec.row k] at found
  obtain ⟨r,before,rfl⟩ := Option.map_eq_some_iff.mp found
  have log : (claim s env p).1.history =
      appendHistoryBatch s.history (env.now 2) (claim s env p).2 .handling "" p.workerID := by
    simp only [claim, full]
    rw [if_neg (by decide)]
  rw [log, appendHistoryBatch_newest]
  by_cases listed : r.id ∈ chosen
  · have returned : (claim s env p).2.any (fun m => m.id = .uuid k) = true := by
      rw [Store.row_id before] at listed
      refine List.any_eq_true.mpr ⟨_,(spec.returned _).mpr ⟨k,listed,r,before,rfl⟩,decide_eq_true ?_⟩
      exact congrArg MessageID.uuid (show r.id = k from Store.row_id before)
    rw [returned, when, if_pos (decide_eq_true listed), if_pos rfl]
    exact Or.inl rfl
  · have silent : (claim s env p).2.any (fun m => m.id = .uuid k) = false := by
      refine List.any_eq_false.mpr fun m member named => listed ?_
      obtain ⟨k',chosen',r',found',rfl⟩ := (spec.returned m).mp member
      have same : r'.id = k := MessageID.uuid.inj (of_decide_eq_true named)
      rw [Store.row_id before, ← same, Store.row_id found']
      exact chosen'
    rw [silent, if_neg Bool.false_ne_true, when, if_neg (by simp [listed])]
    exact followed k r before

end

/-! ### Whole calls and whole runs -/

/-- When a step keeps the log and the statuses together. A generated id that is not in the
table has no log either; a Fail of a message in the table still holds its claim; and
ReclaimExpired finds nothing to reclaim. -/
def Traced (s : Store cfg) : Env × Call → Prop
  | (env, .enqueue p) => ∀ id ∈ generated env (.enqueue p), s.row id = none → ∀ e ∈ s.history, e.messageID ≠ id
  | (env, .enqueueBatch ps) =>
    ∀ id ∈ generated env (.enqueueBatch ps), s.row id = none → ∀ e ∈ s.history, e.messageID ≠ id
  | (_, .fail p) => ∀ r ∈ s.messages.rows, p.messageID = .uuid r.id → holds r.id p.attempt r = true
  | (env, .reclaimExpired _) => ∀ r ∈ s.messages.rows, expired env r = false
  | _ => True

instance (s : Store cfg) (label : Env × Call) : Decidable (Traced s label) := by
  obtain ⟨env,call⟩ := label
  cases call <;> unfold Traced <;> infer_instance

theorem reclaimChosen_eq_nil {messages : Messages cfg} {env : Env} {limit : Nat} (positive : 0 < limit) :
    reclaimChosen messages env limit = [] ↔ ∀ r ∈ messages.rows, expired env r = false := by
  unfold reclaimChosen
  rw [List.map_eq_nil_iff, List.take_eq_nil_iff, List.filter_eq_nil_iff]
  simp [positive.ne']

theorem inserted_followed {s s' : Store cfg} (followed : Followed s) (log : s'.history = s.history)
    (rows : ∀ k, s'.row k = s.row k ∨ s.row k = none ∧ (∀ e ∈ s.history, e.messageID ≠ k) ∧
      ∃ r, s'.row k = some r ∧ r.status = .created) : Followed s' := by
  intro k r found
  rw [log]
  rcases rows k with same | ⟨_,unlogged,r',inserted,created⟩
  · exact followed k r (same ▸ found)
  · cases found.symm.trans inserted
    exact Or.inr ⟨newest_eq_none.mpr unlogged,created⟩

theorem extend_followed {s : Store cfg} (followed : Followed s) (env : Env) (id : Uuid) (workerID : String)
    (until_ : Time) : Followed (extend s env (.uuid id) workerID until_).1 := by
  intro k r' found
  have row := extendSQL_row s.messages (env.now 0) id workerID until_ k
  obtain ⟨r,before,rfl⟩ := Option.map_eq_some_iff.mp (row.symm.trans found)
  have kept : (when (owns id workerID) (extendSet (env.now 0) until_) r).status = r.status := by
    unfold when
    split <;> rfl
  rw [kept]
  exact followed k r before

theorem requeue_followed {s : Store cfg} (followed : Followed s) (env : Env) (id : Uuid) (processAt : Option Time) :
    Followed (requeue s env (.uuid id) processAt).1 := by
  simp only [requeue, MessageID.parse]
  split
  · rename_i buried
    obtain ⟨d,member,on⟩ := List.any_eq_true.mp buried
    intro k r' found
    have row := requeueSQL_row s.messages (env.now 0) id (processAt.getD (env.clock 0)) k
    obtain ⟨r,before,rfl⟩ := Option.map_eq_some_iff.mp (row.symm.trans found)
    simp only [appendHistorySQL, newest_append]
    by_cases same : id = k
    · have present : s.row k = some d := same ▸ (isDead_iff.mp on).1 ▸ Store.row_of_mem member
      cases present.symm.trans before
      rw [if_pos same, when, if_pos on]
      exact Or.inl rfl
    · have off : ¬isDead id r = true := fun dead =>
        same ((isDead_iff.mp dead).1.symm.trans (Store.row_id before))
      rw [if_neg same, when, if_neg off]
      exact followed k r before
  · exact followed

theorem exec_followed (full : cfg.historyPolicy = .full) {s : Store cfg} (followed : Followed s) (env : Env)
    (call : Call) (traced : Traced s (env, call)) : Followed (exec s env call).1 := by
  cases call with
  | enqueue p =>
    refine inserted_followed followed (enqueue_history s env p) fun k => ?_
    rcases enqueue_row s env p k with same | ⟨named,absent,inserted⟩
    · exact Or.inl same
    · exact Or.inr ⟨absent,traced k (by simp [generated, named]) absent,_,inserted,rfl⟩
  | enqueueBatch ps =>
    refine inserted_followed followed (enqueueBatch_history s env ps) fun k => ?_
    rcases enqueueBatch_row s env ps k with same | ⟨absent,i,p,found,named,inserted⟩
    · exact Or.inl same
    · refine Or.inr ⟨absent,traced k ?_ absent,_,inserted,rfl⟩
      exact List.mem_map.mpr ⟨i,List.mem_range.mpr (List.getElem?_eq_some_iff.mp found).1,named.symm⟩
  | claim p => exact claim_followed full followed env p
  | succeed id attempt workerID =>
    cases id with
    | malformed text => exact followed
    | uuid mid => exact succeedStatement_followed full followed (env.now 0) mid attempt workerID
  | batchSucceed params =>
    simp only [exec, batchSucceed]
    split
    · exact followed
    · exact acks_followed full followed (env.now 0) (queued params)
  | fail p =>
    cases named : p.messageID with
    | malformed text =>
      simp only [exec, fail, named, MessageID.parse]
      exact followed
    | uuid mid =>
      simp only [exec, fail, named, MessageID.parse]
      refine failStatement_followed full followed (env.now 0) mid p fun r found => ?_
      obtain rfl := Store.row_id found
      exact traced r (Store.row_mem found) named
  | releaseShutdown id attempt workerID reason =>
    cases id with
    | malformed text => exact followed
    | uuid mid => exact releaseStatement_followed full followed (env.now 0) mid attempt workerID reason
  | extend id workerID until_ =>
    cases id with
    | malformed text => exact followed
    | uuid mid => exact extend_followed followed env mid workerID until_
  | requeue id processAt =>
    cases id with
    | malformed text => exact followed
    | uuid mid => exact requeue_followed followed env mid processAt
  | reclaimExpired limit =>
    intro k r' found
    rw [exec, reclaimExpired_row, reclaimChosen_eq_nil (limitOr_pos (by decide) limit) |>.mpr traced] at found
    rw [map_when_same (fun _ _ => by simp)] at found
    exact followed k r' found
  | purgeTerminal before limit =>
    intro k r found
    have row := purgeTerminal_row s env before limit k
    exact followed k r (Option.filter_eq_some_iff.mp (row.symm.trans found)).1

/-- Storage calls, one after the other. -/
def calls (cfg : Config) : Transition.System (Store cfg) (Env × Call) :=
  ⟨fun s label => some (exec s label.1 label.2).1⟩

theorem calls_run (s : Store cfg) (trace : List (Env × Call)) : (calls cfg).run s trace = some (execute s trace) := by
  induction trace generalizing s with
  | nil => rfl
  | cons label rest ih => exact ih _

theorem execute_ordered (s : Store cfg) (trace : List (Env × Call)) (ordered : Ordered s.history) :
    Ordered (execute s trace).history := by
  induction trace generalizing s with
  | nil => exact ordered
  | cons label rest ih => exact ih _ ((exec_grows s label.1 label.2).ordered ordered)

theorem execute_followed (full : cfg.historyPolicy = .full) {trace : List (Env × Call)}
    (traced : (calls cfg).Along Traced Store.empty trace) : Followed (execute (Store.empty : Store cfg) trace) := by
  refine Transition.System.invariant Traced Followed ?_ (calls_run Store.empty trace) traced ?_
  · rintro s ⟨env,call⟩ next followed condition step
    cases step
    exact exec_followed full followed env call condition
  · intro k r found
    cases found

section
variable {s : Store cfg}

/-- A Fail that lost its claim leaves a failure as the last word on a row that no status
ever calls failed. -/
theorem lost_fail_unaccounted (full : cfg.historyPolicy = .full) (ordered : Ordered s.history) {r : Row}
    (member : r ∈ s.messages.rows) (status : r.status ≠ .failed) (env : Env) {p : FailParams}
    (named : p.messageID = .uuid r.id) (lost : holds r.id p.attempt r = false) :
    ¬Accounts (exec s env (.fail p)).1 := by
  intro accounts
  have followed := (accounts_iff ((exec_grows s env (.fail p)).ordered ordered)).mp accounts
  have found : s.row r.id = some r := Store.row_of_mem member
  simp only [exec, fail, named, MessageID.parse] at followed
  have row : (failStatement s (env.now 0) r.id p).row r.id = some r := by
    rw [failStatement_row, found, Option.map_some, when, lost, if_neg Bool.false_ne_true]
  have logged : newest (failStatement s (env.now 0) r.id p).history r.id = some .failed := by
    rw [failStatement_newest full, found, if_pos rfl, Option.any_some, lost, if_neg Bool.false_ne_true]
  rcases followed r.id r row with same | ⟨silent,_⟩
  · rw [logged] at same
    exact status (Option.some.inj same).symm
  · cases logged.symm.trans silent

/-- A reclaimed row is RETRYING under a log that still calls it HANDLING. -/
theorem reclaim_unaccounted (ordered : Ordered s.history) (followed : Followed s) (env : Env) {limit : Int}
    (lapsed : ¬∀ r ∈ s.messages.rows, expired env r = false) :
    ¬Accounts (exec s env (.reclaimExpired limit)).1 := by
  intro accounts
  have after := (accounts_iff ((exec_grows s env (.reclaimExpired limit)).ordered ordered)).mp accounts
  have room : 0 < limitOr 500 limit := limitOr_pos (by decide) limit
  obtain ⟨k,chosen⟩ := List.exists_mem_of_ne_nil _ (mt (reclaimChosen_eq_nil room).mp lapsed)
  obtain ⟨r,found,late⟩ := mem_reclaimChosen chosen
  obtain ⟨handling,_⟩ := expired_iff.mp late
  have named : r.id = k := Table.find?_key found
  have before : newest s.history k = some .handling := by
    rcases followed k r found with same | ⟨_,created⟩
    · rw [same, handling]
    · cases created.symm.trans handling
  have row : (exec s env (.reclaimExpired limit)).1.row k = some (reclaimSet (env.now 0) r) := by
    rw [exec, reclaimExpired_row, show s.row k = some r from found, Option.map_some, when,
      if_pos (decide_eq_true (named ▸ chosen))]
  rcases after k _ row with same | ⟨silent,_⟩
  · cases before.symm.trans same
  · cases before.symm.trans silent

end

/-- In every run in which every Fail of a present message still holds its claim and no
expired lease is reclaimed, the log names the status of every message; and from there
these two calls keep it so only under that condition. -/
theorem history_accounts (partitioned : Bool) (trace : List (Env × Call))
    (traced : (calls ⟨partitioned, .full⟩).Along Traced Store.empty trace) :
    Accounts (execute (Store.empty : Store ⟨partitioned, .full⟩) trace) ∧
    (∀ env p, Accounts (exec (execute (Store.empty : Store ⟨partitioned, .full⟩) trace) env (.fail p)).1 ↔
      Traced (execute (Store.empty : Store ⟨partitioned, .full⟩) trace) (env, .fail p)) ∧
    ∀ env limit,
      Accounts (exec (execute (Store.empty : Store ⟨partitioned, .full⟩) trace) env (.reclaimExpired limit)).1 ↔
        Traced (execute (Store.empty : Store ⟨partitioned, .full⟩) trace) (env, .reclaimExpired limit) := by
  have followed := execute_followed rfl traced
  have sound := @execute_sound ⟨partitioned,.full⟩ trace
  have ordered : Ordered (execute (Store.empty : Store ⟨partitioned,.full⟩) trace).history :=
    execute_ordered Store.empty trace List.Pairwise.nil
  generalize execute (Store.empty : Store ⟨partitioned,.full⟩) trace = s at followed sound ordered
  have kept (env : Env) (call : Call) (condition : Traced s (env,call)) : Accounts (exec s env call).1 :=
    (accounts_iff ((exec_grows s env call).ordered ordered)).mpr (exec_followed rfl followed env call condition)
  refine ⟨(accounts_iff ordered).mpr followed,fun env p => ⟨?_,kept env (.fail p)⟩,
    fun env limit => ⟨?_,kept env (.reclaimExpired limit)⟩⟩
  · intro accounts r member named
    refine Bool.not_eq_false _ |>.mp fun lost => ?_
    have status := (sound r.id r (Store.row_of_mem member)).1.neverFailed
    exact lost_fail_unaccounted rfl ordered member status env named lost accounts
  · intro accounts
    by_contra lapsed
    exact reclaim_unaccounted ordered followed env lapsed accounts

theorem history_accounts_failed :
    (calls ⟨false, .full⟩).Along Traced Store.empty
      [(Env.quiet 5 7, .enqueue (plainParams "mail" 3)), (Env.quiet 6 0, fetchAll "w"),
        (Env.quiet 8 0, .fail ⟨.uuid 7, 1, "w", "timeout", 9, false⟩)] ∧
    Accounts (execute (Store.empty : Store ⟨false, .full⟩)
      [(Env.quiet 5 7, .enqueue (plainParams "mail" 3)), (Env.quiet 6 0, fetchAll "w"),
        (Env.quiet 8 0, .fail ⟨.uuid 7, 1, "w", "timeout", 9, false⟩)]) :=
  ⟨by decide +kernel,(history_accounts false _ (by decide +kernel)).1⟩

/-- A lease that expired and was reclaimed: the row is RETRYING and the log ends in HANDLING. -/
theorem reclaimed_row_unaccounted :
    (execute (Store.empty : Store ⟨false, .full⟩)
        [(Env.quiet 5 7, .enqueue (plainParams "mail" 3)), (Env.quiet 6 0, fetchAll "w"),
          (Env.quiet (31 * Duration.second) 0, .reclaimExpired 0)]).messages.rows.map Row.status =
      [.retrying] ∧
    (execute (Store.empty : Store ⟨false, .full⟩)
        [(Env.quiet 5 7, .enqueue (plainParams "mail" 3)), (Env.quiet 6 0, fetchAll "w"),
          (Env.quiet (31 * Duration.second) 0, .reclaimExpired 0)]).history.map HistoryRow.toStatus =
      [.handling] ∧
    ¬Accounts (execute (Store.empty : Store ⟨false, .full⟩)
        [(Env.quiet 5 7, .enqueue (plainParams "mail" 3)), (Env.quiet 6 0, fetchAll "w"),
          (Env.quiet (31 * Duration.second) 0, .reclaimExpired 0)]) := by
  decide +kernel

end Tickr.Postgres
