import Tickr.PostgresHistory
import Tickr.Transition

/-! The order of the log. Every row that is appended gets a number of its own, in the order of
the appends, and keeps it until a purge removes the row. The log is what the store has; the
numbers are ours, and History does not see them. -/
namespace Tickr.Postgres

open KeyedTable Transition

variable {cfg : Config}

/-! ### Listing -/

/-- A row of the log as History returns it: a null status, error or worker is empty. -/
structure HistoryTransition where
  messageID : MessageID
  seq : Nat
  fromStatus : Option Status
  toStatus : Status
  attempt : Int
  error : String
  workerID : String
  time : Time
  deriving DecidableEq, Repr

def scanTransition (row : HistoryRow) : HistoryTransition where
  messageID := .uuid row.messageID
  seq := row.seq
  fromStatus := row.fromStatus
  toStatus := row.toStatus
  attempt := row.attempt
  error := row.error.getD ""
  workerID := row.workerID.getD ""
  time := row.time

/-- ORDER BY seq leaves open how rows of one number stand. -/
def historySQL (log : List HistoryRow) (scan : Scan HistoryRow) (id : Uuid) : List HistoryRow :=
  ((scan.visit log).filter fun h => h.messageID = id).insertionSort fun a b => a.seq ≤ b.seq

def history (s : Store cfg) (scan : Scan HistoryRow) (id : MessageID) : Except StoreError (List HistoryTransition) :=
  match id.parse with
  | none => .error (.badID "history")
  | some mid => .ok ((historySQL s.history scan mid).map scanTransition)

/-- The rows of one message, as they stand in the log. -/
def ofMessage (log : List HistoryRow) (id : Uuid) : List HistoryRow := log.filter fun h => h.messageID = id

theorem Ordered.increasing {log : List HistoryRow} (ordered : Ordered log) (id : Uuid) :
    (ofMessage log id).Pairwise fun a b => a.seq < b.seq := by
  refine (ordered.sublist List.filter_sublist).imp_of_mem ?_
  intro a b first second before
  have firstNamed := of_decide_eq_true (List.mem_filter.mp first).2
  have secondNamed := of_decide_eq_true (List.mem_filter.mp second).2
  exact before (firstNamed.trans secondNamed.symm)

theorem Ordered.distinct {log : List HistoryRow} (ordered : Ordered log) (id : Uuid) :
    ((ofMessage log id).map HistoryRow.seq).Nodup :=
  List.pairwise_map.mpr ((ordered.increasing id).imp ne_of_lt)

/-- Rows that stand in the order of their numbers are listed as they stand, whatever way the scan
goes. -/
theorem Ordered.listed {log : List HistoryRow} (ordered : Ordered log) (scan : Scan HistoryRow) (id : Uuid) :
    historySQL log scan id = ofMessage log id := by
  have perm : (historySQL log scan id).Perm (ofMessage log id) :=
    (List.perm_insertionSort _ _).trans ((scan.perm log).filter _)
  refine List.Perm.eq_of_pairwise ?_ (List.pairwise_insertionSort _ _) ((ordered.increasing id).imp le_of_lt) perm
  intro a b first second below above
  exact List.inj_on_of_nodup_map (ordered.distinct id) (perm.mem_iff.mp first) second (le_antisymm below above)

/-! ### Numbering the appends -/

/-- A store, the rows of its log with the number of each, and the next number. -/
structure Logged (cfg : Config) where
  store : Store cfg
  log : List (HistoryRow × Nat)
  next : Nat

def Logged.empty : Logged cfg := ⟨Store.empty, [], 0⟩

/-- The rows that a statement leaves behind those that were there are numbered on. -/
def Logged.appended (l : Logged cfg) (store : Store cfg) : Logged cfg :=
  let rows := store.history.drop l.store.history.length
  ⟨store, l.log ++ rows.zipIdx l.next, l.next + rows.length⟩

/-- A call in one go or a purge; or one statement of a call that has several, with those of
other calls before and after it: the UPDATE of a Claim or a Requeue, and each row of the log that
they then append. -/
inductive LogStep (cfg : Config) where
  | request (request : Request)
  | update (messages : Messages cfg)
  | append (now : Time) (id : Uuid) (fromStatus : Option Status) (toStatus : Status) (attempt : Int)
      (error workerID : String)

def Logged.step (l : Logged cfg) : LogStep cfg → Logged cfg
  | .request (.call env call) => l.appended (exec l.store env call).1
  | .request (.purgeHistory scan before limit) =>
    let store := (purgeHistory l.store scan before limit).1
    { l with store := store, log := l.log.filter fun e => e.1 ∈ store.history }
  | .update messages => { l with store := { l.store with messages := messages } }
  | .append now id fromStatus toStatus attempt error workerID =>
    l.appended { l.store with
      history := appendHistorySQL l.store.history now id fromStatus toStatus attempt error workerID }

def logSystem (cfg : Config) : System (Logged cfg) (LogStep cfg) := ⟨fun l step => some (l.step step)⟩

/-- The numbered log is the log of the store, in the order of its numbers. -/
structure Numbered (l : Logged cfg) : Prop where
  rows : l.log.map Prod.fst = l.store.history
  ascending : l.log.Pairwise fun a b => a.2 < b.2
  below : ∀ e ∈ l.log, e.2 < l.next
  ordered : Ordered l.store.history

theorem Logged.empty_numbered : Numbered (Logged.empty : Logged cfg) :=
  ⟨rfl,List.Pairwise.nil,fun _ listed => absurd listed List.not_mem_nil,List.Pairwise.nil⟩

theorem Grows.rest {h h' : List HistoryRow} (grows : Grows h h') : ∃ rows, h' = h ++ rows := by
  induction grows with
  | refl => exact ⟨[],(List.append_nil h).symm⟩
  | @next _ e _ _ ih =>
    obtain ⟨rows,rfl⟩ := ih
    exact ⟨rows ++ [e],List.append_assoc _ _ _⟩

theorem Numbered.appended {l : Logged cfg} (numbered : Numbered l) {store : Store cfg}
    (grows : Grows l.store.history store.history) : Numbered (l.appended store) := by
  obtain ⟨rows,grown⟩ := grows.rest
  have new : store.history.drop l.store.history.length = rows := by rw [grown, List.drop_left]
  unfold Logged.appended
  rw [new]
  constructor
  · rw [List.map_append, numbered.rows, List.zipIdx_map_fst, grown]
  · refine List.pairwise_append.mpr ⟨numbered.ascending,?_,?_⟩
    · refine List.pairwise_map.mp ?_
      rw [List.zipIdx_map_snd]
      exact List.pairwise_lt_range' 1
    · intro a old b new
      exact lt_of_lt_of_le (numbered.below a old) (List.le_snd_of_mem_zipIdx new)
  · intro e listed
    rcases List.mem_append.mp listed with old | new
    · exact Nat.lt_add_right _ (numbered.below e old)
    · exact List.snd_lt_add_of_mem_zipIdx new
  · exact grows.ordered numbered.ordered

/-- The rows that a deletion leaves keep their numbers. -/
theorem Numbered.filtered {l : Logged cfg} (numbered : Numbered l) (keep : HistoryRow → Bool) :
    (l.log.filter fun e => decide (e.1 ∈ l.store.history.filter keep)).map Prod.fst = l.store.history.filter keep := by
  have kept : (l.log.filter fun e => decide (e.1 ∈ l.store.history.filter keep)) = l.log.filter (keep ∘ Prod.fst) := by
    apply List.filter_congr
    intro e listed
    have member : e.1 ∈ l.store.history := numbered.rows ▸ List.mem_map_of_mem listed
    simp [List.mem_filter, member]
  rw [kept, ← List.filter_map, numbered.rows]

theorem Logged.step_numbered (l : Logged cfg) (step : LogStep cfg) (numbered : Numbered l) : Numbered (l.step step) := by
  cases step with
  | request request =>
    cases request with
    | call env call => exact numbered.appended (exec_grows l.store env call)
    | purgeHistory scan before limit =>
      constructor
      · exact numbered.filtered _
      · exact numbered.ascending.sublist List.filter_sublist
      · intro e kept
        exact numbered.below e (List.mem_of_mem_filter kept)
      · exact perform_ordered l.store (.purgeHistory scan before limit) numbered.ordered
  | update messages => exact ⟨numbered.rows,numbered.ascending,numbered.below,numbered.ordered⟩
  | append now id fromStatus toStatus attempt error workerID => exact numbered.appended (.one rfl)

/-- In every state that calls, their single statements and purges of the log lead to, the rows of
a message have distinct numbers, and History lists them in the order in which they were
appended. -/
theorem history_in_append_order (trace : List (LogStep cfg)) (l : Logged cfg)
    (run : (logSystem cfg).run Logged.empty trace = some l) :
    l.log.map Prod.fst = l.store.history ∧ (l.log.Pairwise fun a b => a.2 < b.2) ∧
    ∀ id, ((ofMessage l.store.history id).map HistoryRow.seq).Nodup ∧
      ∀ scan, history l.store scan (.uuid id) =
        .ok ((l.log.filter fun e => e.1.messageID = id).map fun e => scanTransition e.1) := by
  have numbered : Numbered l := by
    refine System.run_invariant Numbered ?_ run Logged.empty_numbered
    intro l step next numbered stepped
    cases stepped
    exact l.step_numbered step numbered
  refine ⟨numbered.rows,numbered.ascending,fun id => ⟨numbered.ordered.distinct id,fun scan => ?_⟩⟩
  change Except.ok ((historySQL l.store.history scan id).map scanTransition) = _
  rw [numbered.ordered.listed, ofMessage, ← numbered.rows, List.filter_map, List.map_map]
  rfl

/-- A clock that went back lets a purge take the second row before the first; the third append
takes its number again. -/
def numberReused : List (LogStep ⟨false, .full⟩) :=
  [.append 5 7 none .handling 1 "" "w", .append 1 7 none .handling 2 "" "w",
    .request (.purgeHistory (Scan.physical HistoryRow) 3 0), .append 6 7 none .handling 3 "" "w"]

theorem history_in_append_order_reused :
    ∃ l, (logSystem ⟨false, .full⟩).run Logged.empty numberReused = some l ∧
      l.log.map (fun e => (e.1.attempt, e.1.seq, e.2)) = [(1, 1, 0), (3, 2, 2)] ∧
      history l.store (Scan.physical HistoryRow) (.uuid 7) =
        .ok ((l.log.filter fun e => e.1.messageID = 7).map fun e => scanTransition e.1) := by
  refine ⟨_,rfl,by decide +kernel,?_⟩
  exact ((history_in_append_order numberReused _ rfl).2.2 7).2 _

end Tickr.Postgres
