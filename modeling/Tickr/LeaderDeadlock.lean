import Mathlib.Data.List.Induction
import Tickr.LeaderProgress

/-! A pool that is no larger than the number of leader keys can block for good: each of its
connections carries the lock of a pass, and each pass waits for one more connection. -/
namespace Tickr.Leader

open SessionLocks Transition

/-- No context ends and no session is lost. Everything else may happen. -/
def Patient : ClusterLabel → Prop
  | .act _ .giveUp | .lose _ => False
  | _ => True

/-- The task cannot go on without the pool. -/
def TaskPhase.Stuck : TaskPhase → Prop
  | .acquiring _ | .waiting _ _ | .queued | .ended => True
  | .asking _ _ | .leading _ _ | .working _ _ _ | .running _ => False

section
variable {κ : Type} {lockKey : String → κ} {size : Nat → Nat} {pool : Nat} {s next : Cluster κ}

/-- The pool has nothing to give away, and whoever has a connection of it waits for another. -/
structure Blocked (size : Nat → Nat) (pool : Nat) (s : Cluster κ) : Prop where
  full : size pool ≤ (s.inPool pool).length
  taken : ∀ c ∈ s.idle, c.pool ≠ pool
  stuck : ∀ t ∈ s.tasks, t.pool = pool → t.phase.Stuck

/-- The tasks of the pool are still where they were. -/
def Unmoved (pool : Nat) (s next : Cluster κ) : Prop :=
  ∀ (i : Nat) (t : Task), s.tasks[i]? = some t → t.pool = pool → next.tasks[i]? = some t

theorem inPool_erase {pooled : List Conn} {conn : Conn} (other : conn.pool ≠ pool) :
    (pooled.erase conn).filter (fun c => c.pool = pool) = pooled.filter fun c => c.pool = pool := by
  rw [← List.erase_filter]
  exact List.erase_of_not_mem fun member => other (of_decide_eq_true (List.mem_filter.mp member).2)

/-- A task of another pool goes on. -/
theorem Blocked.other {t : Task} {i : Nat} {phase : TaskPhase} (blocked : Blocked size pool s)
    (at_ : s.tasks[i]? = some t) (elsewhere : t.pool ≠ pool) (moved : next.tasks = s.tasks.set i { t with phase })
    (pooled : next.inPool pool = s.inPool pool) (taken : ∀ c ∈ next.idle, c.pool ≠ pool) :
    Blocked size pool next ∧ Unmoved pool s next := by
  refine ⟨⟨pooled ▸ blocked.full,taken,fun u member here => ?_⟩,fun j u found here => ?_⟩
  · rw [moved] at member
    rcases List.mem_or_eq_of_mem_set member with old | rfl
    · exact blocked.stuck u old here
    · exact absurd here elsewhere
  · have different : i ≠ j := by
      rintro rfl
      cases at_.symm.trans found
      exact elsewhere here
    rw [moved, List.getElem?_set_ne different, found]

theorem Blocked.join {t : Task} (blocked : Blocked size pool s) (stuck : t.phase.Stuck) :
    Blocked size pool { s with tasks := s.tasks ++ [t] } ∧ Unmoved pool s { s with tasks := s.tasks ++ [t] } := by
  refine ⟨⟨blocked.full,blocked.taken,fun u member here => ?_⟩,fun j u found _ => ?_⟩
  · rcases List.mem_append.mp member with old | new
    · exact blocked.stuck u old here
    · rw [List.mem_singleton.mp new]
      exact stuck
  · rw [List.getElem?_append_left (List.getElem?_eq_some_iff.mp found).1, found]

/-- A task of another pool gives a connection back. -/
theorem Blocked.release {t : Task} {i : Nat} {conn : Conn} {phase : TaskPhase} {locks : Locks Conn κ} {keep : Bool}
    (blocked : Blocked size pool s) (balanced : Balanced s) (at_ : s.tasks[i]? = some t) (owns : conn ∈ t.phase.conns)
    (elsewhere : t.pool ≠ pool) :
    Blocked size pool (({ s with locks }.release conn keep).settle i t phase) ∧
    Unmoved pool s (({ s with locks }.release conn keep).settle i t phase) := by
  have foreign : conn.pool ≠ pool := by
    rw [balanced.tagged t (List.mem_of_getElem? at_) conn owns]
    exact elsewhere
  cases keep with
  | true => exact blocked.other at_ elsewhere rfl rfl (List.forall_mem_cons.mpr ⟨foreign,blocked.taken⟩)
  | false => exact blocked.other at_ elsewhere rfl (inPool_erase foreign) blocked.taken

theorem Blocked.elsewhere {t : Task} {i : Nat} (blocked : Blocked size pool s) (at_ : s.tasks[i]? = some t)
    (goes : ¬t.phase.Stuck) : t.pool ≠ pool :=
  fun here => goes (blocked.stuck t (List.mem_of_getElem? at_) here)

/-- One pass takes its lock over a new connection and issues its first statement. -/
def passTrace (i : Nat) (key : String) : List ClusterLabel :=
  [.tryLeaderLock 0 key, .act i .dial, .act i (.answer true), .act i .issue]

theorem passTrace_patient (i : Nat) (key : String) : ∀ label ∈ passTrace i key, Patient label := by
  simp [passTrace, Patient]

/-- The passes for `keys` have come as far as that, and nothing else has happened. -/
structure Filled (lockKey : String → κ) (keys : List String) (s : Cluster κ) : Prop where
  opened : s.opened = keys.length
  pooled : s.pooled.length = keys.length ∧ ∀ c ∈ s.pooled, c.pool = 0
  idle : s.idle = []
  lost : s.lost = []
  tasks : s.tasks.length = keys.length ∧ ∀ t ∈ s.tasks, ∃ key conn, t = ⟨0, .waiting key conn⟩
  locks : ∀ conn k, s.locks.Holds conn k → k ∈ keys.map lockKey

theorem Filled.start : Filled lockKey [] (Cluster.start κ) where
  opened := rfl
  pooled := ⟨rfl,fun _ impossible => absurd impossible List.not_mem_nil⟩
  idle := rfl
  lost := rfl
  tasks := ⟨rfl,fun _ impossible => absurd impossible List.not_mem_nil⟩
  locks _ _ impossible := absurd impossible Locks.holds_none

theorem Filled.inPool {keys : List String} (filled : Filled lockKey keys s) : s.inPool 0 = s.pooled :=
  List.filter_eq_self.mpr fun c member => decide_eq_true (filled.pooled.2 c member)

end

section
variable {κ : Type} [DecidableEq κ] {lockKey : String → κ} {size : Nat → Nat} {pool : Nat} {s next : Cluster κ}

theorem Blocked.step {label : ClusterLabel} (blocked : Blocked size pool s) (balanced : Balanced s)
    (patient : Patient label) (step : ClusterStep lockKey size s label next) :
    Blocked size pool next ∧ Unmoved pool s next := by
  cases step with
  | begin => exact blocked.join trivial
  | submit => exact blocked.join trivial
  | reuse at_ idle own given =>
    have elsewhere := own ▸ blocked.taken _ idle
    exact blocked.other at_ elsewhere rfl rfl fun c member => blocked.taken c (List.mem_of_mem_erase member)
  | @dial i t phase at_ room given =>
    have elsewhere : t.pool ≠ pool := by
      rintro rfl
      exact absurd blocked.full (Nat.not_le_of_lt room)
    refine blocked.other at_ elsewhere rfl ?_ blocked.taken
    exact List.filter_cons_of_neg (by simpa using elsewhere)
  | giveUp => exact patient.elim
  | lead at_ asking =>
    exact blocked.other at_ (blocked.elsewhere at_ (by rw [asking]; exact id)) rfl rfl blocked.taken
  | issue at_ leading =>
    exact blocked.other at_ (blocked.elsewhere at_ (by rw [leading]; exact id)) rfl rfl blocked.taken
  | finish at_ working =>
    exact blocked.release balanced at_ (by rw [working]; simp [TaskPhase.conns])
      (blocked.elsewhere at_ (by rw [working]; exact id))
  | quit at_ quits =>
    refine blocked.release balanced at_ (by rw [quits.conns]; exact List.mem_cons_self) (blocked.elsewhere at_ ?_)
    generalize Task.phase _ = phase at quits
    cases quits <;> exact id
  | lose => exact patient.elim
  | discard idle =>
    have foreign := blocked.taken _ idle
    refine ⟨⟨?_,fun c member => blocked.taken c (List.mem_of_mem_erase member),blocked.stuck⟩,fun _ _ found _ => found⟩
    rw [Cluster.inPool, inPool_erase foreign]
    exact blocked.full

theorem Blocked.run {trace : List ClusterLabel} {final : Cluster κ} (blocked : Blocked size pool s)
    (sound : Sound lockKey size s) (run : (clusterSystem lockKey size).run s trace = some final)
    (patient : ∀ label ∈ trace, Patient label) : Unmoved pool s final := by
  induction trace generalizing s with
  | nil => cases run; exact fun _ _ found _ => found
  | cons label rest ih =>
    obtain ⟨next,first,later⟩ := System.run_cons.mp run
    obtain ⟨now,then_⟩ := List.forall_mem_cons.mp patient
    have step := Cluster.step_cases first
    obtain ⟨kept,unmoved⟩ := blocked.step sound.balanced now step
    intro i t found here
    exact ih kept (sound.step step) later then_ i t (unmoved i t found here) here

/-! ### How a small pool gets there -/

theorem Filled.pass {keys : List String} {key : String} (filled : Filled lockKey keys s)
    (room : keys.length < size 0) (new : lockKey key ∉ keys.map lockKey) :
    ∃ next, (clusterSystem lockKey size).run s (passTrace keys.length key) = some next ∧
      Filled lockKey (keys ++ [key]) next := by
  have free : s.locks.Free ⟨0, s.opened⟩ (lockKey key) := by
    intro e member same
    exact absurd (same ▸ filled.locks e.1 e.2 member) new
  refine ⟨⟨s.opened + 1, ⟨0, s.opened⟩ :: s.pooled, s.idle, s.tasks ++ [⟨0, .waiting key ⟨0, s.opened⟩⟩],
    s.locks.grant ⟨0, s.opened⟩ (lockKey key) free, s.lost⟩,?_,?_⟩
  · have count : (s.inPool 0).length < size 0 := by rwa [filled.inPool, filled.pooled.1]
    have granted : s.locks.tryLock ⟨0, s.opened⟩ (lockKey key) = some (s.locks.grant ⟨0, s.opened⟩ (lockKey key) free) :=
      dif_pos free
    have alive : (⟨0, s.opened⟩ : Conn) ∉ s.lost := by rw [filled.lost]; exact List.not_mem_nil
    have put (t u : Task) : (s.tasks ++ [t]).set s.tasks.length u = s.tasks ++ [u] := by simp
    rw [← filled.tasks.1]
    simp only [passTrace, System.run, clusterSystem, Cluster.step, Option.bind_some, List.getElem?_concat_length,
      Cluster.act, Cluster.inPool, TaskPhase.given, Option.map_some, Cluster.settle, put] at count ⊢
    rw [if_pos count]
    simp only [Option.bind_some, List.getElem?_concat_length, put, if_neg alive, granted]
  · refine ⟨?_,⟨?_,?_⟩,filled.idle,filled.lost,⟨?_,?_⟩,?_⟩
    · simp [filled.opened]
    · simp [filled.pooled.1]
    · exact List.forall_mem_cons.mpr ⟨rfl,filled.pooled.2⟩
    · simp [filled.tasks.1]
    · intro t member
      rcases List.mem_append.mp member with old | new
      · exact filled.tasks.2 t old
      · exact ⟨_,_,List.mem_singleton.mp new⟩
    · intro conn k holds
      rw [List.map_append, List.mem_append]
      rcases List.mem_cons.mp holds with own | old
      · exact Or.inr (List.mem_singleton.mpr (Prod.mk.inj own).2)
      · exact Or.inl (filled.locks conn k old)

theorem Filled.reached (keys : List String) (apart : (keys.map lockKey).Nodup) (room : keys.length ≤ size 0) :
    ∃ trace s, (clusterSystem lockKey size).run (Cluster.start κ) trace = some s ∧ Filled lockKey keys s ∧
      ∀ label ∈ trace, Patient label := by
  -- the keys come one after the other, so the last one goes to a state that all others have filled
  induction keys using List.reverseRecOn with
  | nil => exact ⟨[],_,rfl,.start,fun _ impossible => absurd impossible List.not_mem_nil⟩
  | append_singleton keys key ih =>
    rw [List.map_append, List.nodup_append] at apart
    rw [List.length_append] at room
    obtain ⟨trace,s,run,filled,patient⟩ := ih apart.1 (Nat.le_of_succ_le room)
    have new : lockKey key ∉ keys.map lockKey := fun member =>
      apart.2.2 _ member _ (List.mem_singleton.mpr rfl) rfl
    obtain ⟨next,passed,filled'⟩ := @Filled.pass _ _ lockKey size _ _ _ filled room new
    refine ⟨trace ++ passTrace keys.length key,next,?_,filled',fun label member => ?_⟩
    · rw [System.run_append, run]
      exact passed
    · rcases List.mem_append.mp member with old | new
      · exact patient label old
      · exact passTrace_patient _ _ label new

/-- A pool that is not larger than the number of keys can get stuck without any fault: each
pass waits for a connection that another pass has, and goes on waiting whatever any process
does, until a context ends or a session is lost. -/
theorem small_pool_deadlocks (lockKey : String → κ) (size : Nat → Nat) (keys : List String)
    (apart : (keys.map lockKey).Nodup) (small : size 0 ≤ keys.length) :
    ∃ trace s, (clusterSystem lockKey size).run (Cluster.start κ) trace = some s ∧
      (∀ label ∈ trace, Patient label) ∧ s.tasks.length = size 0 ∧
      (∀ t ∈ s.tasks, ∃ key conn, t = ⟨0, .waiting key conn⟩) ∧
      ∀ rest final, (clusterSystem lockKey size).run s rest = some final → (∀ label ∈ rest, Patient label) →
        s.tasks <+: final.tasks := by
  have length : (keys.take (size 0)).length = size 0 := List.length_take_of_le small
  have distinct : ((keys.take (size 0)).map lockKey).Nodup :=
    apart.sublist ((List.take_sublist _ _).map _)
  obtain ⟨trace,s,run,filled,patient⟩ := Filled.reached (keys.take (size 0)) distinct (Nat.le_of_eq length)
  have waiting := filled.tasks.2
  refine ⟨trace,s,run,patient,filled.tasks.1.trans length,waiting,fun rest final later calm => ?_⟩
  have blocked : Blocked size 0 s := by
    refine ⟨?_,?_,fun t member _ => ?_⟩
    · exact Nat.le_of_eq (by rw [filled.inPool, filled.pooled.1, length])
    · rw [filled.idle]
      exact fun _ impossible => absurd impossible List.not_mem_nil
    · obtain ⟨key,conn,rfl⟩ := waiting t member
      trivial
  have unmoved := blocked.run (Sound.run run) later calm
  rw [List.prefix_iff_getElem?]
  intro i inside
  refine unmoved i _ (List.getElem?_eq_getElem inside) ?_
  obtain ⟨key,conn,is⟩ := waiting _ (List.getElem_mem inside)
  rw [is]

/-- Three connections for the three background loops. -/
theorem small_pool_deadlocks_background : ∃ trace s,
    (clusterSystem postgresLockKey fun _ => 3).run (Cluster.start Int) trace = some s ∧
    (∀ label ∈ trace, Patient label) ∧ s.tasks.length = 3 ∧
    (∀ t ∈ s.tasks, ∃ key conn, t = ⟨0, .waiting key conn⟩) ∧
    ∀ rest final, (clusterSystem postgresLockKey fun _ => 3).run s rest = some final →
      (∀ label ∈ rest, Patient label) → s.tasks <+: final.tasks :=
  small_pool_deadlocks postgresLockKey (fun _ => 3) leaderKeys postgresLockKey_nodup (Nat.le_refl 3)

end

end Tickr.Leader
