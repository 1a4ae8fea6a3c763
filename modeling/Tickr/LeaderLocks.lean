import Mathlib.Data.List.Nodup
import Mathlib.Data.List.Perm.Subperm
import Tickr.Message
import Tickr.SessionLocks
import Tickr.Transition

/-! Leader election of the PostgreSQL and MySQL adapters. The lock belongs to the session of a
pooled connection, which TryLeaderLock keeps until its unlock function runs; the statements of
the pass in between take further connections out of the same pool. Any number of processes,
each with its own pool, runs any number of passes and other statements against one server. -/
namespace Tickr.Leader

open SessionLocks Transition

/-- A connection of a pool, and the session behind it. -/
structure Conn where
  pool : Nat
  serial : Nat
  deriving DecidableEq, Repr

/-- Where a pass over a leader key stands (waiting for its first connection, waiting for the
answer to its lock query, leading between two statements, waiting for a connection for the
next one, running it), or a statement that needs no lock (queued, running). -/
inductive TaskPhase where
  | acquiring (key : String)
  | asking (key : String) (conn : Conn)
  | leading (key : String) (conn : Conn)
  | waiting (key : String) (conn : Conn)
  | working (key : String) (conn own : Conn)
  | queued
  | running (own : Conn)
  | ended
  deriving DecidableEq, Repr

/-- The connections that it has not given back. -/
def TaskPhase.conns : TaskPhase → List Conn
  | .asking _ conn | .leading _ conn | .waiting _ conn => [conn]
  | .working _ conn own => [conn, own]
  | .running own => [own]
  | .acquiring _ | .queued | .ended => []

/-- The key that TryLeaderLock has returned true for, and its connection. -/
def TaskPhase.leads : TaskPhase → Option (String × Conn)
  | .leading key conn | .waiting key conn | .working key conn _ => some (key, conn)
  | _ => none

/-- The key of a pass that has not ended. -/
def TaskPhase.key : TaskPhase → Option String
  | .acquiring key | .asking key _ | .leading key _ | .waiting key _ | .working key _ _ => some key
  | .queued | .running _ | .ended => none

/-- The pool hands out a connection. -/
def TaskPhase.given (conn : Conn) : TaskPhase → Option TaskPhase
  | .acquiring key => some (.asking key conn)
  | .waiting key held => some (.working key held conn)
  | .queued => some (.running conn)
  | _ => none

/-- The context ends while the pool has none to hand out. -/
def TaskPhase.denied : TaskPhase → Option TaskPhase
  | .acquiring _ | .queued => some .ended
  | .waiting key held => some (.leading key held)
  | _ => none

structure Task where
  pool : Nat
  phase : TaskPhase
  deriving DecidableEq, Repr

/-- `pooled` are the connections that count towards the size of their pool, `idle` those of
them that nobody has borrowed, `lost` the sessions that the server has ended. -/
structure Cluster (κ : Type) where
  opened : Nat
  pooled : List Conn
  idle : List Conn
  tasks : List Task
  locks : Locks Conn κ
  lost : List Conn

def Cluster.start (κ : Type) : Cluster κ := ⟨0, [], [], [], .none, []⟩

/-- `keep`: the connection goes back to the pool in working order; otherwise the pool closes
it. `granted`: the lock query has failed for the client only. `done`: the server has run the
unlock statement, whose error nobody looks at. -/
inductive Move where
  | reuse (conn : Conn)
  | dial
  | giveUp
  | answer (keep : Bool)
  | garble (granted keep : Bool)
  | issue
  | finish (keep : Bool)
  | unlock (done keep : Bool)
  deriving DecidableEq, Repr

inductive ClusterLabel where
  | tryLeaderLock (pool : Nat) (key : String)
  | submit (pool : Nat)
  | act (i : Nat) (move : Move)
  | lose (conn : Conn)
  | discard (conn : Conn)
  deriving DecidableEq, Repr

section
variable {κ : Type}

def Cluster.settle (s : Cluster κ) (i : Nat) (t : Task) (phase : TaskPhase) : Cluster κ :=
  { s with tasks := s.tasks.set i { t with phase } }

def Cluster.release (s : Cluster κ) (conn : Conn) (keep : Bool) : Cluster κ :=
  if keep then { s with idle := conn :: s.idle } else { s with pooled := s.pooled.erase conn }

def Cluster.inPool (s : Cluster κ) (pool : Nat) : List Conn := s.pooled.filter fun c => c.pool = pool

variable [DecidableEq κ] (lockKey : String → κ) (size : Nat → Nat)

/-- What the task `t` at `i` does next. -/
def Cluster.act (s : Cluster κ) (i : Nat) (t : Task) : Move → Option (Cluster κ)
  | .reuse conn =>
    if conn ∈ s.idle ∧ conn.pool = t.pool then
      (t.phase.given conn).map ({ s with idle := s.idle.erase conn }.settle i t)
    else none
  | .dial =>
    if (s.inPool t.pool).length < size t.pool then
      (t.phase.given ⟨t.pool, s.opened⟩).map
        ({ s with opened := s.opened + 1, pooled := ⟨t.pool, s.opened⟩ :: s.pooled }.settle i t)
    else none
  | .giveUp => t.phase.denied.map (s.settle i t)
  | .answer keep =>
    match t.phase with
    | .asking key conn =>
      if conn ∈ s.lost then none
      else match s.locks.tryLock conn (lockKey key) with
        | some locks => some ({ s with locks }.settle i t (.leading key conn))
        | none => some ((s.release conn keep).settle i t .ended)
    | _ => none
  | .garble granted keep =>
    match t.phase with
    | .asking key conn =>
      if granted then
        if conn ∈ s.lost then none
        else (s.locks.tryLock conn (lockKey key)).map fun locks =>
          ({ s with locks }.release conn keep).settle i t .ended
      else some ((s.release conn keep).settle i t .ended)
    | _ => none
  | .issue =>
    match t.phase with
    | .leading key conn => some (s.settle i t (.waiting key conn))
    | _ => none
  | .finish keep =>
    match t.phase with
    | .working key conn own => some ((s.release own keep).settle i t (.leading key conn))
    | .running own => some ((s.release own keep).settle i t .ended)
    | _ => none
  | .unlock done keep =>
    match t.phase with
    | .leading key conn =>
      if done then
        if conn ∈ s.lost then none
        else some (({ s with locks := s.locks.unlock conn (lockKey key) }.release conn keep).settle i t .ended)
      else some ((s.release conn keep).settle i t .ended)
    | _ => none

/-- The server may end a session at any time, the pool may close an idle connection. -/
def Cluster.step (s : Cluster κ) : ClusterLabel → Option (Cluster κ)
  | .tryLeaderLock pool key => some { s with tasks := s.tasks ++ [⟨pool, .acquiring key⟩] }
  | .submit pool => some { s with tasks := s.tasks ++ [⟨pool, .queued⟩] }
  | .act i move => s.tasks[i]?.bind fun t => s.act lockKey size i t move
  | .lose conn =>
    if conn.serial < s.opened then
      some { s with locks := s.locks.endSession conn, lost := conn :: s.lost }
    else none
  | .discard conn =>
    if conn ∈ s.idle then
      some { s with
        pooled := s.pooled.erase conn
        idle := s.idle.erase conn
        locks := s.locks.endSession conn
        lost := conn :: s.lost }
    else none

def clusterSystem : System (Cluster κ) ClusterLabel := ⟨Cluster.step lockKey size⟩

end

/-! ### The lock names -/

/-- The keys of `tryReclaim`, `tryPurge` and `sampleStats`. -/
def leaderKeys : List String := ["tickr.reclaimer", "tickr.janitor", "tickr.stats"]

/-- FNV-1a over 64 bits. -/
def fnv64a (bytes : List UInt8) : UInt64 :=
  bytes.foldl (fun h b => (h ^^^ b.toUInt64) * 1099511628211) 14695981039346656037

/-- The argument of pg_try_advisory_lock. -/
def postgresLockKey (key : String) : Int := (fnv64a (key.toList.flatMap String.utf8EncodeChar)).toInt64.toInt

/-- The argument of GET_LOCK. -/
def mysqlLockKey (key : String) : String := "tickr:" ++ key

example : fnv64a [0x61] = 0xaf63dc4c8601ec8c := by decide

theorem postgresLockKey_nodup : (leaderKeys.map postgresLockKey).Nodup := by decide

theorem mysqlLockKey_nodup : (leaderKeys.map mysqlLockKey).Nodup := by decide

/-! ### Connections -/

theorem TaskPhase.given_spec {conn : Conn} {phase next : TaskPhase} (given : phase.given conn = some next) :
    next.conns = phase.conns ++ [conn] ∧ next.leads = phase.leads ∧ next.key = phase.key := by
  cases phase <;> cases given <;> exact ⟨rfl,rfl,rfl⟩

theorem TaskPhase.denied_spec {phase next : TaskPhase} (denied : phase.denied = some next) :
    next.conns = phase.conns ∧ next.leads = phase.leads ∧ ∀ key, next.key = some key → phase.key = some key := by
  cases phase <;> cases denied <;> exact ⟨rfl,rfl,by simp [TaskPhase.key]⟩

theorem TaskPhase.leads_mem {phase : TaskPhase} {key : String} {conn : Conn} (leads : phase.leads = some (key, conn)) :
    conn ∈ phase.conns := by
  cases phase <;> cases leads <;> simp [TaskPhase.conns]

theorem TaskPhase.leads_key {phase : TaskPhase} {key : String} {conn : Conn} (leads : phase.leads = some (key, conn)) :
    phase.key = some key := by
  cases phase <;> cases leads <;> rfl

section
variable {κ : Type} {lockKey : String → κ} {size : Nat → Nat} {s next : Cluster κ}

theorem Cluster.release_frame (s : Cluster κ) (conn : Conn) (keep : Bool) :
    (s.release conn keep).tasks = s.tasks ∧ (s.release conn keep).lost = s.lost ∧
    (s.release conn keep).locks = s.locks ∧ (s.release conn keep).opened = s.opened := by
  cases keep <;> exact ⟨rfl,rfl,rfl,rfl⟩

/-- The places of a connection: nobody's or a task's. -/
def Cluster.places (s : Cluster κ) (c : Conn) : Nat :=
  s.idle.count c + total (fun t => t.phase.conns.count c) s.tasks

/-- Every connection that the pools count is in exactly one place, and it is in its own pool. -/
structure Balanced (s : Cluster κ) : Prop where
  counted : ∀ c, s.pooled.count c = s.places c
  distinct : s.pooled.Nodup
  opened : ∀ c ∈ s.pooled, c.serial < s.opened
  tagged : ∀ t ∈ s.tasks, ∀ c ∈ t.phase.conns, c.pool = t.pool

theorem Balanced.start : Balanced (Cluster.start κ) :=
  ⟨fun _ => rfl,.nil,fun _ impossible => absurd impossible List.not_mem_nil,
    fun _ impossible => absurd impossible List.not_mem_nil⟩

theorem Balanced.pooled {t : Task} {i : Nat} {c : Conn} (balanced : Balanced s) (at_ : s.tasks[i]? = some t)
    (owns : c ∈ t.phase.conns) : c ∈ s.pooled := by
  have here := total_eraseIdx (fun t => t.phase.conns.count c) at_
  have owned := List.count_pos_iff.mpr owns
  have counted := balanced.counted c
  unfold Cluster.places at counted
  exact List.count_pos_iff.mp (by omega)

/-- No two tasks have the same connection. -/
theorem Balanced.owner {t u : Task} {i j : Nat} {c : Conn} (balanced : Balanced s) (first : s.tasks[i]? = some t)
    (second : s.tasks[j]? = some u) (left : c ∈ t.phase.conns) (right : c ∈ u.phase.conns) : i = j := by
  by_contra apart
  have both := total_pair (fun t => t.phase.conns.count c) first second apart
  have one := List.count_pos_iff.mpr left
  have other := List.count_pos_iff.mpr right
  have single := List.nodup_iff_count_le_one.mp balanced.distinct c
  have counted := balanced.counted c
  unfold Cluster.places at counted
  omega

/-- A task goes on in `phase`, and the connections that it gains or gives up are booked. -/
theorem Balanced.settle {t : Task} {i : Nat} {phase : TaskPhase} (balanced : Balanced s)
    (at_ : s.tasks[i]? = some t) (moved : next.tasks = s.tasks.set i { t with phase })
    (booked : ∀ c, next.pooled.count c + s.idle.count c + t.phase.conns.count c =
      s.pooled.count c + next.idle.count c + phase.conns.count c)
    (distinct : next.pooled.Nodup) (opened : ∀ c ∈ next.pooled, c.serial < next.opened)
    (tagged : ∀ c ∈ phase.conns, c ∈ t.phase.conns ∨ c.pool = t.pool) : Balanced next := by
  refine ⟨fun c => ?_,distinct,opened,fun u member c owns => ?_⟩
  · have tasks : total (fun u => u.phase.conns.count c) (s.tasks.set i { t with phase }) + t.phase.conns.count c =
        total (fun u => u.phase.conns.count c) s.tasks + phase.conns.count c := total_set _ at_ _
    have counted := balanced.counted c
    have entry := booked c
    simp only [Cluster.places, moved] at counted ⊢
    omega
  · rw [moved] at member
    rcases List.mem_or_eq_of_mem_set member with old | rfl
    · exact balanced.tagged u old c owns
    · rcases tagged c owns with old | new
      · exact balanced.tagged t (List.mem_of_getElem? at_) c old
      · exact new

/-- A task goes on with the connections that it has. -/
theorem Balanced.stay {t : Task} {i : Nat} {phase : TaskPhase} {locks : Locks Conn κ} (balanced : Balanced s)
    (at_ : s.tasks[i]? = some t) (same : phase.conns = t.phase.conns) :
    Balanced ({ s with locks }.settle i t phase) := by
  refine balanced.settle at_ rfl (fun c => ?_) balanced.distinct balanced.opened (fun c owns => Or.inl (same ▸ owns))
  simp only [Cluster.settle, same]

theorem Balanced.reuse {t : Task} {i : Nat} {conn : Conn} {phase : TaskPhase} (balanced : Balanced s)
    (at_ : s.tasks[i]? = some t) (idle : conn ∈ s.idle) (own : conn.pool = t.pool)
    (given : phase.conns = t.phase.conns ++ [conn]) :
    Balanced ({ s with idle := s.idle.erase conn }.settle i t phase) := by
  refine balanced.settle at_ rfl (fun c => ?_) balanced.distinct balanced.opened ?_
  · have present := List.count_pos_iff.mpr idle
    simp only [Cluster.settle, given, List.count_append, List.count_erase, List.count_singleton, beq_iff_eq]
    by_cases same : conn = c
    · subst same
      simp only [if_true]
      omega
    · simp only [same, if_false]
      omega
  · intro c member
    rw [given] at member
    exact (List.mem_append.mp member).imp_right fun new => by rw [List.mem_singleton.mp new, own]

theorem Balanced.dial {t : Task} {i : Nat} {phase : TaskPhase} (balanced : Balanced s)
    (at_ : s.tasks[i]? = some t) (given : phase.conns = t.phase.conns ++ [⟨t.pool, s.opened⟩]) :
    Balanced ({ s with opened := s.opened + 1, pooled := ⟨t.pool, s.opened⟩ :: s.pooled }.settle i t phase) := by
  refine balanced.settle at_ rfl (fun c => ?_) (List.nodup_cons.mpr ⟨fun old => ?_,balanced.distinct⟩) ?_ ?_
  · simp only [Cluster.settle, given, List.count_append, List.count_cons, List.count_nil]
    omega
  · exact absurd (balanced.opened _ old) (Nat.lt_irrefl _)
  · intro c member
    rcases List.mem_cons.mp member with rfl | old
    · exact Nat.lt_succ_self _
    · exact Nat.lt_succ_of_lt (balanced.opened c old)
  · intro c member
    rw [given] at member
    exact (List.mem_append.mp member).imp_right fun new => by rw [List.mem_singleton.mp new]

theorem Balanced.release {t : Task} {i : Nat} {conn : Conn} {phase : TaskPhase} (balanced : Balanced s)
    (at_ : s.tasks[i]? = some t) (locks : Locks Conn κ) (keep : Bool)
    (gives : t.phase.conns = phase.conns ++ [conn]) :
    Balanced (({ s with locks }.release conn keep).settle i t phase) := by
  have tagged : ∀ c ∈ phase.conns, c ∈ t.phase.conns ∨ c.pool = t.pool :=
    fun c member => Or.inl (gives ▸ List.mem_append_left _ member)
  have present := List.count_pos_iff.mpr (balanced.pooled at_ (gives ▸ List.mem_append_right _ List.mem_cons_self))
  cases keep with
  | true =>
    refine balanced.settle at_ rfl (fun c => ?_) balanced.distinct balanced.opened tagged
    simp only [Cluster.settle, Cluster.release, if_true, gives, List.count_append, List.count_cons, List.count_nil]
    omega
  | false =>
    refine balanced.settle at_ rfl (fun c => ?_) (balanced.distinct.erase conn)
      (fun c member => balanced.opened c (List.mem_of_mem_erase member)) tagged
    simp only [Cluster.settle, Cluster.release, gives, List.count_append, List.count_erase, List.count_singleton,
      beq_iff_eq, Bool.false_eq_true, if_false]
    by_cases same : conn = c
    · subst same
      simp only [if_true]
      omega
    · simp only [same, if_false]
      omega

theorem Balanced.join (balanced : Balanced s) {t : Task} (bare : t.phase.conns = []) :
    Balanced { s with tasks := s.tasks ++ [t] } := by
  refine ⟨fun c => ?_,balanced.distinct,balanced.opened,fun u member => ?_⟩
  · have counted := balanced.counted c
    simpa [Cluster.places, total_append, total, bare] using counted
  · rcases List.mem_append.mp member with old | new
    · exact balanced.tagged u old
    · rw [List.mem_singleton.mp new, bare]
      exact fun c impossible => absurd impossible List.not_mem_nil

theorem Balanced.discard (balanced : Balanced s) {conn : Conn} (idle : conn ∈ s.idle) (locks : Locks Conn κ)
    (lost : List Conn) :
    Balanced { s with pooled := s.pooled.erase conn, idle := s.idle.erase conn, locks, lost } := by
  refine ⟨fun c => ?_,balanced.distinct.erase conn,
    fun c member => balanced.opened c (List.mem_of_mem_erase member),balanced.tagged⟩
  have counted := balanced.counted c
  have present := List.count_pos_iff.mpr idle
  simp only [Cluster.places, List.count_erase, beq_iff_eq] at counted ⊢
  by_cases same : conn = c
  · subst same
    simp only [if_true]
    omega
  · simp only [same, if_false]
    omega

theorem Balanced.placed (balanced : Balanced s) : s.pooled.Perm (s.idle ++ s.tasks.flatMap fun t => t.phase.conns) := by
  rw [List.perm_iff_count]
  intro c
  have tasks : ∀ l : List Task, (l.flatMap fun t => t.phase.conns).count c = total (fun t => t.phase.conns.count c) l := by
    intro l
    induction l with
    | nil => rfl
    | cons t rest ih => rw [List.flatMap_cons, List.count_append, ih, total]
  rw [balanced.counted, List.count_append, tasks, Cluster.places]

/-! ### Locks -/

/-- The lock of a leader is with its session, for as long as the session lasts. -/
structure Held (lockKey : String → κ) (s : Cluster κ) : Prop where
  leader : ∀ (i : Nat) (t : Task) key conn, s.tasks[i]? = some t → t.phase.leads = some (key, conn) → conn ∉ s.lost →
    s.locks.Holds conn (lockKey key)
  alive : ∀ conn k, s.locks.Holds conn k → conn ∉ s.lost

theorem Held.start : Held lockKey (Cluster.start κ) where
  leader _ _ _ _ impossible := by simp [Cluster.start] at impossible
  alive _ _ impossible := absurd impossible Locks.holds_none

/-- One task goes on; the sessions of the others keep their locks. -/
theorem Held.settle {t : Task} {i : Nat} {phase : TaskPhase} (held : Held lockKey s)
    (moved : next.tasks = s.tasks.set i { t with phase }) (lost : next.lost = s.lost)
    (others : ∀ (j : Nat) (u : Task) key conn, j ≠ i → s.tasks[j]? = some u → u.phase.leads = some (key, conn) →
      s.locks.Holds conn (lockKey key) → next.locks.Holds conn (lockKey key))
    (own : ∀ key conn, phase.leads = some (key, conn) → conn ∉ s.lost → next.locks.Holds conn (lockKey key))
    (origin : ∀ conn k, next.locks.Holds conn k → s.locks.Holds conn k ∨ conn ∉ s.lost) :
    Held lockKey next := by
  refine ⟨fun j u key conn at_ leads live => ?_,fun conn k holds => ?_⟩
  · rw [lost] at live
    rw [moved, List.getElem?_set] at at_
    split at at_
    · split at at_
      · cases at_
        exact own key conn leads live
      · cases at_
    · rename_i other
      exact others j u key conn (Ne.symm other) at_ leads (held.leader j u key conn at_ leads live)
  · rw [lost]
    rcases origin conn k holds with old | alive
    · exact held.alive conn k old
    · exact alive

/-- The locks do not change, and neither does what the task leads. -/
theorem Held.stay {t : Task} {i : Nat} {phase : TaskPhase} (held : Held lockKey s) (at_ : s.tasks[i]? = some t)
    (moved : next.tasks = s.tasks.set i { t with phase }) (lost : next.lost = s.lost) (locks : next.locks = s.locks)
    (same : phase.leads = t.phase.leads) : Held lockKey next := by
  refine held.settle moved lost ?_ ?_ ?_
  · intro j u key conn _ _ _ holds
    rwa [locks]
  · intro key conn leads live
    rw [locks]
    exact held.leader i t key conn at_ (same ▸ leads) live
  · intro conn k holds
    exact Or.inl (locks ▸ holds)

theorem Held.ended {conn : Conn} (held : Held lockKey s)
    (frame : next.tasks = s.tasks ∧ next.locks = s.locks.endSession conn ∧ next.lost = conn :: s.lost) :
    Held lockKey next := by
  obtain ⟨tasks,locks,lost⟩ := frame
  refine ⟨fun j u key c at_ leads live => ?_,fun c k holds => ?_⟩
  · rw [lost] at live
    rw [locks, Locks.holds_endSession]
    obtain ⟨other,live⟩ := List.ne_and_not_mem_of_not_mem_cons live
    exact ⟨held.leader j u key c (tasks ▸ at_) leads live,other⟩
  · rw [locks, Locks.holds_endSession] at holds
    rw [lost]
    exact List.not_mem_cons_of_ne_of_not_mem holds.2 (held.alive c k holds.1)

theorem Held.join {t : Task} (held : Held lockKey s) (bare : t.phase.leads = none) :
    Held lockKey { s with tasks := s.tasks ++ [t] } := by
  refine ⟨fun j u key conn at_ leads live => ?_,held.alive⟩
  rcases List.mem_append.mp (List.mem_of_getElem? at_) with old | new
  · obtain ⟨k,found⟩ := List.mem_iff_getElem?.mp old
    exact held.leader k u key conn found leads live
  · rw [List.mem_singleton.mp new, bare] at leads
    cases leads

/-- No pool grows beyond its size. -/
def Within (size : Nat → Nat) (s : Cluster κ) : Prop := ∀ pool, (s.inPool pool).length ≤ size pool

theorem Within.shrink (within : Within size s) (fewer : next.pooled.Sublist s.pooled) : Within size next :=
  fun pool => Nat.le_trans (fewer.filter _).length_le (within pool)

/-- What the connections and the locks are like in every reachable state. -/
structure Sound (lockKey : String → κ) (size : Nat → Nat) (s : Cluster κ) : Prop where
  balanced : Balanced s
  held : Held lockKey s
  within : Within size s

theorem Sound.start : Sound lockKey size (Cluster.start κ) := ⟨.start,.start,fun _ => Nat.zero_le _⟩

/-- Both sessions are there, and both tasks have been told that they lead under one lock. -/
def Conflict (lockKey : String → κ) (lost : List Conn) (t u : Task) : Prop :=
  ∃ key conn key' conn', t.phase.leads = some (key, conn) ∧ u.phase.leads = some (key', conn') ∧
    conn ∉ lost ∧ conn' ∉ lost ∧ lockKey key = lockKey key'

theorem Sound.oneLeader (sound : Sound lockKey size s) :
    s.tasks.Pairwise fun t u => ¬Conflict lockKey s.lost t u := by
  rw [List.pairwise_iff_getElem]
  rintro i j first second before ⟨key,conn,key',conn',leads,leads',live,live',same⟩
  have here := List.getElem?_eq_getElem first
  have there := List.getElem?_eq_getElem second
  have holds := sound.held.leader i _ key conn here leads live
  have holds' := sound.held.leader j _ key' conn' there leads' live'
  rw [← same] at holds'
  have one := holds.unique holds'
  have owner := sound.balanced.owner here there (TaskPhase.leads_mem leads) (one ▸ TaskPhase.leads_mem leads')
  omega

end

/-! ### What one step does -/

section
variable {κ : Type} [DecidableEq κ]

/-- A task that gives its last connection back, and what this does to the locks. -/
inductive Quits (lockKey : String → κ) (s : Cluster κ) (conn : Conn) : TaskPhase → Move → Locks Conn κ → Prop where
  | refused : s.locks.tryLock conn (lockKey key) = none → Quits lockKey s conn (.asking key conn) (.answer keep) s.locks
  | failed : Quits lockKey s conn (.asking key conn) (.garble false keep) s.locks
  | granted : conn ∉ s.lost → s.locks.tryLock conn (lockKey key) = some locks →
      Quits lockKey s conn (.asking key conn) (.garble true keep) locks
  | finished : Quits lockKey s conn (.running conn) (.finish keep) s.locks
  | unlocked : conn ∉ s.lost → Quits lockKey s conn (.leading key conn) (.unlock true keep)
      (s.locks.unlock conn (lockKey key))
  | abandoned : Quits lockKey s conn (.leading key conn) (.unlock false keep) s.locks

/-- One constructor for each thing that a step can do. -/
inductive ClusterStep (lockKey : String → κ) (size : Nat → Nat) (s : Cluster κ) :
    ClusterLabel → Cluster κ → Prop where
  | begin : ClusterStep lockKey size s (.tryLeaderLock pool key)
      { s with tasks := s.tasks ++ [⟨pool, .acquiring key⟩] }
  | submit : ClusterStep lockKey size s (.submit pool) { s with tasks := s.tasks ++ [⟨pool, .queued⟩] }
  | reuse : s.tasks[i]? = some t → conn ∈ s.idle → conn.pool = t.pool → t.phase.given conn = some phase →
      ClusterStep lockKey size s (.act i (.reuse conn)) ({ s with idle := s.idle.erase conn }.settle i t phase)
  | dial : s.tasks[i]? = some t → (s.inPool t.pool).length < size t.pool →
      t.phase.given ⟨t.pool, s.opened⟩ = some phase →
      ClusterStep lockKey size s (.act i .dial)
        ({ s with opened := s.opened + 1, pooled := ⟨t.pool, s.opened⟩ :: s.pooled }.settle i t phase)
  | giveUp : s.tasks[i]? = some t → t.phase.denied = some phase →
      ClusterStep lockKey size s (.act i .giveUp) (s.settle i t phase)
  | lead : s.tasks[i]? = some t → t.phase = .asking key conn → conn ∉ s.lost →
      s.locks.tryLock conn (lockKey key) = some locks →
      ClusterStep lockKey size s (.act i (.answer keep)) ({ s with locks }.settle i t (.leading key conn))
  | issue : s.tasks[i]? = some t → t.phase = .leading key conn →
      ClusterStep lockKey size s (.act i .issue) (s.settle i t (.waiting key conn))
  | finish : s.tasks[i]? = some t → t.phase = .working key conn own →
      ClusterStep lockKey size s (.act i (.finish keep)) ((s.release own keep).settle i t (.leading key conn))
  | quit : s.tasks[i]? = some t → Quits lockKey s conn t.phase move locks →
      ClusterStep lockKey size s (.act i move) (({ s with locks }.release conn keep).settle i t .ended)
  | lose : conn.serial < s.opened →
      ClusterStep lockKey size s (.lose conn)
        { s with locks := s.locks.endSession conn, lost := conn :: s.lost }
  | discard : conn ∈ s.idle →
      ClusterStep lockKey size s (.discard conn)
        { s with pooled := s.pooled.erase conn, idle := s.idle.erase conn, locks := s.locks.endSession conn,
                 lost := conn :: s.lost }

variable {lockKey : String → κ} {size : Nat → Nat} {s next : Cluster κ}

theorem Quits.conns {conn : Conn} {phase : TaskPhase} {move : Move} {locks : Locks Conn κ}
    (quits : Quits lockKey s conn phase move locks) : phase.conns = [conn] := by
  cases quits <;> rfl

/-- The locks of other sessions stay. -/
theorem Quits.others {conn c : Conn} {k : κ} {phase : TaskPhase} {move : Move} {locks : Locks Conn κ}
    (quits : Quits lockKey s conn phase move locks) (holds : s.locks.Holds c k) (other : c ≠ conn) :
    locks.Holds c k := by
  cases quits with
  | refused | failed | finished | abandoned => exact holds
  | granted _ taken => exact (Locks.holds_tryLock taken).mpr (Or.inr holds)
  | unlocked => exact holds.unlock other

/-- A lock that is there afterwards was there before, or the session got it just now. -/
theorem Quits.origin {conn c : Conn} {k : κ} {phase : TaskPhase} {move : Move} {locks : Locks Conn κ}
    (quits : Quits lockKey s conn phase move locks) (holds : locks.Holds c k) :
    s.locks.Holds c k ∨ c ∉ s.lost := by
  cases quits with
  | refused | failed | finished | abandoned => exact Or.inl holds
  | granted alive taken =>
    rcases (Locks.holds_tryLock taken).mp holds with ⟨rfl,_⟩ | old
    · exact Or.inr alive
    · exact Or.inl old
  | unlocked => exact Or.inl holds.of_unlock

theorem Cluster.act_cases {i : Nat} {t : Task} {move : Move} (at_ : s.tasks[i]? = some t)
    (acts : s.act lockKey size i t move = some next) : ClusterStep lockKey size s (.act i move) next := by
  cases move with
  | reuse conn =>
    simp only [Cluster.act] at acts
    split at acts
    · obtain ⟨phase,given,rfl⟩ := Option.map_eq_some_iff.mp acts
      exact .reuse at_ (‹_ ∧ _›).1 (‹_ ∧ _›).2 given
    · cases acts
  | dial =>
    simp only [Cluster.act] at acts
    split at acts
    · obtain ⟨phase,given,rfl⟩ := Option.map_eq_some_iff.mp acts
      exact .dial at_ ‹_› given
    · cases acts
  | giveUp =>
    obtain ⟨phase,denied,rfl⟩ := Option.map_eq_some_iff.mp acts
    exact .giveUp at_ denied
  | answer keep =>
    simp only [Cluster.act] at acts
    split at acts
    · rename_i key conn asking
      split at acts
      · cases acts
      · split at acts
        · cases acts
          exact .lead at_ asking ‹_› ‹_›
        · cases acts
          exact .quit at_ (asking ▸ .refused ‹_›)
    · cases acts
  | garble granted keep =>
    simp only [Cluster.act] at acts
    split at acts
    · rename_i key conn asking
      cases granted with
      | false =>
        cases acts
        exact .quit at_ (asking ▸ .failed)
      | true =>
        simp only [if_true] at acts
        split at acts
        · cases acts
        · obtain ⟨locks,taken,rfl⟩ := Option.map_eq_some_iff.mp acts
          exact .quit at_ (asking ▸ .granted ‹_› taken)
    · cases acts
  | issue =>
    simp only [Cluster.act] at acts
    split at acts
    · cases acts
      exact .issue at_ ‹_›
    · cases acts
  | finish keep =>
    simp only [Cluster.act] at acts
    split at acts
    · cases acts
      exact .finish at_ ‹_›
    · rename_i own running
      cases acts
      exact .quit at_ (running ▸ .finished)
    · cases acts
  | unlock done keep =>
    simp only [Cluster.act] at acts
    split at acts
    · rename_i key conn leading
      cases done with
      | false =>
        cases acts
        exact .quit at_ (leading ▸ .abandoned)
      | true =>
        simp only [if_true] at acts
        split at acts
        · cases acts
        · cases acts
          exact .quit at_ (leading ▸ .unlocked ‹_›)
    · cases acts

theorem Cluster.step_cases {label : ClusterLabel} (step : (clusterSystem lockKey size).step s label = some next) :
    ClusterStep lockKey size s label next := by
  cases label with
  | tryLeaderLock pool key => cases step; exact .begin
  | submit pool => cases step; exact .submit
  | act i move =>
    obtain ⟨t,at_,acts⟩ := Option.bind_eq_some_iff.mp step
    exact Cluster.act_cases at_ acts
  | lose conn =>
    simp only [clusterSystem, Cluster.step] at step
    split at step
    · cases step
      exact .lose ‹_›
    · cases step
  | discard conn =>
    simp only [clusterSystem, Cluster.step] at step
    split at step
    · cases step
      exact .discard ‹_›
    · cases step

/-! ### Whole runs -/

theorem Balanced.step {label : ClusterLabel} (balanced : Balanced s) (step : ClusterStep lockKey size s label next) :
    Balanced next := by
  cases step with
  | begin => exact balanced.join rfl
  | submit => exact balanced.join rfl
  | reuse at_ idle own given => exact balanced.reuse at_ idle own (TaskPhase.given_spec given).1
  | dial at_ room given => exact balanced.dial at_ (TaskPhase.given_spec given).1
  | giveUp at_ denied => exact balanced.stay at_ (TaskPhase.denied_spec denied).1
  | lead at_ asking alive taken => exact balanced.stay at_ (by rw [asking]; rfl)
  | issue at_ leading => exact balanced.stay at_ (by rw [leading]; rfl)
  | finish at_ working => exact balanced.release at_ s.locks _ (by rw [working]; rfl)
  | quit at_ quits => exact balanced.release at_ _ _ quits.conns
  | lose => exact ⟨balanced.counted,balanced.distinct,balanced.opened,balanced.tagged⟩
  | discard idle => exact balanced.discard idle _ _

theorem Held.step {label : ClusterLabel} (held : Held lockKey s) (balanced : Balanced s)
    (step : ClusterStep lockKey size s label next) : Held lockKey next := by
  cases step with
  | begin => exact held.join rfl
  | submit => exact held.join rfl
  | reuse at_ _ _ given => exact held.stay at_ rfl rfl rfl (TaskPhase.given_spec given).2.1
  | dial at_ _ given => exact held.stay at_ rfl rfl rfl (TaskPhase.given_spec given).2.1
  | giveUp at_ denied => exact held.stay at_ rfl rfl rfl (TaskPhase.denied_spec denied).2.1
  | issue at_ leading => exact held.stay at_ rfl rfl rfl (by rw [leading]; rfl)
  | @finish i t keep own key conn at_ working =>
    obtain ⟨tasks,lost,locks,_⟩ := s.release_frame own keep
    exact held.stay at_ (by rw [Cluster.settle, tasks]) lost locks (by rw [working]; rfl)
  | lead at_ asking alive taken =>
    refine held.settle rfl rfl ?_ ?_ ?_
    · intro _ _ _ _ _ _ _ holds
      exact (Locks.holds_tryLock taken).mpr (Or.inr holds)
    · rintro _ _ ⟨⟩ _
      exact (Locks.holds_tryLock taken).mpr (Or.inl ⟨rfl,rfl⟩)
    · intro c k holds
      rcases (Locks.holds_tryLock taken).mp holds with ⟨rfl,_⟩ | old
      · exact Or.inr alive
      · exact Or.inl old
  | @quit i t conn move locks keep at_ quits =>
    obtain ⟨tasks,lost,same,_⟩ := Cluster.release_frame { s with locks } conn keep
    refine held.settle (by rw [Cluster.settle, tasks]) lost ?_ ?_ ?_
    · intro j u key c other at_' leads holds
      have kept : locks.Holds c (lockKey key) := by
        refine quits.others holds fun equal => other ?_
        exact balanced.owner at_' at_ (TaskPhase.leads_mem leads) (by rw [quits.conns, equal]; exact List.mem_cons_self)
      rwa [Cluster.settle, same]
    · rintro _ _ ⟨⟩
    · intro c k holds
      rw [Cluster.settle, same] at holds
      exact quits.origin holds
  | lose => exact held.ended ⟨rfl,rfl,rfl⟩
  | discard => exact held.ended ⟨rfl,rfl,rfl⟩

theorem Within.step {label : ClusterLabel} (within : Within size s) (step : ClusterStep lockKey size s label next) :
    Within size next := by
  cases step with
  | begin | submit | reuse | giveUp | lead | issue | lose => exact within
  | @dial i t _ _ room _ =>
    intro pool
    simp only [Cluster.inPool, Cluster.settle, List.filter_cons]
    split
    · rename_i same
      rw [← of_decide_eq_true same]
      exact room
    · exact within pool
  | @finish _ _ keep => cases keep <;> exact within.shrink (by simp [Cluster.release, Cluster.settle, List.erase_sublist])
  | @quit _ _ _ _ _ keep => cases keep <;> exact within.shrink (by simp [Cluster.release, Cluster.settle, List.erase_sublist])
  | discard => exact within.shrink List.erase_sublist

theorem Sound.step {label : ClusterLabel} (sound : Sound lockKey size s) (step : ClusterStep lockKey size s label next) :
    Sound lockKey size next :=
  ⟨sound.balanced.step step,sound.held.step sound.balanced step,sound.within.step step⟩

theorem Sound.run {trace : List ClusterLabel} (run : (clusterSystem lockKey size).run (Cluster.start κ) trace = some s) :
    Sound lockKey size s := by
  refine System.run_invariant (Sound lockKey size) (fun s label next sound step => ?_) run .start
  exact sound.step (Cluster.step_cases step)

structure Elected (lockKey : String → κ) (size : Nat → Nat) (s : Cluster κ) : Prop where
  oneLeader : s.tasks.Pairwise fun t u => ¬Conflict lockKey s.lost t u
  placed : s.pooled.Perm (s.idle ++ s.tasks.flatMap fun t => t.phase.conns)
  distinct : s.pooled.Nodup
  bounded : ∀ pool, (s.inPool pool).length ≤ size pool

/-- Whatever statements fail, whatever sessions are lost and in whatever order the processes
go on: two passes never both lead under one lock while their sessions last, every connection
is idle or with exactly one task that has not ended, and the pools keep to their sizes. -/
theorem leader_lock_elects (lockKey : String → κ) (size : Nat → Nat) (trace : List ClusterLabel) (s : Cluster κ)
    (run : (clusterSystem lockKey size).run (Cluster.start κ) trace = some s) : Elected lockKey size s :=
  have sound := Sound.run run
  ⟨sound.oneLeader,sound.balanced.placed,sound.balanced.distinct,sound.within⟩

end

/-- A worker of pool 0 becomes janitor and keeps another one away; its session is lost, the
next pass of pool 1 takes over, and the old janitor's unlock comes to nothing. -/
def failoverTrace : List ClusterLabel :=
  [.tryLeaderLock 0 "tickr.janitor", .act 0 .dial, .act 0 (.answer true), .tryLeaderLock 1 "tickr.janitor",
   .act 1 .dial, .act 1 (.answer true), .lose ⟨0, 0⟩, .tryLeaderLock 1 "tickr.janitor",
   .act 2 (.reuse ⟨1, 1⟩), .act 2 (.answer true), .act 0 (.unlock false false)]

def afterFailover : Cluster Int where
  opened := 2
  pooled := [⟨1, 1⟩]
  idle := []
  tasks := [⟨0, .ended⟩, ⟨1, .ended⟩, ⟨1, .leading "tickr.janitor" ⟨1, 1⟩⟩]
  locks := Locks.none.grant ⟨1, 1⟩ (postgresLockKey "tickr.janitor") fun _ impossible => absurd impossible List.not_mem_nil
  lost := [⟨0, 0⟩]

theorem leader_lock_elects_failover :
    (clusterSystem postgresLockKey fun _ => 4).run (Cluster.start Int) failoverTrace = some afterFailover ∧
    Elected postgresLockKey (fun _ => 4) afterFailover :=
  have run : (clusterSystem postgresLockKey fun _ => 4).run (Cluster.start Int) failoverTrace = some afterFailover := rfl
  ⟨run,leader_lock_elects postgresLockKey _ failoverTrace afterFailover run⟩

end Tickr.Leader
