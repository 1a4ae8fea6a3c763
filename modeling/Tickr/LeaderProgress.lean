import Tickr.LeaderLocks

/-! When leader election gets on. A lock that no leader has is free, as long as no grant goes
astray. A leader that waits for a connection may be waiting for another leader that waits too;
a pool that is larger than the number of keys keeps enough connections out of their hands. -/
namespace Tickr.Leader

open SessionLocks Transition

/-! ### The keys in play -/

section
variable {κ : Type} {lockKey : String → κ} {s next : Cluster κ}

/-- Every pass is for one of `keys`. -/
def Named (keys : List String) (s : Cluster κ) : Prop := ∀ t ∈ s.tasks, ∀ key, t.phase.key = some key → key ∈ keys

def NamedLabel (keys : List String) : ClusterLabel → Prop
  | .tryLeaderLock _ key => key ∈ keys
  | _ => True

instance (keys : List String) : ∀ label, Decidable (NamedLabel keys label)
  | .tryLeaderLock _ key => inferInstanceAs (Decidable (key ∈ keys))
  | .submit _ | .act _ _ | .lose _ | .discard _ => isTrue trivial

theorem Named.settle {keys : List String} {t : Task} {i : Nat} {phase : TaskPhase} (named : Named keys s)
    (at_ : s.tasks[i]? = some t) (moved : next.tasks = s.tasks.set i { t with phase })
    (kept : ∀ key, phase.key = some key → t.phase.key = some key) : Named keys next := by
  intro u member key is
  rw [moved] at member
  rcases List.mem_or_eq_of_mem_set member with old | rfl
  · exact named u old key is
  · exact named t (List.mem_of_getElem? at_) key (kept key is)

theorem Named.join {keys : List String} {t : Task} (named : Named keys s)
    (known : ∀ key, t.phase.key = some key → key ∈ keys) : Named keys { s with tasks := s.tasks ++ [t] } := by
  intro u member
  rcases List.mem_append.mp member with old | new
  · exact named u old
  · rw [List.mem_singleton.mp new]
    exact known

/-! ### A free lock -/

/-- No lock is granted to a query that fails for the client, and the unlock statement fails
only where the session is lost. -/
def Clean (s : Cluster κ) : ClusterLabel → Prop
  | .act _ (.garble granted _) => granted = false
  | .act i (.unlock done _) =>
    done = true ∨ (s.tasks[i]?.any fun t => t.phase.leads.any fun l => decide (l.2 ∈ s.lost)) = true
  | _ => True

instance (s : Cluster κ) : ∀ label, Decidable (Clean s label)
  | .act _ (.garble granted _) => inferInstanceAs (Decidable (granted = false))
  | .act _ (.unlock done _) => inferInstanceAs (Decidable (done = true ∨ _))
  | .act _ (.reuse _) | .act _ .dial | .act _ .giveUp | .act _ (.answer _) | .act _ .issue | .act _ (.finish _)
  | .tryLeaderLock _ _ | .submit _ | .lose _ | .discard _ => isTrue trivial

/-- Somebody leads for the key, on a session that lasts. -/
def Cluster.led (s : Cluster κ) (key : String) : Bool :=
  s.tasks.any fun t => t.phase.leads.any fun l => decide (l.1 = key) && decide (l.2 ∉ s.lost)

/-- Every grant is that of a leader, and it was given once. -/
structure Traced (lockKey : String → κ) (s : Cluster κ) : Prop where
  leader : ∀ conn k, s.locks.Holds conn k →
    ∃ (i : Nat) (t : Task) (key : String), s.tasks[i]? = some t ∧ t.phase.leads = some (key, conn) ∧ lockKey key = k
  once : s.locks.entries.Nodup

theorem Cluster.led_iff {key : String} :
    s.led key = true ↔ ∃ t ∈ s.tasks, ∃ conn, conn ∉ s.lost ∧ t.phase.leads = some (key, conn) := by
  simp only [Cluster.led, List.any_eq_true, Option.any_eq_true]
  constructor
  · rintro ⟨t,member,⟨_,conn⟩,leads,is⟩
    obtain ⟨rfl,live⟩ := (Bool.and_eq_true_iff.mp is).imp of_decide_eq_true of_decide_eq_true
    exact ⟨t,member,conn,live,leads⟩
  · rintro ⟨t,member,conn,live,leads⟩
    exact ⟨t,member,(key, conn),leads,by simp [live]⟩

theorem Traced.start : Traced lockKey (Cluster.start κ) :=
  ⟨fun _ _ impossible => absurd impossible Locks.holds_none,.nil⟩

theorem Traced.settle {t : Task} {i : Nat} {phase : TaskPhase} (traced : Traced lockKey s)
    (at_ : s.tasks[i]? = some t) (moved : next.tasks = s.tasks.set i { t with phase })
    (own : ∀ key conn, t.phase.leads = some (key, conn) → next.locks.Holds conn (lockKey key) →
      phase.leads = some (key, conn))
    (origin : ∀ conn k, next.locks.Holds conn k → s.locks.Holds conn k ∨
      ∃ key, phase.leads = some (key, conn) ∧ lockKey key = k)
    (once : next.locks.entries.Nodup) : Traced lockKey next := by
  have inside : i < s.tasks.length := (List.getElem?_eq_some_iff.mp at_).1
  refine ⟨fun conn k holds => ?_,once⟩
  rcases origin conn k holds with old | ⟨key,leads,is⟩
  · obtain ⟨j,u,key,found,leads,is⟩ := traced.leader conn k old
    by_cases same : j = i
    · subst same
      cases at_.symm.trans found
      refine ⟨j,{ t with phase },key,by rw [moved, List.getElem?_set_self inside],?_,is⟩
      exact own key conn leads (is ▸ holds)
    · exact ⟨j,u,key,by rw [moved, List.getElem?_set_ne (Ne.symm same), found],leads,is⟩
  · exact ⟨i,{ t with phase },key,by rw [moved, List.getElem?_set_self inside],leads,is⟩

/-- Neither the locks nor what the task leads changes. -/
theorem Traced.stay {t : Task} {i : Nat} {phase : TaskPhase} (traced : Traced lockKey s)
    (at_ : s.tasks[i]? = some t) (moved : next.tasks = s.tasks.set i { t with phase }) (locks : next.locks = s.locks)
    (same : phase.leads = t.phase.leads) : Traced lockKey next := by
  refine traced.settle at_ moved ?_ ?_ (locks ▸ traced.once)
  · intro key conn leads _
    rw [same, leads]
  · intro conn k holds
    exact Or.inl (locks ▸ holds)

theorem Traced.frame (traced : Traced lockKey s) (tasks : ∃ more, next.tasks = s.tasks ++ more)
    (locks : next.locks.entries.Sublist s.locks.entries) : Traced lockKey next := by
  obtain ⟨more,tasks⟩ := tasks
  refine ⟨fun conn k holds => ?_,traced.once.sublist locks⟩
  obtain ⟨i,t,key,at_,leads,is⟩ := traced.leader conn k (locks.subset holds)
  refine ⟨i,t,key,?_,leads,is⟩
  rw [tasks, List.getElem?_append_left (List.getElem?_eq_some_iff.mp at_).1, at_]

/-- The one who asks has no lock yet. -/
theorem Traced.asking {t : Task} {i : Nat} {key : String} {conn : Conn} (traced : Traced lockKey s)
    (balanced : Balanced s) (at_ : s.tasks[i]? = some t) (asking : t.phase = .asking key conn) (k : κ) :
    ¬s.locks.Holds conn k := by
  intro holds
  obtain ⟨j,u,_,found,leads,_⟩ := traced.leader conn k holds
  have same := balanced.owner found at_ (TaskPhase.leads_mem leads) (by rw [asking]; exact List.mem_cons_self)
  subst same
  cases at_.symm.trans found
  rw [asking] at leads
  cases leads

end

section
variable {κ : Type} [DecidableEq κ] {lockKey : String → κ} {size : Nat → Nat} {s next : Cluster κ}

theorem Named.step {keys : List String} {label : ClusterLabel} (named : Named keys s) (known : NamedLabel keys label)
    (step : ClusterStep lockKey size s label next) : Named keys next := by
  cases step with
  | begin => exact named.join fun key is => Option.some.inj is ▸ known
  | submit => exact named.join fun _ is => by cases is
  | reuse at_ _ _ given => exact named.settle at_ rfl fun key is => (TaskPhase.given_spec given).2.2 ▸ is
  | dial at_ _ given => exact named.settle at_ rfl fun key is => (TaskPhase.given_spec given).2.2 ▸ is
  | giveUp at_ denied => exact named.settle at_ rfl (TaskPhase.denied_spec denied).2.2
  | lead at_ asking => exact named.settle at_ rfl fun key is => by rw [asking]; exact is
  | issue at_ leading => exact named.settle at_ rfl fun key is => by rw [leading]; exact is
  | finish at_ working =>
    exact named.settle at_ (by rw [Cluster.settle, (s.release_frame _ _).1]) fun key is => by rw [working]; exact is
  | quit at_ => exact named.settle at_ (by rw [Cluster.settle, (Cluster.release_frame _ _ _).1]) fun _ is => by cases is
  | lose | discard => exact named

theorem Named.run {keys : List String} {trace : List ClusterLabel}
    (run : (clusterSystem lockKey size).run (Cluster.start κ) trace = some s)
    (named : ∀ label ∈ trace, NamedLabel keys label) : Named keys s :=
  System.invariant (fun _ => NamedLabel keys) (Named keys)
    (fun _ _ _ holds known step => holds.step known (Cluster.step_cases step)) run (System.along_labels named)
    (fun _ impossible => absurd impossible List.not_mem_nil)

/-- A task quits without leaving a lock behind. -/
theorem Traced.quit {t : Task} {i : Nat} {conn : Conn} {move : Move} {locks : Locks Conn κ} {keep : Bool}
    (traced : Traced lockKey s) (held : Held lockKey s) (at_ : s.tasks[i]? = some t)
    (quits : Quits lockKey s conn t.phase move locks) (clean : Clean s (.act i move)) :
    Traced lockKey (({ s with locks }.release conn keep).settle i t .ended) := by
  obtain ⟨tasks,_,same,_⟩ := Cluster.release_frame { s with locks } conn keep
  refine traced.settle at_ (by rw [Cluster.settle, tasks]) ?_ ?_ ?_
  · intro key c leads holds
    rw [Cluster.settle, same] at holds
    exfalso
    generalize found : t.phase = phase at quits leads
    cases quits with
    | refused | failed | finished => cases leads
    | granted => cases clean
    | unlocked alive =>
      cases leads
      exact traced.once.not_mem_erase holds
    | abandoned =>
      cases leads
      rcases clean with done | gone
      · cases done
      · simp only [at_, found, TaskPhase.leads, Option.any_some, decide_eq_true_eq] at gone
        exact held.alive conn _ holds gone
  · intro c k holds
    rw [Cluster.settle, same] at holds
    refine Or.inl ?_
    generalize t.phase = phase at quits
    cases quits with
    | refused | failed | finished | abandoned => exact holds
    | granted => cases clean
    | unlocked => exact holds.of_unlock
  · rw [Cluster.settle, same]
    generalize t.phase = phase at quits
    cases quits with
    | refused | failed | finished | abandoned => exact traced.once
    | granted => cases clean
    | unlocked => exact traced.once.erase _

theorem Traced.step {label : ClusterLabel} (traced : Traced lockKey s) (sound : Sound lockKey size s)
    (clean : Clean s label) (step : ClusterStep lockKey size s label next) : Traced lockKey next := by
  cases step with
  | begin => exact traced.frame ⟨_,rfl⟩ (List.Sublist.refl _)
  | submit => exact traced.frame ⟨_,rfl⟩ (List.Sublist.refl _)
  | reuse at_ _ _ given => exact traced.stay at_ rfl rfl (TaskPhase.given_spec given).2.1
  | dial at_ _ given => exact traced.stay at_ rfl rfl (TaskPhase.given_spec given).2.1
  | giveUp at_ denied => exact traced.stay at_ rfl rfl (TaskPhase.denied_spec denied).2.1
  | issue at_ leading => exact traced.stay at_ rfl rfl (by rw [leading]; rfl)
  | finish at_ working =>
    obtain ⟨tasks,_,locks,_⟩ := s.release_frame _ _
    exact traced.stay at_ (by rw [Cluster.settle, tasks]) locks (by rw [working]; rfl)
  | lead at_ asking alive taken =>
    refine traced.settle at_ rfl ?_ ?_ ?_
    · intro key conn leads _
      rw [asking] at leads
      cases leads
    · intro c k holds
      rcases (Locks.holds_tryLock taken).mp holds with ⟨rfl,rfl⟩ | old
      · exact Or.inr ⟨_,rfl,rfl⟩
      · exact Or.inl old
    · have entries := Locks.tryLock_entries taken
      rw [Cluster.settle, entries]
      exact List.nodup_cons.mpr ⟨traced.asking sound.balanced at_ asking _,traced.once⟩
  | quit at_ quits => exact traced.quit sound.held at_ quits clean
  | lose => exact traced.frame ⟨[],(List.append_nil _).symm⟩ List.filter_sublist
  | discard => exact traced.frame ⟨[],(List.append_nil _).symm⟩ List.filter_sublist

theorem Traced.refused {t : Task} {i : Nat} {key : String} {conn : Conn} {keys : List String}
    (traced : Traced lockKey s) (sound : Sound lockKey size s) (named : Named keys s)
    (apart : (keys.map lockKey).Nodup) (at_ : s.tasks[i]? = some t) (asking : t.phase = .asking key conn) :
    s.locks.tryLock conn (lockKey key) = none ↔ s.led key = true := by
  have known : key ∈ keys := named t (List.mem_of_getElem? at_) key (by rw [asking]; rfl)
  rw [Locks.tryLock_eq_none, Cluster.led_iff]
  constructor
  · rintro ⟨other,_,holds⟩
    obtain ⟨j,u,key',found,leads,same⟩ := traced.leader other _ holds
    have member := List.mem_of_getElem? found
    have known' : key' ∈ keys := named u member key' (TaskPhase.leads_key leads)
    cases List.inj_on_of_nodup_map apart known' known same
    exact ⟨u,member,other,sound.held.alive _ _ holds,leads⟩
  · rintro ⟨u,member,other,live,leads⟩
    obtain ⟨j,found⟩ := List.mem_iff_getElem?.mp member
    have holds := sound.held.leader j u key other found leads live
    refine ⟨other,?_,holds⟩
    rintro rfl
    exact traced.asking sound.balanced at_ asking _ holds

/-- As long as no grant goes astray, a lock query that is answered makes its pass a leader
exactly when nobody leads for the key, among passes for keys whose locks differ. -/
theorem answered_lock_query_leads (lockKey : String → κ) (size : Nat → Nat) (keys : List String)
    (apart : (keys.map lockKey).Nodup) (trace : List ClusterLabel) (s : Cluster κ)
    (run : (clusterSystem lockKey size).run (Cluster.start κ) trace = some s)
    (named : ∀ label ∈ trace, NamedLabel keys label)
    (clean : (clusterSystem lockKey size).Along Clean (Cluster.start κ) trace)
    (i : Nat) (pool : Nat) (key : String) (conn : Conn) (at_ : s.tasks[i]? = some ⟨pool, .asking key conn⟩)
    (live : conn ∉ s.lost) (keep : Bool) :
    ∃ next, (clusterSystem lockKey size).step s (.act i (.answer keep)) = some next ∧
      next.tasks[i]? = some ⟨pool, if s.led key then .ended else .leading key conn⟩ := by
  have sound := Sound.run run
  have names := Named.run run named
  have traced := (System.invariant Clean (fun s => Sound lockKey size s ∧ Traced lockKey s)
    (fun _ _ _ holds clean step =>
      have step := Cluster.step_cases step
      ⟨holds.1.step step,holds.2.step holds.1 clean step⟩) run clean ⟨.start,.start⟩).2
  have refused := traced.refused sound names apart at_ rfl
  have inside := (List.getElem?_eq_some_iff.mp at_).1
  simp only [clusterSystem, Cluster.step, at_, Option.bind_some, Cluster.act, if_neg live]
  cases granted : s.locks.tryLock conn (lockKey key) with
  | none =>
    have frame := (s.release_frame conn keep).1
    exact ⟨_,rfl,by rw [if_pos (refused.mp granted), Cluster.settle, frame, List.getElem?_set_self inside]⟩
  | some locks =>
    have free : ¬s.led key = true := fun led => by rw [refused.mpr led] at granted; cases granted
    exact ⟨_,rfl,by rw [if_neg free, Cluster.settle, List.getElem?_set_self inside]⟩

end

/-- Two processes sample at the same time; the second one has not been answered yet. -/
def contendTrace : List ClusterLabel :=
  [.tryLeaderLock 0 "tickr.stats", .act 0 .dial, .act 0 (.answer true), .tryLeaderLock 1 "tickr.stats", .act 1 .dial]

def contending : Cluster String where
  opened := 2
  pooled := [⟨1, 1⟩, ⟨0, 0⟩]
  idle := []
  tasks := [⟨0, .leading "tickr.stats" ⟨0, 0⟩⟩, ⟨1, .asking "tickr.stats" ⟨1, 1⟩⟩]
  locks := Locks.none.grant ⟨0, 0⟩ (mysqlLockKey "tickr.stats") fun _ impossible => absurd impossible List.not_mem_nil
  lost := []

theorem answered_lock_query_leads_contended :
    (clusterSystem mysqlLockKey fun _ => 4).run (Cluster.start String) contendTrace = some contending ∧
    ∃ next, (clusterSystem mysqlLockKey fun _ => 4).step contending (.act 1 (.answer true)) = some next ∧
      next.tasks[1]? = some ⟨1, .ended⟩ :=
  have run : (clusterSystem mysqlLockKey fun _ => 4).run (Cluster.start String) contendTrace = some contending := rfl
  ⟨run,answered_lock_query_leads mysqlLockKey (fun _ => 4) leaderKeys mysqlLockKey_nodup contendTrace contending
    run (by decide) (by decide) 1 1 "tickr.stats" ⟨1, 1⟩ rfl (by decide) true⟩

/-! ### Waiting for connections -/

/-- The steps that a task needs, if it issues no further statement. -/
def TaskPhase.steps : TaskPhase → Nat
  | .acquiring _ | .waiting _ _ => 3
  | .asking _ _ | .working _ _ _ | .queued => 2
  | .leading _ _ | .running _ => 1
  | .ended => 0

/-- The pass goes on as a leader, although its session is lost. -/
def Task.stale (lost : List Conn) (t : Task) : Bool := t.phase.leads.any fun l => decide (l.2 ∈ lost)

section
variable {κ : Type} {lockKey : String → κ} {size : Nat → Nat} {s next : Cluster κ}

def Cluster.stale (s : Cluster κ) (pool : Nat) : Nat :=
  (s.tasks.filter fun t => decide (t.pool = pool) && t.stale s.lost).length

def Cluster.work (s : Cluster κ) : Nat := total (fun t => t.phase.steps) s.tasks

/-- No context ends, no session is lost, no statement fails on a session that lasts, and nobody
begins anything. -/
def Orderly (s : Cluster κ) : ClusterLabel → Prop
  | .act _ (.reuse _) | .act _ .dial | .act _ (.answer _) | .act _ (.finish _) => True
  | .act i (.garble granted _) =>
    granted = false ∧ (s.tasks[i]?.any fun t => t.phase.conns.any fun c => decide (c ∈ s.lost)) = true
  | .act i (.unlock done _) => done = true ∨ (s.tasks[i]?.any fun t => t.stale s.lost) = true
  | _ => False

theorem Orderly.named {label : ClusterLabel} (orderly : Orderly s label) (keys : List String) :
    NamedLabel keys label := by
  cases label with
  | tryLeaderLock => exact orderly.elim
  | submit | act | lose | discard => trivial

/-- Some task has come closer to its end, and has not become stale. -/
def Advanced (s next : Cluster κ) : Prop :=
  ∃ i t phase, s.tasks[i]? = some t ∧ next.tasks = s.tasks.set i { t with phase } ∧ next.lost = s.lost ∧
    phase.steps < t.phase.steps ∧ (({ t with phase } : Task).stale s.lost = true → t.stale s.lost = true)

theorem Advanced.work (advanced : Advanced s next) : next.work < s.work := by
  obtain ⟨i,t,phase,at_,moved,_,fewer,_⟩ := advanced
  have sum : total (fun t => t.phase.steps) (s.tasks.set i { t with phase }) + t.phase.steps =
      total (fun t => t.phase.steps) s.tasks + phase.steps := total_set _ at_ _
  rw [Cluster.work, Cluster.work, moved]
  omega

theorem Advanced.stale (advanced : Advanced s next) (pool : Nat) : next.stale pool ≤ s.stale pool := by
  obtain ⟨i,t,phase,at_,moved,lost,_,fresh⟩ := advanced
  have sum := total_set (fun t => (decide (t.pool = pool) && t.stale s.lost).toNat) at_ { t with phase }
  have less : (decide (t.pool = pool) && ({ t with phase } : Task).stale s.lost).toNat ≤
      (decide (t.pool = pool) && t.stale s.lost).toNat := by
    cases now : ({ t with phase } : Task).stale s.lost with
    | false => simp
    | true => exact Nat.le_of_eq (by rw [fresh now])
  rw [Cluster.stale, Cluster.stale, moved, lost, ← total_indicator, ← total_indicator]
  dsimp only at sum less ⊢
  omega

/-- The leaders whose sessions last have a lock each; the keys run out before they do. -/
theorem Sound.live_le {keys : List String} (sound : Sound lockKey size s) (named : Named keys s) (l : List Task)
    (sub : l.Sublist s.tasks) (live : ∀ t ∈ l, ∃ key conn, t.phase.leads = some (key, conn) ∧ conn ∉ s.lost) :
    l.length ≤ keys.length := by
  let lockOf (t : Task) : κ := lockKey ((t.phase.leads.map Prod.fst).getD "")
  have distinct : (l.map lockOf).Nodup := by
    refine List.pairwise_map.mpr ((sound.oneLeader.sublist sub).imp_of_mem fun {t u} ht hu apart same => ?_)
    obtain ⟨key,conn,leads,lasts⟩ := live t ht
    obtain ⟨key',conn',leads',lasts'⟩ := live u hu
    simp only [lockOf, leads, leads', Option.map_some, Option.getD_some] at same
    exact apart ⟨key,conn,key',conn',leads,leads',lasts,lasts',same⟩
  have inside : l.map lockOf ⊆ keys.map lockKey := by
    intro k member
    obtain ⟨t,ht,rfl⟩ := List.mem_map.mp member
    obtain ⟨key,conn,leads,_⟩ := live t ht
    refine List.mem_map.mpr ⟨key,named t (sub.subset ht) key (TaskPhase.leads_key leads),?_⟩
    simp only [lockOf, leads, Option.map_some, Option.getD_some]
  simpa using (List.subperm_of_subset distinct inside).length_le

theorem Sound.leaders_le {keys : List String} (sound : Sound lockKey size s) (named : Named keys s) (pool : Nat) :
    (s.tasks.filter fun t => decide (t.pool = pool) && t.phase.leads.isSome).length ≤ keys.length + s.stale pool := by
  rw [List.length_eq_length_filter_add (Task.stale s.lost), Nat.add_comm]
  refine Nat.add_le_add (sound.live_le named _ (List.filter_sublist.trans List.filter_sublist) ?_) ?_
  · intro t member
    obtain ⟨leader,fresh⟩ := List.mem_filter.mp member
    obtain ⟨⟨key,conn⟩,leads⟩ := Option.isSome_iff_exists.mp (Bool.and_eq_true_iff.mp (List.mem_filter.mp leader).2).2
    refine ⟨key,conn,leads,?_⟩
    simpa [Task.stale, leads] using fresh
  · rw [List.filter_filter]
    refine (List.monotone_filter_right _ fun t both => ?_).length_le
    obtain ⟨stale,inPool,_⟩ := by simpa only [Bool.and_eq_true_iff] using both
    simp [stale, inPool]

/-- All connections of the pool are with leaders that wait for another one. -/
theorem Sound.exhausted {keys : List String} (sound : Sound lockKey size s) (named : Named keys s) (pool : Nat)
    (waiting : ∀ t ∈ s.tasks, t.pool = pool → t.phase.conns = [] ∨ ∃ key conn, t.phase = .waiting key conn)
    (taken : ∀ c ∈ s.idle, c.pool ≠ pool) : (s.inPool pool).length ≤ keys.length + s.stale pool := by
  refine Nat.le_trans ?_ (sound.leaders_le named pool)
  have inside : s.inPool pool ⊆ (s.tasks.filter fun t => decide (t.pool = pool) && t.phase.leads.isSome).flatMap
      fun t => t.phase.conns := by
    intro c member
    obtain ⟨pooled,own⟩ := List.mem_filter.mp member
    have own := of_decide_eq_true own
    rcases List.mem_append.mp (sound.balanced.placed.subset pooled) with idle | busy
    · exact absurd own (taken c idle)
    · obtain ⟨t,ht,holds⟩ := List.mem_flatMap.mp busy
      have here : t.pool = pool := (sound.balanced.tagged t ht c holds).symm.trans own
      rcases waiting t ht here with none | ⟨key,conn,waits⟩
      · rw [none] at holds
        cases holds
      · exact List.mem_flatMap.mpr ⟨t,List.mem_filter.mpr ⟨ht,by simp [here, waits, TaskPhase.leads]⟩,holds⟩
  have single : ∀ t ∈ s.tasks.filter (fun t => decide (t.pool = pool) && t.phase.leads.isSome),
      t.phase.conns.length = 1 := by
    intro t member
    obtain ⟨ht,is⟩ := List.mem_filter.mp member
    obtain ⟨here,leads⟩ := Bool.and_eq_true_iff.mp is
    rcases waiting t ht (of_decide_eq_true here) with none | ⟨key,conn,waits⟩
    · obtain ⟨l,leads⟩ := Option.isSome_iff_exists.mp leads
      have owns := TaskPhase.leads_mem leads
      rw [none] at owns
      cases owns
    · rw [waits]
      rfl
  have count := (List.subperm_of_subset (sound.balanced.distinct.filter _) inside).length_le
  rwa [List.length_flatMap, List.map_congr_left single, List.map_const', List.sum_replicate_nat, Nat.mul_one] at count

end

section
variable {κ : Type} [DecidableEq κ] {lockKey : String → κ} {size : Nat → Nat} {s next : Cluster κ}

/-- An orderly step that brings some task closer to its end. -/
def Advances (lockKey : String → κ) (size : Nat → Nat) (s : Cluster κ) : Prop :=
  ∃ label next, Orderly s label ∧ (clusterSystem lockKey size).step s label = some next ∧ Advanced s next

theorem advances_act {t : Task} {i : Nat} (move : Move) {phase : TaskPhase} (mid : Cluster κ)
    (at_ : s.tasks[i]? = some t) (orderly : Orderly s (.act i move))
    (acts : s.act lockKey size i t move = some (mid.settle i t phase))
    (frame : mid.tasks = s.tasks ∧ mid.lost = s.lost) (fewer : phase.steps < t.phase.steps)
    (fresh : ({ t with phase } : Task).stale s.lost = true → t.stale s.lost = true) : Advances lockKey size s := by
  refine ⟨.act i move,mid.settle i t phase,orderly,?_,i,t,phase,at_,?_,frame.2,fewer,fresh⟩
  · change (s.tasks[i]?.bind fun t => s.act lockKey size i t move) = _
    rw [at_, Option.bind_some, acts]
  · change mid.tasks.set i _ = _
    rw [frame.1]

/-- The task gives its connection back and ends. -/
theorem advances_quit {t : Task} {i : Nat} (move : Move) {conn : Conn} {keep : Bool} (locks : Locks Conn κ)
    (at_ : s.tasks[i]? = some t) (orderly : Orderly s (.act i move))
    (acts : s.act lockKey size i t move = some (({ s with locks }.release conn keep).settle i t .ended))
    (unended : 0 < t.phase.steps) : Advances lockKey size s := by
  obtain ⟨tasks,lost,_⟩ := Cluster.release_frame { s with locks } conn keep
  exact advances_act move _ at_ orderly acts ⟨tasks,lost⟩ unended fun impossible => by cases impossible

/-- A task that has what it needs gets on without the pool. -/
theorem advances_served {t : Task} {i : Nat} (at_ : s.tasks[i]? = some t)
    (served : t.phase.conns ≠ []) (running : ∀ key conn, t.phase ≠ .waiting key conn) :
    Advances lockKey size s := by
  obtain ⟨pool,phase⟩ := t
  cases phase with
  | acquiring | queued | ended => exact absurd rfl served
  | waiting key conn => exact absurd rfl (running key conn)
  | asking key conn =>
    by_cases lost : conn ∈ s.lost
    · have fails : Orderly s (.act i (.garble false false)) := ⟨rfl,by simp [at_, TaskPhase.conns, lost]⟩
      exact advances_quit (.garble false false) s.locks at_ fails rfl Nat.zero_lt_two
    · cases granted : s.locks.tryLock conn (lockKey key) with
      | none =>
        have acts : s.act lockKey size i ⟨pool, .asking key conn⟩ (.answer true) =
            some ((s.release conn true).settle i ⟨pool, .asking key conn⟩ .ended) := by
          simp only [Cluster.act, if_neg lost, granted]
        exact advances_quit (.answer true) s.locks at_ trivial acts Nat.zero_lt_two
      | some locks =>
        have acts : s.act lockKey size i ⟨pool, .asking key conn⟩ (.answer true) =
            some ({ s with locks }.settle i ⟨pool, .asking key conn⟩ (.leading key conn)) := by
          simp only [Cluster.act, if_neg lost, granted]
        refine advances_act (.answer true) _ at_ trivial acts ⟨rfl,rfl⟩ Nat.one_lt_two ?_
        simp [Task.stale, TaskPhase.leads, lost]
  | leading key conn =>
    by_cases lost : conn ∈ s.lost
    · have fails : Orderly s (.act i (.unlock false true)) := Or.inr (by simp [at_, Task.stale, TaskPhase.leads, lost])
      exact advances_quit (.unlock false true) s.locks at_ fails rfl Nat.zero_lt_one
    · have acts : s.act lockKey size i ⟨pool, .leading key conn⟩ (.unlock true true) =
          some (({ s with locks := s.locks.unlock conn (lockKey key) }.release conn true).settle i
            ⟨pool, .leading key conn⟩ .ended) := by
        simp only [Cluster.act, if_neg lost, if_true]
      exact advances_quit (.unlock true true) _ at_ (Or.inl rfl) acts Nat.zero_lt_one
  | working key conn own =>
    obtain ⟨tasks,lost,_⟩ := s.release_frame own true
    exact advances_act (.finish true) _ at_ trivial rfl ⟨tasks,lost⟩ Nat.one_lt_two id
  | running own => exact advances_quit (.finish true) s.locks at_ trivial rfl Nat.zero_lt_one

theorem TaskPhase.given_steps {phase : TaskPhase} (unserved : phase.conns = [] ∨ ∃ key conn, phase = .waiting key conn)
    (unended : phase ≠ .ended) (conn : Conn) :
    ∃ next, phase.given conn = some next ∧ next.steps < phase.steps ∧ next.leads = phase.leads := by
  cases phase with
  | acquiring key => exact ⟨.asking key conn,rfl,Nat.lt_add_one 2,rfl⟩
  | waiting key held => exact ⟨.working key held conn,rfl,Nat.lt_add_one 2,rfl⟩
  | queued => exact ⟨.running conn,rfl,Nat.lt_add_one 1,rfl⟩
  | ended => exact absurd rfl unended
  | asking | leading | working | running =>
    rcases unserved with none | ⟨_,_,is⟩
    · cases none
    · cases is

/-- A pool that has a connection to give away, or room for one, serves whoever waits. -/
theorem advances_unserved {t : Task} {i : Nat} (at_ : s.tasks[i]? = some t)
    (unserved : t.phase.conns = [] ∨ ∃ key conn, t.phase = .waiting key conn) (unended : t.phase ≠ .ended)
    (available : (∃ c ∈ s.idle, c.pool = t.pool) ∨ (s.inPool t.pool).length < size t.pool) :
    Advances lockKey size s := by
  rcases available with ⟨c,idle,own⟩ | room
  · obtain ⟨phase,given,fewer,leads⟩ := TaskPhase.given_steps unserved unended c
    have acts : s.act lockKey size i t (.reuse c) = some ({ s with idle := s.idle.erase c }.settle i t phase) := by
      rw [Cluster.act, if_pos ⟨idle,own⟩, given, Option.map_some]
    refine advances_act (.reuse c) _ at_ trivial acts ⟨rfl,rfl⟩ fewer ?_
    simp only [Task.stale, leads, imp_self]
  · obtain ⟨phase,given,fewer,leads⟩ := TaskPhase.given_steps unserved unended ⟨t.pool, s.opened⟩
    have acts : s.act lockKey size i t .dial = some
        ({ s with opened := s.opened + 1, pooled := ⟨t.pool, s.opened⟩ :: s.pooled }.settle i t phase) := by
      rw [Cluster.act, if_pos room, given, Option.map_some]
    refine advances_act .dial _ at_ trivial acts ⟨rfl,rfl⟩ fewer ?_
    simp only [Task.stale, leads, imp_self]

/-- Nobody is left without a step to take, for lack of anything but time. -/
theorem Sound.advances {keys : List String} (sound : Sound lockKey size s) (named : Named keys s)
    (ample : ∀ t ∈ s.tasks, keys.length + s.stale t.pool < size t.pool) (unquiet : ∃ t ∈ s.tasks, t.phase ≠ .ended) :
    Advances lockKey size s := by
  by_cases served : ∃ t ∈ s.tasks, t.phase.conns ≠ [] ∧ ∀ key conn, t.phase ≠ .waiting key conn
  · obtain ⟨t,member,owns,running⟩ := served
    obtain ⟨i,at_⟩ := List.mem_iff_getElem?.mp member
    exact advances_served at_ owns running
  · have unserved : ∀ t ∈ s.tasks, t.phase.conns = [] ∨ ∃ key conn, t.phase = .waiting key conn := by
      intro t member
      by_contra both
      push Not at both
      exact served ⟨t,member,both⟩
    obtain ⟨t,member,unended⟩ := unquiet
    obtain ⟨i,at_⟩ := List.mem_iff_getElem?.mp member
    refine advances_unserved at_ (unserved t member) unended ?_
    by_contra none
    push Not at none
    have most := sound.exhausted named t.pool (fun u hu _ => unserved u hu) none.1
    have room := ample t member
    omega

/-- A pool with one connection more than there are keys and leaders on lost sessions never
blocks: from every reachable state the statements under way and the passes of all processes can
run to their ends, without a context that ends or a session that is lost to help them. -/
theorem leader_passes_end (lockKey : String → κ) (size : Nat → Nat) (keys : List String)
    (trace : List ClusterLabel) (s : Cluster κ)
    (run : (clusterSystem lockKey size).run (Cluster.start κ) trace = some s)
    (named : ∀ label ∈ trace, NamedLabel keys label)
    (ample : ∀ t ∈ s.tasks, keys.length + s.stale t.pool < size t.pool) :
    ∃ rest final, (clusterSystem lockKey size).run s rest = some final ∧
      (clusterSystem lockKey size).Along Orderly s rest ∧ ∀ t ∈ final.tasks, t.phase = .ended := by
  have sound := Sound.run run
  have names := Named.run run named
  clear run named
  induction work : s.work using Nat.strongRecOn generalizing s with
  | _ n ih =>
    by_cases unquiet : ∃ t ∈ s.tasks, t.phase ≠ .ended
    · obtain ⟨label,next,orderly,step,advanced⟩ := sound.advances names ample unquiet
      have cases := Cluster.step_cases step
      have tasks : ∀ u ∈ next.tasks, keys.length + next.stale u.pool < size u.pool := by
        intro u member
        have fewer := advanced.stale u.pool
        obtain ⟨i,t,phase,at_,moved,_⟩ := advanced
        rw [moved] at member
        rcases List.mem_or_eq_of_mem_set member with old | rfl
        · exact Nat.lt_of_le_of_lt (Nat.add_le_add_left fewer _) (ample u old)
        · exact Nat.lt_of_le_of_lt (Nat.add_le_add_left fewer _) (ample t (List.mem_of_getElem? at_))
      obtain ⟨rest,final,later,along,quiet⟩ := ih next.work (work ▸ advanced.work) next tasks (sound.step cases)
        (names.step (orderly.named keys) cases) rfl
      refine ⟨label :: rest,final,System.run_cons.mpr ⟨next,step,later⟩,⟨orderly,fun other same => ?_⟩,quiet⟩
      cases step.symm.trans same
      exact along
    · push Not at unquiet
      exact ⟨[],s,rfl,trivial,unquiet⟩

end

/-- Four connections for the three background loops. -/
theorem leader_passes_end_contended :
    (clusterSystem mysqlLockKey fun _ => 4).run (Cluster.start String) contendTrace = some contending ∧
    ∃ rest final, (clusterSystem mysqlLockKey fun _ => 4).run contending rest = some final ∧
      (clusterSystem mysqlLockKey fun _ => 4).Along Orderly contending rest ∧ ∀ t ∈ final.tasks, t.phase = .ended :=
  have run : (clusterSystem mysqlLockKey fun _ => 4).run (Cluster.start String) contendTrace = some contending := rfl
  ⟨run,leader_passes_end mysqlLockKey (fun _ => 4) leaderKeys contendTrace contending run (by decide) (by decide)⟩

end Tickr.Leader
