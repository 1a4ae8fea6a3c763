import Tickr.KeyedTable
import Tickr.Message
import Tickr.Transition

/-! Leader election of the CockroachDB adapter. A lock is a row with a holder and an end,
taken by an upsert that passes over a row still in force and given back by a DELETE that
names the holder. Nothing else keeps workers apart: a lease may run out, be taken over and
only then be given back by its old holder, in any order. -/
namespace Tickr.Cockroach

open KeyedTable Transition

/-- A row of tickr_locks. -/
structure Lock where
  key : String
  holder : Uuid
  expiresAt : Time
  deriving DecidableEq, Repr

abbrev Locks := Table Lock.key (fun _ => (none : Option Unit))

/-- SET holder = EXCLUDED.holder, expires_at = EXCLUDED.expires_at. -/
def takeOver (excluded : Lock) : Assign Lock.key (fun _ => (none : Option Unit)) where
  set l := { l with holder := excluded.holder, expiresAt := excluded.expiresAt }
  keepsKey _ := rfl
  keepsIndex _ := rfl

/-- The upsert of TryLeaderLock, with the row that RETURNING sees. -/
def tryLockSQL (locks : Locks) (now : Time) (excluded : Lock) : Locks × Option Lock :=
  match locks.insert excluded with
  | .inserted after => (after, some excluded)
  | .conflict | .duplicateKey =>
    (locks.update (fun l => l.key = excluded.key && l.expiresAt < now) (takeOver excluded),
      ((locks.find? excluded.key).filter (fun l => l.expiresAt < now)).map (takeOver excluded).set)

/-- `TryLeaderLock` of a worker that generates the id `holder`. -/
def tryLeaderLock (locks : Locks) (now : Time) (key : String) (holder : Uuid) : Locks × Bool :=
  let result := tryLockSQL locks now ⟨key, holder, now + 60 * Duration.second⟩
  (result.1,
    match result.2 with
    | none => false
    | some l => l.holder = holder)

/-- The function that TryLeaderLock returns; it holds on to its key and its holder. -/
def unlock (locks : Locks) (key : String) (holder : Uuid) : Locks :=
  locks.delete fun l => l.key = key && l.holder = holder

/-- A worker to which TryLeaderLock returned true, with the lease it got and whether its
unlock function has run since. -/
structure Acquirer where
  lease : Lock
  unlocked : Bool
  deriving DecidableEq, Repr

/-- The latest acquirer comes first. -/
structure Election where
  now : Time
  locks : Locks
  acquirers : List Acquirer

def Election.start (now : Time) : Election := ⟨now, empty, []⟩

inductive ElectionLabel where
  | tryLeaderLock (key : String) (holder : Uuid)
  | unlock (key : String) (holder : Uuid)
  | advance (elapsed : Nat)

def Acquirer.releases (key : String) (holder : Uuid) (a : Acquirer) : Bool :=
  a.lease.key = key && a.lease.holder = holder

def Acquirer.release (key : String) (holder : Uuid) (a : Acquirer) : Acquirer :=
  if a.releases key holder then { a with unlocked := true } else a

/-- An unlock function exists once TryLeaderLock has returned it, and may run any number of
times. -/
def Election.step (s : Election) : ElectionLabel → Option Election
  | .tryLeaderLock key holder =>
    let result := Cockroach.tryLeaderLock s.locks s.now key holder
    some { s with
      locks := result.1
      acquirers :=
        if result.2 then ⟨⟨key, holder, s.now + 60 * Duration.second⟩, false⟩ :: s.acquirers
        else s.acquirers }
  | .unlock key holder =>
    if s.acquirers.any (Acquirer.releases key holder) then
      some { s with
        locks := Cockroach.unlock s.locks key holder
        acquirers := s.acquirers.map (Acquirer.release key holder) }
    else none
  | .advance elapsed => some { s with now := s.now + elapsed }

def electionSystem : System Election ElectionLabel := ⟨Election.step⟩

/-- The generated id is not the one of an earlier acquirer. -/
def FreshHolder (s : Election) : ElectionLabel → Prop
  | .tryLeaderLock _ holder => ∀ a ∈ s.acquirers, a.lease.holder ≠ holder
  | _ => True

instance (s : Election) : (label : ElectionLabel) → Decidable (FreshHolder s label)
  | .tryLeaderLock _ holder => inferInstanceAs (Decidable (∀ a ∈ s.acquirers, a.lease.holder ≠ holder))
  | .unlock _ _ => isTrue trivial
  | .advance _ => isTrue trivial

/-- Acquirers that have not unlocked and whose lease has not run out. -/
def Election.leaders (s : Election) (key : String) : List Acquirer :=
  s.acquirers.filter fun a => a.lease.key = key && !a.unlocked && s.now ≤ a.lease.expiresAt

/-- A row in force keeps everybody else from the lock. -/
def InForce (locks : Locks) (now : Time) (key : String) : Prop :=
  ∃ l ∈ locks.rows, l.key = key ∧ now ≤ l.expiresAt

structure Exclusive (s : Election) : Prop where
  leaders : ∀ key, (s.leaders key).length ≤ 1
  acquired : ∀ key holder, (tryLeaderLock s.locks s.now key holder).2 = true ↔ ¬InForce s.locks s.now key
  unlocked : s.acquirers.Pairwise fun later earlier => later.lease.key = earlier.lease.key →
    unlock s.locks earlier.lease.key earlier.lease.holder = s.locks

/-! ### The statements -/

theorem inForce_iff {locks : Locks} {now : Time} {key : String} :
    InForce locks now key ↔ ∃ l, locks.find? key = some l ∧ now ≤ l.expiresAt := by
  constructor
  · rintro ⟨l,member,rfl,live⟩
    exact ⟨l,Table.find?_of_mem member,live⟩
  · rintro ⟨l,found,live⟩
    exact ⟨l,Table.find?_mem found,Table.find?_key found,live⟩

theorem tryLockSQL_inForce {locks : Locks} {now : Time} {excluded : Lock}
    (force : InForce locks now excluded.key) : tryLockSQL locks now excluded = (locks, none) := by
  obtain ⟨l,found,live⟩ := inForce_iff.mp force
  have idle : ∀ a ∈ locks.rows, (a.key = excluded.key && a.expiresAt < now) = false := by
    intro a member
    by_cases same : a.key = excluded.key
    · have one : some a = some l := by rw [← found, ← same, Table.find?_of_mem member]
      simp [Option.some.inj one, live]
    · simp [same]
  have passed : ((locks.find? excluded.key).filter fun l => l.expiresAt < now) = none := by
    simp [found, live]
  unfold tryLockSQL
  split
  · rename_i after inserted
    exact absurd (List.mem_map.mpr ⟨l,Table.find?_mem found,Table.find?_key found⟩)
      (Table.insert_inserted inserted).2
  all_goals rw [Table.update_idle idle, passed, Option.map_none]

theorem tryLockSQL_free {locks : Locks} {now : Time} {excluded : Lock}
    (free : ¬InForce locks now excluded.key) :
    (tryLockSQL locks now excluded).2 = some excluded ∧
    ∀ k, (tryLockSQL locks now excluded).1.find? k =
      if excluded.key = k then some excluded else locks.find? k := by
  unfold tryLockSQL
  split
  · rename_i after inserted
    exact ⟨rfl,Table.find?_insert inserted⟩
  · rename_i conflict
    obtain ⟨i,entry,_⟩ := Table.insert_conflict.mp conflict
    cases entry
  · rename_i taken
    obtain ⟨l,member,named⟩ := List.mem_map.mp (Table.insert_duplicateKey taken)
    have found : locks.find? excluded.key = some l := named ▸ Table.find?_of_mem member
    have lapsed : l.expiresAt < now := by
      by_contra live
      exact free ⟨l,member,named,Int.not_lt.mp live⟩
    have replaced : (takeOver excluded).set l = excluded := by
      simp only [takeOver, named]
    constructor
    · simp [found, lapsed, replaced]
    · intro k
      rw [Table.find?_update]
      by_cases same : excluded.key = k
      · rw [if_pos same, ← same, found, Option.map_some, when,
          if_pos (by simp [named, lapsed]), replaced]
      · rw [if_neg same]
        refine map_when_same fun a found => ?_
        have other : a.key ≠ excluded.key := fun equal => same (equal.symm.trans (Table.find?_key found))
        simp [other]

theorem tryLeaderLock_inForce {locks : Locks} {now : Time} {key : String} (holder : Uuid)
    (force : InForce locks now key) : tryLeaderLock locks now key holder = (locks, false) := by
  have refused := @tryLockSQL_inForce locks now ⟨key, holder, now + 60 * Duration.second⟩ force
  simp only [tryLeaderLock, refused]

theorem tryLeaderLock_free {locks : Locks} {now : Time} {key : String} (holder : Uuid)
    (free : ¬InForce locks now key) :
    (tryLeaderLock locks now key holder).2 = true ∧
    ∀ k, (tryLeaderLock locks now key holder).1.find? k =
      if key = k then some ⟨key, holder, now + 60 * Duration.second⟩ else locks.find? k := by
  obtain ⟨returned,rows⟩ := @tryLockSQL_free locks now ⟨key, holder, now + 60 * Duration.second⟩ free
  exact ⟨by simp [tryLeaderLock, returned],rows⟩

theorem tryLeaderLock_acquires (locks : Locks) (now : Time) (key : String) (holder : Uuid) :
    (tryLeaderLock locks now key holder).2 = true ↔ ¬InForce locks now key := by
  constructor
  · intro acquired force
    rw [tryLeaderLock_inForce holder force] at acquired
    cases acquired
  · exact fun free => (tryLeaderLock_free holder free).1

theorem unlock_find? {locks : Locks} {key : String} {holder : Uuid} {k : String} {l : Lock} :
    (unlock locks key holder).find? k = some l ↔
      locks.find? k = some l ∧ (l.key = key && l.holder = holder) = false := by
  rw [unlock, Table.find?_delete, Option.filter_eq_some_iff, Bool.not_eq_true']

/-! ### Whole runs -/

/-- A lease that is neither given back nor run out is the row of its key, and a row never
names a holder that someone else has followed. -/
structure Sound (s : Election) : Prop where
  held : ∀ a ∈ s.acquirers, a.unlocked = false → s.now ≤ a.lease.expiresAt →
    s.locks.find? a.lease.key = some a.lease
  followed : s.acquirers.Pairwise fun later earlier => later.lease.key = earlier.lease.key →
    ∀ l, s.locks.find? earlier.lease.key = some l → l.holder ≠ earlier.lease.holder
  holders : (s.acquirers.map fun a => a.lease.holder).Nodup

@[simp] theorem Acquirer.release_lease (key : String) (holder : Uuid) (a : Acquirer) :
    (a.release key holder).lease = a.lease := by
  unfold Acquirer.release
  split <;> rfl

theorem Acquirer.release_unlocked {key : String} {holder : Uuid} {a : Acquirer}
    (outstanding : (a.release key holder).unlocked = false) :
    a.unlocked = false ∧ a.releases key holder = false := by
  unfold Acquirer.release at outstanding
  split at outstanding
  · cases outstanding
  · rename_i other
    exact ⟨outstanding,Bool.eq_false_iff.mpr other⟩

theorem Sound.start (now : Time) : Sound (Election.start now) where
  held _ impossible := nomatch impossible
  followed := .nil
  holders := .nil

theorem Sound.refused {s : Election} (sound : Sound s) {key : String} {holder : Uuid}
    (force : InForce s.locks s.now key) :
    ∀ next, s.step (.tryLeaderLock key holder) = some next → Sound next := by
  intro next step
  simp only [Election.step, tryLeaderLock_inForce holder force] at step
  cases step
  exact sound

theorem Sound.granted {s : Election} (sound : Sound s) {key : String} {holder : Uuid}
    (fresh : ∀ a ∈ s.acquirers, a.lease.holder ≠ holder) (free : ¬InForce s.locks s.now key) :
    ∀ next, s.step (.tryLeaderLock key holder) = some next → Sound next := by
  intro next step
  obtain ⟨acquired,rows⟩ := tryLeaderLock_free holder free
  simp only [Election.step, acquired, if_true] at step
  cases step
  refine ⟨?_,List.pairwise_cons.mpr ⟨?_,?_⟩,?_⟩
  · intro a member outstanding live
    rcases List.mem_cons.mp member with rfl | old
    · rw [rows, if_pos rfl]
    · have row := sound.held a old outstanding live
      -- a lease still in force would have kept the newcomer away
      have other : key ≠ a.lease.key := by
        rintro rfl
        exact free (inForce_iff.mpr ⟨_,row,live⟩)
      rw [rows, if_neg other, row]
  · rintro a old same l found
    rw [rows, if_pos same] at found
    cases found
    exact (fresh a old).symm
  · refine sound.followed.imp_of_mem fun {later earlier} _ old apart same l found => ?_
    rw [rows] at found
    split at found
    · cases found
      exact (fresh earlier old).symm
    · exact apart same l found
  · refine List.nodup_cons.mpr ⟨?_,sound.holders⟩
    intro member
    obtain ⟨a,old,same⟩ := List.mem_map.mp member
    exact fresh a old same

theorem Sound.unlock {s : Election} (sound : Sound s) (key : String) (holder : Uuid) :
    Sound { s with locks := Cockroach.unlock s.locks key holder,
                   acquirers := s.acquirers.map (Acquirer.release key holder) } where
  held := by
    intro a member outstanding live
    obtain ⟨b,old,rfl⟩ := List.mem_map.mp member
    obtain ⟨before,other⟩ := Acquirer.release_unlocked outstanding
    rw [Acquirer.release_lease] at live ⊢
    exact unlock_find?.mpr ⟨sound.held b old before live,other⟩
  followed := by
    refine List.pairwise_map.mpr (sound.followed.imp fun {later earlier} apart same l found => ?_)
    rw [Acquirer.release_lease] at same found ⊢
    rw [Acquirer.release_lease] at same
    exact apart same l (unlock_find?.mp found).1
  holders := by
    rw [List.map_map]
    have kept : ((fun a : Acquirer => a.lease.holder) ∘ Acquirer.release key holder) = fun a => a.lease.holder :=
      funext fun a => congrArg Lock.holder (a.release_lease key holder)
    rw [kept]
    exact sound.holders

theorem Sound.step (s : Election) (label : ElectionLabel) (next : Election) (sound : Sound s)
    (fresh : FreshHolder s label) (step : electionSystem.step s label = some next) : Sound next := by
  cases label with
  | tryLeaderLock key holder =>
    by_cases force : InForce s.locks s.now key
    · exact sound.refused force next step
    · exact sound.granted fresh force next step
  | unlock key holder =>
    simp only [electionSystem, Election.step] at step
    split at step
    · cases step
      exact sound.unlock key holder
    · cases step
  | advance elapsed =>
    cases step
    refine ⟨fun a member outstanding live => ?_,sound.followed,sound.holders⟩
    exact sound.held a member outstanding (Int.le_trans (Int.le_add_of_nonneg_right (Int.natCast_nonneg _)) live)

theorem Sound.leaders {s : Election} (sound : Sound s) (key : String) : (s.leaders key).length ≤ 1 := by
  cases first : s.leaders key with
  | nil => exact Nat.zero_le _
  | cons a rest =>
    have row : ∀ b ∈ s.leaders key, s.locks.find? key = some b.lease := by
      intro b member
      obtain ⟨present,on⟩ := List.mem_filter.mp member
      simp only [Bool.and_eq_true, decide_eq_true_eq, Bool.not_eq_true'] at on
      obtain ⟨⟨rfl,outstanding⟩,live⟩ := on
      exact sound.held b present outstanding live
    -- all leaders share the one row of the key, and holders do not repeat
    have one : (s.leaders key).map (fun b => b.lease.holder) =
        List.replicate (s.leaders key).length a.lease.holder := by
      refine List.eq_replicate_iff.mpr ⟨List.length_map _,fun h member => ?_⟩
      obtain ⟨b,leads,rfl⟩ := List.mem_map.mp member
      have same := (row b leads).symm.trans (row a (first ▸ List.mem_cons_self))
      rw [Option.some.inj same]
    have distinct : ((s.leaders key).map fun b => b.lease.holder).Nodup :=
      sound.holders.sublist (List.filter_sublist.map _)
    rw [one, List.nodup_replicate] at distinct
    rwa [← first]

theorem Sound.unlocked {s : Election} (sound : Sound s) :
    s.acquirers.Pairwise fun later earlier => later.lease.key = earlier.lease.key →
      Cockroach.unlock s.locks earlier.lease.key earlier.lease.holder = s.locks := by
  refine sound.followed.imp fun {later earlier} apart same => Table.delete_idle fun l member => ?_
  by_cases named : l.key = earlier.lease.key
  · have other := apart same l (named ▸ Table.find?_of_mem member)
    simp [other]
  · simp [named]

/-- In every state of every run, with distinct holder ids: a key has at most one acquirer
whose lease is in force, TryLeaderLock returns true exactly when no row in force is there,
and the unlock function of a holder whom another one has followed changes nothing. -/
theorem leader_lease_exclusive (now : Time) (trace : List ElectionLabel) (s : Election)
    (run : electionSystem.run (Election.start now) trace = some s)
    (fresh : electionSystem.Along FreshHolder (Election.start now) trace) : Exclusive s := by
  have sound := System.invariant FreshHolder Sound Sound.step run fresh (Sound.start now)
  exact ⟨sound.leaders,tryLeaderLock_acquires s.locks s.now,sound.unlocked⟩

/-- Worker 1 stalls for longer than its lease, worker 2 takes over, and only then worker 1
unlocks, twice. -/
def takeoverTrace : List ElectionLabel :=
  [.tryLeaderLock "janitor" 1, .advance 61000000000, .tryLeaderLock "janitor" 2,
   .unlock "janitor" 1, .unlock "janitor" 1]

def afterTakeover : Election :=
  ⟨61 * Duration.second, ⟨[⟨"janitor", 2, 121 * Duration.second⟩], by decide, by decide⟩,
    [⟨⟨"janitor", 2, 121 * Duration.second⟩, false⟩, ⟨⟨"janitor", 1, 60 * Duration.second⟩, true⟩]⟩

theorem leader_lease_exclusive_takeover :
    electionSystem.run (Election.start 0) takeoverTrace = some afterTakeover ∧
    electionSystem.Along FreshHolder (Election.start 0) takeoverTrace ∧ Exclusive afterTakeover :=
  have run : electionSystem.run (Election.start 0) takeoverTrace = some afterTakeover := rfl
  have fresh : electionSystem.Along FreshHolder (Election.start 0) takeoverTrace := by decide
  ⟨run,fresh,leader_lease_exclusive 0 takeoverTrace afterTakeover run fresh⟩

end Tickr.Cockroach
