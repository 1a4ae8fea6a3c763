import Tickr.FleetClock
import Tickr.PostgresDelays

/-! How long a lease lasts. Claim cuts the configured duration down to whole seconds, Extend
grants all of it, and the extender ticks at a third of it but not faster than ten times a
second. -/
namespace Tickr

open Postgres

/-! ### Whole seconds -/

section
variable {d : Int}

theorem wholeSeconds_eq (positive : 0 < d) : wholeSeconds d =
    Binary64.floor (Binary64.add (Binary64.ofNat (d.toNat / 1000000000))
      (Binary64.div (Binary64.ofNat (d.toNat % 1000000000)) (Binary64.ofNat 1000000000))) := by
  have size : d.natAbs = d.toNat := by omega
  rw [wholeSeconds, Int.sign_eq_one_of_pos positive, Int.one_mul, size]

/-- The nanoseconds below a second stay below it, even after rounding. -/
theorem nanoseconds_le (n : Nat) :
    Binary64.div (Binary64.ofNat (n % 1000000000)) (Binary64.ofNat 1000000000) ≤ (2 ^ 53 - 1) * 2 ^ 75 := by
  have below : n % 1000000000 < 1000000000 := Nat.mod_lt _ (by decide)
  apply Binary64.div_le (by omega) (by decide) (by decide) ⟨2 ^ 53 - 1,75,by decide,rfl⟩
  rw [Binary64.one]
  omega

theorem wholeSeconds_bounds (positive : 0 < d) (range : int64 d) :
    d / 1000000000 ≤ wholeSeconds d ∧ wholeSeconds d ≤ d / 1000000000 + 1 := by
  have seconds : d / 1000000000 = (d.toNat / 1000000000 : Nat) := by omega
  obtain ⟨_,high⟩ := range
  have small : d.toNat / 1000000000 + 1 ≤ 2 ^ 53 := by omega
  have proper := Nat.le_trans (nanoseconds_le d.toNat) (by decide : _ ≤ Binary64.one)
  rw [wholeSeconds_eq positive, seconds]
  rcases Binary64.floor_add small proper with same | next
  · rw [same]
    omega
  · rw [next]
    omega

theorem wholeSeconds_subsecond (positive : 0 < d) (short : d < 1000000000) : wholeSeconds d = 0 := by
  have none : d.toNat / 1000000000 = 0 := by omega
  have zero : Binary64.ofNat 0 = 0 := Binary64.ofNat_eq (by decide)
  rw [wholeSeconds_eq positive, none, zero, Binary64.add, Nat.zero_add]
  have capped : Binary64.round (Binary64.div (Binary64.ofNat (d.toNat % 1000000000)) (Binary64.ofNat 1000000000)) 1 ≤
      (2 ^ 53 - 1) * 2 ^ 75 :=
    Binary64.round_le Nat.one_pos ⟨2 ^ 53 - 1,75,by decide,rfl⟩
      (Nat.le_trans (nanoseconds_le d.toNat) (Nat.le_of_eq (Nat.mul_one _).symm))
  have floored : Binary64.floor (Binary64.round
      (Binary64.div (Binary64.ofNat (d.toNat % 1000000000)) (Binary64.ofNat 1000000000)) 1) = 0 :=
    Nat.div_eq_of_lt (Nat.lt_of_le_of_lt capped (by decide))
  rw [floored]
  rfl

/-- A third of a lease that counts in seconds, or the shortest interval, is less than its
whole seconds, and less than all of it. -/
theorem third_lt {seconds : Int} (long : 1000000000 ≤ d) (low : d / 1000000000 ≤ seconds) :
    max (d / 3) 100000000 < seconds * 1000000000 ∧ max (d / 3) 100000000 < d := by
  omega

end

/-! ### The three conversions of one duration -/

def EngineConfig.claimLease (cfg : EngineConfig) : Duration :=
  claimLeaseSec cfg.claimParams * Duration.second

def EngineConfig.extendLease (cfg : EngineConfig) : Duration := leaseOrDefault cfg.lease

theorem leaseOrDefault_long {d : Duration} :
    Duration.second ≤ leaseOrDefault d ↔ d ≤ 0 ∨ Duration.second ≤ d := by
  unfold leaseOrDefault
  split
  · exact ⟨fun _ => Or.inl ‹_›,fun _ => by decide⟩
  · exact ⟨Or.inr,fun long => long.resolve_left ‹_›⟩

theorem leaseOrDefault_int64 {d : Duration} (range : int64 d) : int64 (leaseOrDefault d) := by
  unfold leaseOrDefault
  split
  · exact ⟨by decide,by decide⟩
  · exact range

section
variable {cfg : EngineConfig}

theorem claimLease_eq : cfg.claimLease = wholeSeconds (leaseOrDefault cfg.lease) * Duration.second := by
  have nonzero : leaseOrDefault cfg.lease ≠ 0 := Int.ne_of_gt (leaseOrDefault_pos cfg.lease)
  exact congrArg (· * Duration.second) (if_neg nonzero)

theorem interval_lt_claimLease (range : int64 cfg.lease) (long : Duration.second ≤ leaseOrDefault cfg.lease) :
    cfg.extendInterval < cfg.claimLease := by
  rw [claimLease_eq]
  exact (third_lt long (wholeSeconds_bounds (leaseOrDefault_pos _) (leaseOrDefault_int64 range)).1).1

theorem interval_lt_extendLease (long : Duration.second ≤ leaseOrDefault cfg.lease) :
    cfg.extendInterval < cfg.extendLease := (third_lt long (Int.le_refl _)).2

/-- A lease below a second is cut down to nothing. -/
theorem claimLease_subsecond (short : leaseOrDefault cfg.lease < Duration.second) : cfg.claimLease = 0 := by
  rw [claimLease_eq, wholeSeconds_subsecond (leaseOrDefault_pos _) short, Int.zero_mul]

end

/-! ### Leases in the table -/

/-- A worker under `cfg` holds the row until `until_`. -/
structure HeldUntil (workerID : String) (until_ : Time) (r : Row) : Prop where
  handling : r.status = .handling
  owner : r.claimedBy = some workerID
  lease : r.claimedUntil = some until_

section
variable {pg : Postgres.Config} {s : Store pg} {env : Env} {k : Uuid}

theorem claim_held {p : ClaimParams} {m : InboundMessage} (returned : m ∈ (claim s env p).2)
    (named : m.id = .uuid k) : ∃ r, (claim s env p).1.row k = some r ∧
      HeldUntil p.workerID (claimTime s.messages env p + claimLeaseSec p * Duration.second) r := by
  obtain ⟨statement,shard,time,passes⟩ := claimPasses_at s.messages env p
  simp only [claim, Store.row, passes] at returned ⊢
  obtain ⟨r,stored,chosen,rfl⟩ := mem_claimSQL.mp returned
  obtain rfl : r.id = k := MessageID.uuid.inj named
  refine ⟨claimSet (env.now statement) p.workerID (claimLeaseSec p) r,?_,rfl,rfl,time ▸ rfl⟩
  rw [claimSQL_row, KeyedTable.Table.find?_of_mem stored, Option.map_some, KeyedTable.when,
    if_pos (decide_eq_true chosen)]

theorem extend_held {workerID : String} {r : Row} (found : s.row k = some r) (handling : r.status = .handling)
    (owner : r.claimedBy = some workerID) (next : Time) :
    ∃ r', (exec s env (.extend (.uuid k) workerID next)).1.row k = some r' ∧ HeldUntil workerID next r' := by
  have row : (exec s env (.extend (.uuid k) workerID next)).1.row k = _ :=
    extendSQL_row s.messages (env.now 0) k workerID next k
  have owned : owns k workerID r = true := owns_iff.mpr ⟨Store.row_id found,handling,owner⟩
  have found' : s.messages.find? k = some r := found
  rw [found', Option.map_some, KeyedTable.when, if_pos owned] at row
  exact ⟨_,row,handling,owner,rfl⟩

end

/-- Each extension follows the one before, or the claim, within one interval. -/
def OnSchedule (interval : Duration) : Time → List (Env × Time) → Prop
  | _, [] => True
  | last, (_, t) :: rest => last ≤ t ∧ t ≤ last + interval ∧ OnSchedule interval t rest

def lastRenewal (start : Time) (ticks : List (Env × Time)) : Time := (ticks.getLast?.map Prod.snd).getD start

/-- What the extender sends when its ticker fires. -/
def EngineConfig.renewals (cfg : EngineConfig) (id : MessageID) (ticks : List (Env × Time)) : List (Env × Call) :=
  ticks.map fun tick => (tick.1, .extend id cfg.workerID (tick.2 + cfg.extendLease))

/-- The ticks that have fired at `now`. -/
def firedBy (now : Time) (ticks : List (Env × Time)) : List (Env × Time) := ticks.takeWhile fun tick => tick.2 ≤ now

/-- From a claim on, whose extensions run on schedule and reach the table, the lease is at
no moment in the past. -/
def LeaseKept (cfg : EngineConfig) (pg : Postgres.Config) : Prop :=
  ∀ (s : Store pg) env m k, m ∈ (claim s env cfg.claimParams).2 → m.id = .uuid k →
    ∀ ticks, OnSchedule cfg.extendInterval (claimTime s.messages env cfg.claimParams) ticks →
    ∀ now, now ≤ lastRenewal (claimTime s.messages env cfg.claimParams) ticks + cfg.extendInterval →
    ∃ r u, (execute (claim s env cfg.claimParams).1 (cfg.renewals m.id (firedBy now ticks))).row k = some r ∧
      r.claimedUntil = some u ∧ ¬u < now

theorem lastRenewal_cons (start : Time) (env : Env) (t : Time) (rest : List (Env × Time)) :
    lastRenewal start ((env,t) :: rest) = lastRenewal t rest := by
  cases rest with
  | nil => rfl
  | cons tick rest =>
    simp only [lastRenewal, List.getLast?_cons_cons]
    cases last : (tick :: rest).getLast? with
    | none => simp at last
    | some => rfl

/-- At any moment the last extension that has run is at most one interval ago. -/
theorem firedBy_recent {interval : Duration} {now : Time} (ticks : List (Env × Time)) (start : Time)
    (schedule : OnSchedule interval start ticks) (early : now ≤ lastRenewal start ticks + interval) :
    now ≤ lastRenewal start (firedBy now ticks) + interval := by
  induction ticks generalizing start with
  | nil => exact early
  | cons tick rest ih =>
    obtain ⟨env,t⟩ := tick
    obtain ⟨_,close,later⟩ := schedule
    rw [lastRenewal_cons] at early
    by_cases fired : t ≤ now
    · have first : firedBy now ((env,t) :: rest) = (env,t) :: firedBy now rest := by
        simp [firedBy, fired]
      rw [first, lastRenewal_cons]
      exact ih t later early
    · have none : firedBy now ((env,t) :: rest) = [] := by
        simp [firedBy, fired]
      rw [none]
      exact Int.le_trans (Int.le_of_lt (Int.not_le.mp fired)) close

theorem renewals_held {cfg : EngineConfig} {pg : Postgres.Config} {k : Uuid}
    (outlives : cfg.extendInterval < cfg.extendLease) (ticks : List (Env × Time)) (s : Store pg) (last u : Time)
    (r : Row) (found : s.row k = some r) (held : HeldUntil cfg.workerID u r) (ahead : last + cfg.extendInterval < u) :
    ∃ r u, (execute s (cfg.renewals (.uuid k) ticks)).row k = some r ∧ r.claimedUntil = some u ∧
      lastRenewal last ticks + cfg.extendInterval < u := by
  induction ticks generalizing s last u r with
  | nil => exact ⟨r,u,found,held.lease,ahead⟩
  | cons tick rest ih =>
    obtain ⟨env,t⟩ := tick
    obtain ⟨r',found',held'⟩ := @extend_held pg s env k _ _ found held.handling held.owner (t + cfg.extendLease)
    rw [lastRenewal_cons]
    exact ih _ t _ r' found' held' (Int.add_lt_add_left outlives t)

theorem lease_kept {cfg : EngineConfig} (pg : Postgres.Config) (claimed : cfg.extendInterval < cfg.claimLease)
    (extended : cfg.extendInterval < cfg.extendLease) : LeaseKept cfg pg := by
  intro s env m k returned named ticks schedule now early
  obtain ⟨r,found,held⟩ := claim_held returned named
  obtain ⟨r',u,found',lease,ahead⟩ := renewals_held extended (firedBy now ticks) _ _ _ r found held
    (Int.add_lt_add_left claimed _)
  have recent := firedBy_recent ticks _ schedule early
  rw [named]
  exact ⟨r',u,found',lease,Int.not_lt.mpr (Int.le_of_lt (Int.lt_of_le_of_lt recent ahead))⟩

/-- Both leases outlive the interval at which they are renewed, and so an attempt that is
renewed on schedule never loses its lease. -/
structure LeaseOutlives (cfg : EngineConfig) : Prop where
  claimed : cfg.extendInterval < cfg.claimLease
  extended : cfg.extendInterval < cfg.extendLease
  kept : ∀ pg, LeaseKept cfg pg

/-- Claim and Extend grant these two leases, and they outlive the renewal interval exactly
if the configured lease is the default or at least one second. -/
theorem lease_outlives_iff (cfg : EngineConfig) (range : int64 cfg.lease) :
    (∀ {pg : Postgres.Config} (s : Store pg) env m k, m ∈ (claim s env cfg.claimParams).2 → m.id = .uuid k →
      ∃ r, (claim s env cfg.claimParams).1.row k = some r ∧
        r.claimedUntil = some (claimTime s.messages env cfg.claimParams + cfg.claimLease)) ∧
    (∀ {pg : Postgres.Config} (s : Store pg) env k r clock, s.row k = some r → r.status = .handling →
      r.claimedBy = some cfg.workerID →
      ∃ r', (exec s env (.extend (.uuid k) cfg.workerID (clock + leaseOrDefault cfg.lease))).1.row k = some r' ∧
        r'.claimedUntil = some (clock + cfg.extendLease)) ∧
    (LeaseOutlives cfg ↔ cfg.lease ≤ 0 ∨ Duration.second ≤ cfg.lease) := by
  rw [← leaseOrDefault_long]
  refine ⟨?_,?_,?_,fun long => ?_⟩
  · intro pg s env m k returned named
    obtain ⟨r,found,held⟩ := claim_held returned named
    exact ⟨r,found,held.lease⟩
  · intro pg s env k r clock found handling owner
    obtain ⟨r',found',held⟩ := @extend_held pg s env k _ _ found handling owner (clock + leaseOrDefault cfg.lease)
    exact ⟨r',found',held.lease⟩
  · intro outlives
    by_contra short
    have claimed := outlives.claimed
    rw [claimLease_subsecond (Int.not_le.mp short)] at claimed
    exact absurd claimed (Int.not_lt.mpr (Int.le_of_lt (extendInterval_pos cfg)))
  · have claimed := interval_lt_claimLease range long
    have extended := interval_lt_extendLease long
    exact ⟨claimed,extended,fun pg => lease_kept pg claimed extended⟩

theorem lease_outlives_iff_mailer : int64 mailer.lease ∧ LeaseOutlives mailer :=
  ⟨⟨by decide,by decide⟩,(lease_outlives_iff mailer ⟨by decide,by decide⟩).2.2.mpr (Or.inr (by decide))⟩

def halfSecond : EngineConfig := { mailer with lease := 500 * Duration.millisecond }

/-- The lease of a claim at 6 has run out at 7, long before the first tick of the extender,
and the reclaimer takes the message away. -/
theorem lease_outlived :
    int64 halfSecond.lease ∧ halfSecond.extendInterval = 166666666 ∧ halfSecond.claimLease = 0 ∧
    ((execute (Store.empty : Store ⟨false, .full⟩)
      [(Env.quiet 5 7, .enqueue (plainParams "mail" 3)), (Env.quiet 6 0, .claim halfSecond.claimParams)]).row 7).map
        Row.claimedUntil = some (some 6) ∧
    ((execute (Store.empty : Store ⟨false, .full⟩)
      [(Env.quiet 5 7, .enqueue (plainParams "mail" 3)), (Env.quiet 6 0, .claim halfSecond.claimParams),
       (Env.quiet 7 0, .reclaimExpired 500)]).row 7).map Row.status = some .retrying ∧
    ¬LeaseOutlives halfSecond := by
  refine ⟨⟨by decide,by decide⟩,by decide,by decide,by decide +kernel,by decide +kernel,fun outlives => ?_⟩
  exact absurd outlives.claimed (by decide)

end Tickr
