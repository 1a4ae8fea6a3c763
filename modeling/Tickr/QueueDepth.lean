import Mathlib.Data.List.AList
import Mathlib.Data.List.Dedup
import Tickr.Postgres

/-! The queue-depth gauges. Each sample reports the groups of one aggregate query, and a
group without rows is not in its result: the gauge of a pair whose rows have all gone keeps
what an earlier sample has reported. -/
namespace Tickr

open KeyedTable

abbrev Depths := AList fun _ : Status => Nat

structure Stats where
  byStatus : Depths
  byEventType : AList fun _ : String => Depths
  sampledAt : Time

/-- `ByEventType[eventType][status]`, if it is there. -/
def Stats.depth? (stats : Stats) (eventType : String) (status : Status) : Option Nat :=
  (stats.byEventType.lookup eventType).bind (AList.lookup status)

/-- A row of the aggregate query, and a call of `Metrics.QueueDepth`. -/
structure StatsRow where
  eventType : String
  status : Status
  count : Nat
  deriving DecidableEq, Repr

def StatsRow.names (row : StatsRow) (eventType : String) (status : Status) : Bool :=
  row.eventType = eventType && row.status = status

/-- The loop body of Stats. -/
def Stats.add (out : Stats) (row : StatsRow) : Stats :=
  { out with
    byStatus := out.byStatus.insert row.status ((out.byStatus.lookup row.status).getD 0 + row.count)
    byEventType := out.byEventType.insert row.eventType
      (((out.byEventType.lookup row.eventType).getD ∅).insert row.status row.count) }

section
variable {cfg : Postgres.Config}

/-- The number of rows with this event type and status. -/
def Postgres.depth (messages : Messages cfg) (eventType : String) (status : Status) : Nat :=
  messages.rows.countP fun r => r.eventType = eventType && r.status = status

def Postgres.statsSQL (messages : Messages cfg) (order : Scan (String × Status)) : List StatsRow :=
  (order.visit (messages.rows.map fun r => (r.eventType, r.status)).dedup).map fun group =>
    ⟨group.1, group.2, depth messages group.1 group.2⟩

/-- `Stats` without an SQL error. -/
def Postgres.stats (messages : Messages cfg) (order : Scan (String × Status)) (clock : Time) : Stats :=
  (statsSQL messages order).foldl Stats.add ⟨∅, ∅, clock⟩

end

/-- The value last set for each pair: `Set` of the Prometheus gauge, the map of the
OpenTelemetry one. -/
abbrev Gauges := String → Status → Option Nat

def Gauges.queueDepth (g : Gauges) (report : StatsRow) : Gauges := fun eventType status =>
  if report.names eventType status then some report.count else g eventType status

/-- The order in which Go happens to range over the maps of one Stats. -/
structure RangeOrder where
  types : Scan (Σ _ : String, Depths)
  statuses : String → Scan (Σ _ : Status, Nat)

def Stats.reports (stats : Stats) (order : RangeOrder) : List StatsRow :=
  (order.types.visit stats.byEventType.entries).flatMap fun byStatus =>
    ((order.statuses byStatus.1).visit byStatus.2.entries).map fun depth => ⟨byStatus.1, depth.1, depth.2⟩

/-- `sampleStats`, given what TryLeaderLock and Stats return. -/
def sampleStats (g : Gauges) (lock : Except StoreError Bool) (stats : Except StoreError Stats)
    (order : RangeOrder) : Gauges :=
  match lock, stats with
  | .ok true, .ok stats => (stats.reports order).foldl Gauges.queueDepth g
  | _, _ => g

/-- One sample under the leader lock: the table that Stats sees, and the orders in which
the database and the process happen to go through it. -/
structure Sample (cfg : Postgres.Config) where
  messages : Postgres.Messages cfg
  clock : Time
  groups : Scan (String × Status)
  order : RangeOrder

section
variable {cfg : Postgres.Config}

def Sample.take (g : Gauges) (a : Sample cfg) : Gauges :=
  sampleStats g (.ok true) (.ok (Postgres.stats a.messages a.groups a.clock)) a.order

/-- The gauges of a worker after some samples. -/
def sampled (samples : List (Sample cfg)) : Gauges := samples.foldl Sample.take fun _ _ => none

/-- A pair that was never reported counts as 0. -/
def Follows (g : Gauges) (messages : Postgres.Messages cfg) : Prop :=
  ∀ eventType status, (g eventType status).getD 0 = Postgres.depth messages eventType status

/-! ### One sample -/

/-- Writes that agree on what stands at each pair leave just that, in whatever order. -/
theorem read_foldl {σ : Type} (write : σ → StatsRow → σ) (read : σ → String → Status → Option Nat)
    (writes : ∀ s row eventType status, read (write s row) eventType status =
      if row.names eventType status then some row.count else read s eventType status)
    (count : String → Status → Nat) (eventType : String) (status : Status) {rows : List StatsRow}
    (agree : ∀ row ∈ rows, row.count = count row.eventType row.status) (s : σ) :
    read (rows.foldl write s) eventType status =
      if rows.any (StatsRow.names · eventType status) then some (count eventType status)
      else read s eventType status := by
  induction rows generalizing s with
  | nil => rfl
  | cons row rest ih =>
    rw [List.foldl_cons, ih (fun r member => agree r (List.mem_cons_of_mem _ member)), writes, List.any_cons]
    by_cases named : row.names eventType status = true
    · have value : row.count = count eventType status := by
        simp only [StatsRow.names, Bool.and_eq_true, decide_eq_true_eq] at named
        rw [agree row List.mem_cons_self, named.1, named.2]
      simp [named, value]
    · simp [named]

theorem Stats.add_depth? (out : Stats) (row : StatsRow) (eventType : String) (status : Status) :
    (out.add row).depth? eventType status =
      if row.names eventType status then some row.count else out.depth? eventType status := by
  unfold Stats.depth? Stats.add StatsRow.names
  by_cases sameType : eventType = row.eventType
  · subst sameType
    by_cases sameStatus : status = row.status
    · subst sameStatus
      simp
    · rw [AList.lookup_insert, Option.bind_some, AList.lookup_insert_ne sameStatus]
      cases out.byEventType.lookup row.eventType <;> simp [Ne.symm sameStatus]
  · rw [AList.lookup_insert_ne sameType]
    simp [Ne.symm sameType]

namespace Postgres

theorem depth_pos {messages : Messages cfg} {eventType : String} {status : Status} :
    0 < depth messages eventType status ↔
      (eventType,status) ∈ (messages.rows.map fun r => (r.eventType, r.status)) := by
  simp [depth, List.countP_pos_iff]

theorem statsSQL_names (messages : Messages cfg) (order : Scan (String × Status)) (eventType : String)
    (status : Status) :
    (statsSQL messages order).any (StatsRow.names · eventType status) =
      decide (0 < depth messages eventType status) := by
  rw [Bool.eq_iff_iff, List.any_eq_true, decide_eq_true_eq, depth_pos]
  simp only [statsSQL, List.mem_map, Scan.mem_visit, List.mem_dedup, StatsRow.names, Bool.and_eq_true,
    decide_eq_true_eq]
  constructor
  · rintro ⟨_,⟨group,member,rfl⟩,rfl,rfl⟩
    exact member
  · intro member
    exact ⟨_,⟨(eventType,status),member,rfl⟩,rfl,rfl⟩

theorem stats_depth? (messages : Messages cfg) (order : Scan (String × Status)) (clock : Time)
    (eventType : String) (status : Status) :
    (stats messages order clock).depth? eventType status =
      if 0 < depth messages eventType status then some (depth messages eventType status) else none := by
  have agree : ∀ row ∈ statsSQL messages order, row.count = depth messages row.eventType row.status := by
    intro row member
    obtain ⟨group,_,rfl⟩ := List.mem_map.mp member
    rfl
  rw [stats, read_foldl Stats.add Stats.depth? Stats.add_depth? (depth messages) eventType status agree,
    statsSQL_names]
  simp [Stats.depth?]

end Postgres

theorem Stats.mem_reports {stats : Stats} {order : RangeOrder} {row : StatsRow} :
    row ∈ stats.reports order ↔ stats.depth? row.eventType row.status = some row.count := by
  simp only [Stats.reports, List.mem_flatMap, List.mem_map, Scan.mem_visit, Stats.depth?,
    Option.bind_eq_some_iff]
  constructor
  · rintro ⟨byStatus,outer,depth,inner,rfl⟩
    exact ⟨byStatus.2,AList.mem_lookup_iff.mpr outer,AList.mem_lookup_iff.mpr inner⟩
  · rintro ⟨byStatus,outer,inner⟩
    exact ⟨⟨row.eventType,byStatus⟩,AList.mem_lookup_iff.mp outer,⟨row.status,row.count⟩,
      AList.mem_lookup_iff.mp inner,rfl⟩

/-- A sample sets the gauges of the pairs that have rows and no others. -/
theorem Sample.take_gauge (g : Gauges) (a : Sample cfg) (eventType : String) (status : Status) :
    Sample.take g a eventType status =
      if 0 < Postgres.depth a.messages eventType status then some (Postgres.depth a.messages eventType status)
      else g eventType status := by
  have reported : ∀ row, row ∈ (Postgres.stats a.messages a.groups a.clock).reports a.order ↔
      0 < Postgres.depth a.messages row.eventType row.status ∧
        row.count = Postgres.depth a.messages row.eventType row.status := by
    intro row
    rw [Stats.mem_reports, Postgres.stats_depth?]
    split
    · rename_i filled
      simp [filled, eq_comm]
    · rename_i drained
      simp [drained]
  have named : ((Postgres.stats a.messages a.groups a.clock).reports a.order).any
      (StatsRow.names · eventType status) = decide (0 < Postgres.depth a.messages eventType status) := by
    rw [Bool.eq_iff_iff, List.any_eq_true, decide_eq_true_eq]
    constructor
    · rintro ⟨row,member,names⟩
      simp only [StatsRow.names, Bool.and_eq_true, decide_eq_true_eq] at names
      rw [← names.1, ← names.2]
      exact ((reported row).mp member).1
    · intro filled
      exact ⟨⟨eventType,status,Postgres.depth a.messages eventType status⟩,(reported _).mpr ⟨filled,rfl⟩,
        by simp [StatsRow.names]⟩
  simp only [Sample.take, sampleStats]
  rw [read_foldl Gauges.queueDepth (fun g => g) (fun _ _ _ _ => rfl) (Postgres.depth a.messages) eventType
    status (fun row member => ((reported row).mp member).2), named]
  simp

/-! ### Whole sequences -/

/-- A gauge that has shown rows once never shows 0 again. -/
theorem sampled_positive (samples : List (Sample cfg)) (eventType : String) (status : Status) (g : Gauges) :
    ((samples.foldl Sample.take g) eventType status).getD 0 ≠ 0 ↔
      (∃ a ∈ samples, 0 < Postgres.depth a.messages eventType status) ∨ (g eventType status).getD 0 ≠ 0 := by
  induction samples generalizing g with
  | nil => simp
  | cons a rest ih =>
    rw [List.foldl_cons, ih, Sample.take_gauge]
    by_cases filled : 0 < Postgres.depth a.messages eventType status
    · simp [filled, Nat.pos_iff_ne_zero.mp filled]
    · simp [filled]

/-- After a sample, the gauges agree with its table exactly if no pair of an earlier sample
has run empty in it. -/
theorem follows_iff (earlier : List (Sample cfg)) (a : Sample cfg) :
    Follows (sampled (earlier ++ [a])) a.messages ↔ ∀ b ∈ earlier, ∀ eventType status,
      0 < Postgres.depth b.messages eventType status → 0 < Postgres.depth a.messages eventType status := by
  have value (eventType : String) (status : Status) :
      ((sampled (earlier ++ [a])) eventType status).getD 0 = Postgres.depth a.messages eventType status ↔
        0 < Postgres.depth a.messages eventType status ∨ (sampled earlier eventType status).getD 0 = 0 := by
    rw [sampled, List.foldl_append, List.foldl_cons, List.foldl_nil, Sample.take_gauge]
    by_cases filled : 0 < Postgres.depth a.messages eventType status
    · simp [filled]
    · rw [if_neg filled, Nat.eq_zero_of_not_pos filled]
      simp [sampled]
  have shown (eventType : String) (status : Status) := sampled_positive earlier eventType status fun _ _ => none
  constructor
  · intro follows b member eventType status before
    rcases (value eventType status).mp (follows eventType status) with now | zero
    · exact now
    · exact absurd zero ((shown eventType status).mpr (Or.inl ⟨b,member,before⟩))
  · intro lasting eventType status
    refine (value eventType status).mpr ?_
    by_cases zero : (sampled earlier eventType status).getD 0 = 0
    · exact Or.inr zero
    · rcases (shown eventType status).mp zero with ⟨b,member,before⟩ | impossible
      · exact Or.inl (lasting b member eventType status before)
      · exact absurd rfl impossible

/-- The gauges agree with the table after every sample exactly if every pair that has rows
in one sample has rows in all later ones. -/
theorem gauges_follow_iff (samples : List (Sample cfg)) :
    (∀ earlier a later, samples = earlier ++ a :: later → Follows (sampled (earlier ++ [a])) a.messages) ↔
      samples.Pairwise fun a b => ∀ eventType status,
        0 < Postgres.depth a.messages eventType status → 0 < Postgres.depth b.messages eventType status := by
  constructor
  · intro follows
    refine List.pairwise_iff_getElem.mpr fun i j hi hj before => ?_
    have parts : samples = samples.take j ++ samples[j] :: samples.drop (j + 1) := by
      rw [List.getElem_cons_drop, List.take_append_drop]
    have member : samples[i] ∈ samples.take j :=
      List.mem_take_iff_getElem.mpr ⟨i,Nat.lt_min.mpr ⟨before,hi⟩,rfl⟩
    exact (follows_iff _ _).mp (follows _ _ _ parts) _ member
  · rintro lasting earlier a later rfl
    refine (follows_iff earlier a).mpr fun b member => ?_
    exact (List.pairwise_append.mp lasting).2.2 b member a List.mem_cons_self

end

def plainSample (messages : Postgres.Messages ⟨false, .full⟩) : Sample ⟨false, .full⟩ where
  messages := messages
  clock := 0
  groups := .physical _
  order := ⟨.physical _, fun _ => .physical _⟩

/-- One new message, which is gone by the next sample. -/
def drainedSamples : List (Sample ⟨false, .full⟩) :=
  [plainSample (Postgres.enqueue Postgres.Store.empty (Env.quiet 5 7) (plainParams "mail" 3)).1.messages,
   plainSample empty]

/-- The gauge of a drained queue keeps its last depth. -/
theorem gauges_stale :
    sampled drainedSamples "mail" .created = some 1 ∧
    ¬∀ earlier a later, drainedSamples = earlier ++ a :: later →
      Follows (sampled (earlier ++ [a])) a.messages := by
  have kept : sampled drainedSamples "mail" .created = some 1 := by decide +kernel
  refine ⟨kept,fun follows => ?_⟩
  have last : Follows (sampled drainedSamples) (plainSample empty).messages :=
    follows [_] (plainSample empty) [] rfl
  have shown := last "mail" .created
  rw [kept] at shown
  cases shown

end Tickr
