import Tickr.PostgresRows

/-! Which rows a Claim takes: the first of one random shard by process_at and id, or the
first of all shards if nothing is due in that one. -/
namespace Tickr.Postgres

open KeyedTable

variable {cfg : Config}

/-- Unlocked, pending and due, of a type that the claim asks for. -/
def Due (env : Env) (statement : Nat) (p : ClaimParams) (r : Row) : Prop :=
  env.locked statement r.id = false ∧ (r.status = .created ∨ r.status = .retrying) ∧
    r.processAt ≤ env.now statement ∧ (p.eventTypes = [] ∨ r.eventType ∈ p.eventTypes)

instance (env : Env) (statement : Nat) (p : ClaimParams) : DecidablePred (Due env statement p) :=
  fun _ => inferInstanceAs (Decidable (_ ∧ _ ∧ _ ∧ _))

def dueRows (messages : Messages cfg) (env : Env) (statement : Nat) (p : ClaimParams) : List Row :=
  messages.rows.filter fun r => Due env statement p r

/-- The due rows of the random shard. -/
def dueInShard (messages : Messages cfg) (env : Env) (p : ClaimParams) : List Row :=
  (dueRows messages env 0 p).filter fun r => r.shard = env.pickShard 0

/-! ### The order -/

instance : Std.Total claimOrder :=
  ⟨fun a b => by
    unfold claimOrder
    rcases Int.lt_trichotomy a.processAt b.processAt with less | same | more
    · exact Or.inl (Or.inl less)
    · rcases Nat.le_total a.id b.id with low | high
      · exact Or.inl (Or.inr ⟨same,low⟩)
      · exact Or.inr (Or.inr ⟨same.symm,high⟩)
    · exact Or.inr (Or.inl more)⟩

instance : IsTrans Row claimOrder :=
  ⟨fun a b c first second => by
    unfold claimOrder at first second ⊢
    rcases first with less | ⟨same,low⟩
    · rcases second with less' | ⟨same',_⟩
      · exact Or.inl (Int.lt_trans less less')
      · exact Or.inl (same' ▸ less)
    · rcases second with less' | ⟨same',low'⟩
      · exact Or.inl (same ▸ less')
      · exact Or.inr ⟨same.trans same',Nat.le_trans low low'⟩⟩

/-! ### One pass -/

theorem claimTypes_all {p : ClaimParams} {eventType : String} :
    (claimTypes p).all (fun types => decide (eventType ∈ types)) = true ↔
      p.eventTypes = [] ∨ eventType ∈ p.eventTypes := by
  unfold claimTypes
  split <;> simp [*]

theorem eligible_due {env : Env} {statement : Nat} {p : ClaimParams} {shard : Option Int} {r : Row} :
    eligible env statement (claimTypes p) shard r = true ↔
      Due env statement p r ∧ shard.all (fun s => decide (r.shard = s)) = true := by
  simp only [eligible, Due, Bool.and_eq_true, decide_eq_true_eq, claimTypes_all, Status.pending_iff,
    Bool.not_eq_true']
  constructor
  · rintro ⟨⟨⟨⟨pending,inShard⟩,due⟩,typed⟩,unlocked⟩
    exact ⟨⟨unlocked,pending,due,typed⟩,inShard⟩
  · rintro ⟨⟨unlocked,pending,due,typed⟩,inShard⟩
    exact ⟨⟨⟨⟨pending,inShard⟩,due⟩,typed⟩,unlocked⟩

theorem eligible_anyShard (messages : Messages cfg) (env : Env) (statement : Nat) (p : ClaimParams) :
    messages.rows.filter (eligible env statement (claimTypes p) none) = dueRows messages env statement p := by
  apply List.filter_congr
  intro r _
  rw [Bool.eq_iff_iff, eligible_due]
  simp

theorem eligible_inShard (messages : Messages cfg) (env : Env) (p : ClaimParams) :
    messages.rows.filter (eligible env 0 (claimTypes p) (some (env.pickShard 0))) = dueInShard messages env p := by
  rw [dueInShard, dueRows, List.filter_filter]
  apply List.filter_congr
  intro r _
  rw [Bool.eq_iff_iff, eligible_due]
  simp [and_comm]

/-- What a pass over the `candidates` did: it chose the first of them, they are under claim
from `now` on, nothing else has changed, and they are what it returned. -/
structure Pass (messages after : Messages cfg) (p : ClaimParams) (msgs : List InboundMessage) (now : Time)
    (candidates chosen : List Row) : Prop where
  smallest : Smallest claimOrder p.batch.toNat candidates chosen
  taken : ∀ r ∈ chosen, messages.find? r.id = some r ∧ after.find? r.id = some
    { r with
      status := .handling
      attempt := r.attempt + 1
      claimedBy := some p.workerID
      claimedUntil := some (now + claimLeaseSec p * Duration.second)
      updatedAt := now }
  others : ∀ k, (∀ r ∈ chosen, r.id ≠ k) → after.find? k = messages.find? k
  returned : msgs.Perm (chosen.map fun r =>
    { scanMessage r with attempt := r.attempt + 1, status := some .handling })

theorem claimSQL_pass (messages : Messages cfg) (env : Env) (statement : Nat) (p : ClaimParams)
    (shard : Option Int) (positive : 1 ≤ p.batch) :
    ∃ chosen, Pass messages
      (claimSQL messages env statement (claimTypes p) (claimBatch p) p.workerID (claimLeaseSec p) shard).1 p
      (claimSQL messages env statement (claimTypes p) (claimBatch p) p.workerID (claimLeaseSec p) shard).2
      (env.now statement) (messages.rows.filter (eligible env statement (claimTypes p) shard)) chosen := by
  have batch : claimBatch p = p.batch.toNat := if_neg (by omega)
  have distinct : messages.rows.Nodup := messages.primary.of_map _
  have smallest : Smallest claimOrder p.batch.toNat _ _ :=
    take_smallest (distinct.filter (eligible env statement (claimTypes p) shard)) p.batch.toNat
  rw [batch]
  generalize firsts : ((messages.rows.filter (eligible env statement (claimTypes p) shard)).insertionSort
    claimOrder).take p.batch.toNat = chosen at smallest
  have ids : claimChosen messages env statement (claimTypes p) p.batch.toNat shard = chosen.map Row.id :=
    congrArg (List.map Row.id) firsts
  have stored {r : Row} (listed : r ∈ chosen) : r ∈ messages.rows :=
    (List.mem_filter.mp (smallest.subset listed)).1
  refine ⟨chosen,smallest,fun r listed => ⟨Table.find?_of_mem (stored listed),?_⟩,fun k apart => ?_,?_⟩
  · rw [claimSQL_row, Table.find?_of_mem (stored listed), Option.map_some, when,
      if_pos (decide_eq_true (ids ▸ List.mem_map_of_mem listed))]
    rfl
  · rw [claimSQL_row]
    apply map_when_same
    intro r found
    apply decide_eq_false
    rw [ids, List.mem_map]
    rintro ⟨r',listed,same⟩
    exact apart r' listed (same.trans (Table.find?_key found))
  · refine (List.perm_ext_iff_of_nodup ?_ ?_).mpr fun m => ?_
    · exact claimSQL_nodup.of_map _
    · apply smallest.nodup.map_on
      intro a left b right same
      exact List.inj_on_of_nodup_map messages.primary (stored left) (stored right)
        (MessageID.uuid.inj (congrArg InboundMessage.id same))
    · rw [mem_claimSQL, ids, List.mem_map]
      constructor
      · rintro ⟨r,member,named,rfl⟩
        obtain ⟨r',listed,same⟩ := List.mem_map.mp named
        cases List.inj_on_of_nodup_map messages.primary (stored listed) member same
        exact ⟨_,listed,rfl⟩
      · rintro ⟨r,listed,rfl⟩
        exact ⟨r,stored listed,List.mem_map_of_mem listed,rfl⟩

/-- A pass comes back empty only from nothing. -/
theorem Pass.nothing {messages after : Messages cfg} {p : ClaimParams} {msgs : List InboundMessage} {now : Time}
    {candidates chosen : List Row} (pass : Pass messages after p msgs now candidates chosen) (positive : 1 ≤ p.batch) :
    (msgs = [] ↔ candidates = []) ∧ (chosen = [] ↔ candidates = []) := by
  have none := pass.smallest.eq_nil_iff (by omega)
  have same : msgs = [] ↔ chosen = [] := by
    rw [← List.length_eq_zero_iff, pass.returned.length_eq, List.length_map, List.length_eq_zero_iff]
  exact ⟨same.trans none,none⟩

/-! ### Both passes -/

/-- A Claim takes the first rows that are due in the random shard, or of all that are due
if there are none in that shard; what is due at either statement it reads off that
statement's own time and locks. So it comes back empty only if nothing is due. -/
theorem claim_selects (s : Store cfg) (env : Env) (p : ClaimParams) (positive : 1 ≤ p.batch) :
    ∃ chosen,
      (dueInShard s.messages env p ≠ [] →
        Pass s.messages (claim s env p).1.messages p (claim s env p).2 (env.now 0) (dueInShard s.messages env p)
          chosen) ∧
      (dueInShard s.messages env p = [] →
        Pass s.messages (claim s env p).1.messages p (claim s env p).2 (env.now 1) (dueRows s.messages env 1 p)
          chosen) ∧
      (env.now 0 = env.now 1 → env.locked 0 = env.locked 1 →
        (chosen = [] ↔ dueRows s.messages env 0 p = [])) := by
  obtain ⟨inShard,first⟩ := claimSQL_pass s.messages env 0 p (some (env.pickShard 0)) positive
  obtain ⟨anywhere,second⟩ := claimSQL_pass s.messages env 1 p none positive
  rw [eligible_inShard] at first
  rw [eligible_anyShard] at second
  have nothing := (first.nothing positive).1
  by_cases empty : dueInShard s.messages env p = []
  · have passes : claimPasses s.messages env p =
        claimSQL s.messages env 1 (claimTypes p) (claimBatch p) p.workerID (claimLeaseSec p) none := by
      unfold claimPasses
      dsimp only
      rw [if_pos (nothing.mpr empty), claimSQL_nil (nothing.mpr empty)]
    refine ⟨anywhere,fun some_ => absurd empty some_,fun _ => ?_,fun time locks => ?_⟩
    · simp only [claim, passes]
      exact second
    · have same : dueRows s.messages env 0 p = dueRows s.messages env 1 p :=
        List.filter_congr fun r _ => decide_eq_decide.mpr (by rw [Due, Due, time, locks])
      rw [same]
      exact (second.nothing positive).2
  · have passes : claimPasses s.messages env p = claimSQL s.messages env 0 (claimTypes p) (claimBatch p)
        p.workerID (claimLeaseSec p) (some (env.pickShard 0)) := by
      unfold claimPasses
      dsimp only
      exact if_neg fun none => empty (nothing.mp none)
    refine ⟨inShard,fun _ => ?_,fun none => absurd none empty,fun _ _ => ?_⟩
    · simp only [claim, passes]
      exact first
    · have some_ : dueRows s.messages env 0 p ≠ [] := by
        intro none
        rw [dueInShard, none] at empty
        exact empty rfl
      exact iff_of_false (fun none => empty ((first.nothing positive).2.mp none)) some_

/-- Two due messages, of which the one enqueued last is due first. -/
def twoDue : Store ⟨false, .full⟩ :=
  (enqueue (enqueue Store.empty (Env.quiet 5 7) { plainParams "mail" 3 with processAt := some 2 }).1 (Env.quiet 5 8)
    { plainParams "mail" 3 with processAt := some 1 }).1

def claimOne : ClaimParams := ⟨"w", 1, 30 * Duration.second, ["mail"]⟩

theorem claim_selects_earliest :
    (claim twoDue (Env.quiet 6 0) claimOne).2.map InboundMessage.id = [.uuid 8] ∧
    dueInShard twoDue.messages (Env.quiet 6 0) claimOne ≠ [] ∧
    ∃ chosen, Pass twoDue.messages (claim twoDue (Env.quiet 6 0) claimOne).1.messages claimOne
      (claim twoDue (Env.quiet 6 0) claimOne).2 6 (dueInShard twoDue.messages (Env.quiet 6 0) claimOne) chosen := by
  have some_ : dueInShard twoDue.messages (Env.quiet 6 0) claimOne ≠ [] := by decide +kernel
  obtain ⟨chosen,inShard,_⟩ := claim_selects twoDue (Env.quiet 6 0) claimOne (by decide)
  exact ⟨by decide +kernel,some_,chosen,inShard some_⟩

end Tickr.Postgres
