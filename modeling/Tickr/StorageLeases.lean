import Tickr.Lease
import Tickr.Storage

/-! The message table read as leases, for either adapter: HANDLING is held, the counter
and the claimant are the token, and the messages that Claim returns are the grants. -/
namespace Tickr

open KeyedTable Lease

/-- A step of a run: a call of some worker or operator, or the completion write of a
claim, each in its own environment. -/
abbrev StorageLabel := Label (Env × Operation) (Env × Completion)

def leaseSlot (r : Row) : Slot String := ⟨r.status = .handling, r.attempt, r.claimedBy⟩

def leaseCause : Operation → Cause
  | .requeue _ _ => .revival
  | .reclaimExpired _ => .expiry
  | _ => .plain

/-- The claims that a reply of Claim opens for the calling worker. -/
def handedOut (workerID : String) (msgs : List InboundMessage) : List (Uuid × Token String) :=
  msgs.filterMap fun m => m.id.parse.map fun id => (id, ⟨m.attempt, workerID⟩)

theorem leaseSlot_idle {r : Row} (idle : r.status ≠ .handling) : (leaseSlot r).held = false :=
  decide_eq_false idle

theorem leaseSlot_held {r : Row} (held : r.status = .handling) : (leaseSlot r).held = true :=
  decide_eq_true held

theorem mem_handedOut {workerID : String} {msgs : List InboundMessage} {id : Uuid} {t : Token String} :
    (id,t) ∈ handedOut workerID msgs ↔
      ∃ m ∈ msgs, m.id = .uuid id ∧ t = ⟨m.attempt, workerID⟩ := by
  simp only [handedOut, List.mem_filterMap, Option.map_eq_some_iff, MessageID.parse_eq_some, Prod.mk.injEq]
  constructor
  · rintro ⟨m,member,_,parsed,rfl,rfl⟩
    exact ⟨m,member,parsed,rfl⟩
  · rintro ⟨m,member,parsed,rfl⟩
    exact ⟨m,member,id,parsed,rfl,rfl⟩

theorem handedOut_distinct {workerID : String} {msgs : List InboundMessage}
    (distinct : (msgs.map InboundMessage.id).Nodup) : ((handedOut workerID msgs).map Prod.fst).Nodup := by
  have keys : (handedOut workerID msgs).map Prod.fst = (msgs.map InboundMessage.id).filterMap MessageID.parse := by
    simp only [handedOut, List.map_filterMap, List.filterMap_map]
    congr 1
    funext m
    rw [Function.comp_apply]
    cases m.id.parse <;> rfl
  rw [keys]
  refine distinct.filterMap fun a b k fst snd => ?_
  rw [Option.mem_def, MessageID.parse_eq_some] at fst snd
  rw [fst, snd]

/-- What the other operations do to one row, as far as its lease is concerned. -/
inductive OperationStep (op : Operation) : Option Row → Option Row → Prop where
  | same : OperationStep op row row
  | insert : leaseCause op = .plain → r.status = .created → OperationStep op none (some r)
  | keep : leaseCause op = .plain → leaseSlot r' = leaseSlot r → OperationStep op (some r) (some r')
  | expire : leaseCause op = .expiry → r.status = .handling → r'.status = .retrying →
      r'.attempt = r.attempt → OperationStep op (some r) (some r')
  | revive : leaseCause op = .revival → r.status = .dead → r'.status = .created →
      OperationStep op (some r) (some r')
  | remove : leaseCause op = .plain → r.status.terminal = true → OperationStep op (some r) none

theorem OperationStep.acted {op : Operation} {before after : Option Row}
    (step : OperationStep op before after) :
    Acted (leaseCause op) (before ≠ after) (before.map leaseSlot) (after.map leaseSlot) none := by
  cases step with
  | same => exact .quiet (by simp)
  | insert plain created => exact plain ▸ .of_creation (leaseSlot_idle (by simp [created]))
  | keep plain slot =>
    rw [Option.map_some, Option.map_some, slot]
    exact .quiet fun _ => plain
  | expire expiry handling retrying attempt =>
    rw [moved_of_status (by simp [handling, retrying]), expiry]
    exact .of_expiry (leaseSlot_held handling) (leaseSlot_idle (by simp [retrying])) attempt
  | revive revival dead created =>
    rw [moved_of_status (by simp [dead, created]), revival]
    exact .of_revival (leaseSlot_idle (by simp [dead])) (leaseSlot_idle (by simp [created]))
  | remove plain terminal => exact plain ▸ .of_removal (leaseSlot_idle (Status.terminal_idle terminal))

/-- What a Claim of either adapter does: the chosen rows were pending, exactly they are
set, and exactly they are returned. -/
structure Handout (row row' : Uuid → Option Row) (set : Row → Row) (scan : Row → InboundMessage)
    (chosen : List Uuid) (msgs : List InboundMessage) : Prop where
  keyed : ∀ k r, row k = some r → r.id = k
  pending : ∀ k ∈ chosen, ∃ r, row k = some r ∧ r.status.pending = true
  after : ∀ k, row' k = (row k).map (when (fun r => r.id ∈ chosen) set)
  returned : ∀ m, m ∈ msgs ↔ ∃ k ∈ chosen, ∃ r, row k = some r ∧ m = scan (set r)

section
variable {row row' : Uuid → Option Row} {set : Row → Row} {scan : Row → InboundMessage}
  {chosen : List Uuid} {msgs : List InboundMessage} {workerID : String}

theorem Handout.mem (handout : Handout row row' set scan chosen msgs)
    (scanned : ∀ r, (scan (set r)).id = .uuid r.id ∧ (scan (set r)).attempt = r.attempt + 1)
    {k : Uuid} {t : Token String} :
    (k,t) ∈ handedOut workerID msgs ↔ k ∈ chosen ∧ ∃ r, row k = some r ∧ t = ⟨r.attempt + 1, workerID⟩ := by
  rw [mem_handedOut]
  constructor
  · rintro ⟨m,member,named,rfl⟩
    obtain ⟨k',listed,r,found,rfl⟩ := (handout.returned m).mp member
    have same : k' = k := by
      rw [(scanned r).1] at named
      exact (handout.keyed k' r found).symm.trans (MessageID.uuid.inj named)
    exact ⟨same ▸ listed,r,same ▸ found,by rw [(scanned r).2]⟩
  · rintro ⟨listed,r,found,rfl⟩
    refine ⟨_,(handout.returned _).mpr ⟨k,listed,r,found,rfl⟩,?_,by rw [(scanned r).2]⟩
    rw [(scanned r).1, handout.keyed k r found]

/-- A returned message is a pending row that was set. -/
theorem Handout.taken (handout : Handout row row' set scan chosen msgs)
    (scanned : ∀ r, (scan (set r)).id = .uuid r.id) {m : InboundMessage} (member : m ∈ msgs) {k : Uuid}
    (named : m.id = .uuid k) :
    ∃ r, row k = some r ∧ r.status.pending = true ∧ row' k = some (set r) ∧ m = scan (set r) := by
  obtain ⟨k',listed,r,found,rfl⟩ := (handout.returned m).mp member
  have keyed := handout.keyed k' r found
  obtain rfl : k' = k := by
    rw [scanned r] at named
    exact keyed.symm.trans (MessageID.uuid.inj named)
  obtain ⟨r',found',pending⟩ := handout.pending k' listed
  cases found.symm.trans found'
  refine ⟨r,found,pending,?_,rfl⟩
  rw [handout.after, found, Option.map_some, when, if_pos (decide_eq_true (keyed ▸ listed))]

theorem Handout.acted (handout : Handout row row' set scan chosen msgs)
    (scanned : ∀ r, (scan (set r)).id = .uuid r.id ∧ (scan (set r)).attempt = r.attempt + 1)
    (taken : ∀ r, leaseSlot (set r) = Token.slot ⟨r.attempt + 1, workerID⟩) (changed : Bool) (k : Uuid) :
    ∃ grant, Acted .plain changed ((row k).map leaseSlot) ((row' k).map leaseSlot) grant ∧
      ∀ t, (k,t) ∈ handedOut workerID msgs ↔ grant = some t := by
  by_cases listed : k ∈ chosen
  · obtain ⟨r,found,pending⟩ := handout.pending k listed
    refine ⟨some ⟨r.attempt + 1, workerID⟩,?_,fun t => ?_⟩
    · have on : decide (r.id ∈ chosen) = true := by
        rw [handout.keyed k r found]
        exact decide_eq_true listed
      rw [handout.after, found, Option.map_some, Option.map_some, Option.map_some, when, if_pos on, taken]
      exact .of_handout _ (leaseSlot_idle (Status.pending_idle pending)) rfl
    · rw [handout.mem scanned]
      constructor
      · rintro ⟨_,r',found',rfl⟩
        cases found.symm.trans found'
        rfl
      · intro same
        exact ⟨listed,r,found,(Option.some.inj same).symm⟩
  · refine ⟨none,?_,fun t => ?_⟩
    · rw [handout.after, map_when_same fun r found => ?_]
      · exact .quiet fun _ => rfl
      · rw [handout.keyed k r found]
        exact decide_eq_false listed
    · rw [handout.mem scanned]
      constructor
      · exact fun impossible => absurd impossible.1 listed
      · intro impossible
        cases impossible

end

end Tickr
