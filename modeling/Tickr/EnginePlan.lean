import Mathlib.Data.List.Flatten
import Mathlib.Data.List.Perm.Basic
import Tickr.Engine

/-! What `pollOnce` makes of one claim. Messages without a handler and messages of single
handlers are dealt with in claim order; messages of batch handlers are grouped by type and
cut into chunks. No message is left out and none is dealt with twice. -/
namespace Tickr

/-! ### Chunks -/

section
variable {α : Type}

theorem chunks_flatten {size rounds : Nat} {msgs : List α} (positive : 0 < size) (enough : msgs.length ≤ rounds) :
    (chunks size rounds msgs).flatten = msgs := by
  induction rounds generalizing msgs with
  | zero => simpa [chunks] using enough
  | succ rounds ih =>
    cases msgs with
    | nil => rfl
    | cons m rest =>
      have shorter : ((m :: rest).drop size).length ≤ rounds := by
        rw [List.length_drop, List.length_cons] at *
        omega
      rw [chunks, List.flatten_cons, ih shorter, List.take_append_drop]
      simp

theorem chunks_bounds {size rounds : Nat} {msgs chunk : List α} (positive : 0 < size)
    (cut : chunk ∈ chunks size rounds msgs) : chunk ≠ [] ∧ chunk.length ≤ size := by
  induction rounds generalizing msgs with
  | zero => simp [chunks] at cut
  | succ rounds ih =>
    cases msgs with
    | nil => simp [chunks] at cut
    | cons m rest =>
      rw [chunks, List.mem_cons] at cut
      · rcases cut with rfl | later
        · refine ⟨?_,List.length_take_le _ _⟩
          rw [ne_eq, List.take_eq_nil_iff]
          simp [positive.ne']
        · exact ih later
      · simp

end

theorem chunkSize_pos {maxBatchSize : Int} {length : Nat} (some_ : 0 < length) :
    0 < chunkSize maxBatchSize length := by
  unfold chunkSize
  split <;> omega

theorem chunkSize_le {maxBatchSize : Int} {length : Nat} (positive : 0 < maxBatchSize) :
    (chunkSize maxBatchSize length : Int) ≤ maxBatchSize := by
  unfold chunkSize
  split <;> omega

/-- The loop of `dispatchBatches` reaches the end of its messages. -/
theorem chunks_whole {α : Type} (maxBatchSize : Int) (msgs : List α) :
    (chunks (chunkSize maxBatchSize msgs.length) msgs.length msgs).flatten = msgs := by
  cases msgs with
  | nil => rfl
  | cons m rest => exact chunks_flatten (chunkSize_pos (Nat.succ_pos _)) (Nat.le_refl _)

/-! ### The actions for one type -/

def ofType (eventType : String) (msgs : List InboundMessage) : List InboundMessage :=
  msgs.filter fun m => m.type = eventType

/-- What `dispatchBatches` may hand to one invocation. -/
structure Chunk (r : Registry) (job : Job) : Prop where
  registered : r.lookup job.eventType = some job.reg
  typed : ∀ m ∈ job.msgs, m.type = job.eventType
  nonempty : job.msgs ≠ []
  short : 0 < job.reg.cfg.maxBatchSize → (job.msgs.length : Int) ≤ job.reg.cfg.maxBatchSize

theorem batchActions_chunk {r : Registry} {msgs : List InboundMessage} {eventType : String} {action : Action}
    (member : action ∈ batchActions r msgs eventType) :
    ∃ job, action = .run job ∧ job.eventType = eventType ∧ Chunk r job := by
  unfold batchActions at member
  split at member
  · cases member
  · rename_i reg found
    obtain ⟨chunk,cut,rfl⟩ := List.mem_map.mp member
    have some_ : 0 < (msgs.filter fun m => m.type = eventType).length := by
      apply List.length_pos_of_ne_nil
      intro empty
      simp [empty, chunks] at cut
    obtain ⟨nonempty,short⟩ := chunks_bounds (chunkSize_pos some_) cut
    refine ⟨_,rfl,rfl,found,fun m named => ?_,nonempty,fun positive => ?_⟩
    · exact of_decide_eq_true (List.mem_filter.mp (mem_chunks cut named)).2
    · exact (Int.ofNat_le.mpr short).trans (chunkSize_le positive)

/-- The chunks of a type are its messages in claim order. -/
theorem batchActions_msgs {r : Registry} {eventType : String} (batched : r.batched eventType = true)
    (msgs : List InboundMessage) : (batchActions r msgs eventType).flatMap Action.msgs = ofType eventType msgs := by
  unfold batchActions
  split
  · rename_i missing
    simp [Registry.batched, missing] at batched
  · rw [List.flatMap_map, ← chunks_whole ‹Registration›.cfg.maxBatchSize (ofType eventType msgs)]
    exact List.flatMap_id

/-! ### The whole plan -/

theorem eraseDups_nodup {α : Type} [BEq α] [LawfulBEq α] (l : List α) : l.eraseDups.Nodup := by
  induction size : l.length using Nat.strong_induction_on generalizing l with
  | _ n ih =>
    cases l with
    | nil => simp
    | cons a rest =>
      rw [List.eraseDups_cons, List.nodup_cons]
      constructor
      · simp [List.mem_eraseDups]
      · apply ih _ _ _ rfl
        have shorter := List.length_filter_le (fun b => !b == a) rest
        simp only [List.length_cons] at size
        omega

/-- `order` ranges over the batch groups of the claim, each once. -/
structure Ranged (r : Registry) (msgs : List InboundMessage) (order : List String) : Prop where
  distinct : order.Nodup
  covers : ∀ eventType, eventType ∈ order ↔ r.batched eventType = true ∧ ∃ m ∈ msgs, m.type = eventType

theorem ranged_of_isPerm {r : Registry} {msgs : List InboundMessage} {order : List String}
    (perm : order.isPerm (batchTypes r msgs) = true) : Ranged r msgs order := by
  have perm := List.isPerm_iff.mp perm
  refine ⟨perm.nodup_iff.mpr (eraseDups_nodup _),fun eventType => ?_⟩
  rw [perm.mem_iff, batchTypes, List.mem_eraseDups, List.mem_filter, List.mem_map]
  tauto

/-- The claim loop dispatches at once exactly what no batch handler waits for. -/
theorem singleActions_msgs (r : Registry) (msgs : List InboundMessage) :
    (msgs.filterMap (singleAction r)).flatMap Action.msgs = msgs.filter fun m => !r.batched m.type := by
  induction msgs with
  | nil => rfl
  | cons m rest ih =>
    cases found : r.lookup m.type with
    | none => simp [singleAction, Registry.batched, found, Action.msgs, ih]
    | some reg =>
      cases batch : reg.batch <;> simp [singleAction, Registry.batched, found, batch, Action.msgs, ih]

/-- Groups of distinct types share no message. -/
theorem groups_perm {order : List String} (distinct : order.Nodup) (msgs : List InboundMessage) :
    (order.flatMap fun t => ofType t msgs).Perm (msgs.filter fun m => m.type ∈ order) := by
  induction order with
  | nil => simp
  | cons t rest ih =>
    obtain ⟨fresh,others⟩ := List.nodup_cons.mp distinct
    rw [List.flatMap_cons]
    apply ((ih others).append_left _).trans
    have split := List.filter_append_perm (fun m : InboundMessage => m.type = t)
      (msgs.filter fun m => m.type ∈ t :: rest)
    rw [List.filter_filter, List.filter_filter] at split
    refine (List.Perm.of_eq ?_).trans split
    congr 1
    · apply List.filter_congr
      intro m _
      simp only [List.mem_cons, Bool.decide_or]
      cases decide (m.type = t) <;> rfl
    · apply List.filter_congr
      intro m _
      by_cases same : m.type = t
      · simp [same, fresh]
      · simp [same]

/-- An action of a plan, with the registration that it follows from. -/
inductive Planned (r : Registry) (msgs : List InboundMessage) : Action → Prop where
  | noHandler : m ∈ msgs → r.lookup m.type = none → Planned r msgs (.noHandler m)
  | single : m ∈ msgs → r.lookup m.type = some reg → reg.batch = false →
      Planned r msgs (.run ⟨m.type, reg, [m]⟩)
  | chunk : job.reg.batch = true → Chunk r job → Planned r msgs (.run job)

/-- The chunks of one event type. -/
def Action.chunkOf (eventType : String) : Action → Option (List InboundMessage)
  | .noHandler _ => none
  | .run job => if job.eventType = eventType then some job.msgs else none

theorem singleAction_planned {r : Registry} {msgs : List InboundMessage} {m : InboundMessage} {action : Action}
    (claimed : m ∈ msgs) (chosen : singleAction r m = some action) : Planned r msgs action := by
  unfold singleAction at chosen
  split at chosen
  · cases chosen
    exact .noHandler claimed ‹_›
  · split at chosen
    · cases chosen
    · cases chosen
      exact .single claimed ‹_› (Bool.eq_false_of_not_eq_true ‹_›)

/-- Only one element of a list without repetition adds anything. -/
theorem flatMap_only {α β : Type} [DecidableEq α] {l : List α} {f : α → List β} {a : α} (distinct : l.Nodup)
    (others : ∀ b ∈ l, b ≠ a → f b = []) : l.flatMap f = if a ∈ l then f a else [] := by
  induction l with
  | nil => rfl
  | cons b rest ih =>
    obtain ⟨fresh,distinct⟩ := List.nodup_cons.mp distinct
    rw [List.flatMap_cons, ih distinct fun c member => others c (List.mem_cons_of_mem _ member)]
    by_cases same : b = a
    · subst same
      simp [fresh]
    · simp [others b List.mem_cons_self same, Ne.symm same]

theorem batchActions_chunkOf {r : Registry} {eventType other : String} (batched : r.batched eventType = true)
    (msgs : List InboundMessage) : ((batchActions r msgs other).filterMap (Action.chunkOf eventType)).flatten =
      if other = eventType then ofType eventType msgs else [] := by
  split
  · rename_i same
    subst same
    rw [← batchActions_msgs batched msgs, List.flatMap_def]
    congr 1
    refine (List.filterMap_congr fun action member => ?_).trans (congrFun List.filterMap_eq_map _)
    obtain ⟨job,rfl,same,_⟩ := batchActions_chunk member
    simp [Action.chunkOf, same, Action.msgs]
  · rename_i different
    rw [List.flatten_eq_nil_iff]
    intro chunk member
    obtain ⟨action,listed,chosen⟩ := List.mem_filterMap.mp member
    obtain ⟨job,rfl,same,_⟩ := batchActions_chunk listed
    simp [Action.chunkOf, same, different] at chosen

section
variable {r : Registry} {msgs : List InboundMessage} {order : List String} (ranged : Ranged r msgs order)
include ranged

theorem plan_planned {action : Action} (member : action ∈ plan r msgs order) : Planned r msgs action := by
  rcases List.mem_append.mp member with single | batched
  · obtain ⟨m,claimed,chosen⟩ := List.mem_filterMap.mp single
    exact singleAction_planned claimed chosen
  · obtain ⟨eventType,listed,chunked⟩ := List.mem_flatMap.mp batched
    obtain ⟨job,rfl,rfl,chunk⟩ := batchActions_chunk chunked
    have batched := ((ranged.covers _).mp listed).1
    rw [Registry.batched, chunk.registered] at batched
    exact .chunk batched chunk

/-- The chunks of a type concatenate to its messages in claim order. -/
theorem plan_chunks {eventType : String} (batched : r.batched eventType = true) :
    ((plan r msgs order).filterMap (Action.chunkOf eventType)).flatten = ofType eventType msgs := by
  have singles : (msgs.filterMap (singleAction r)).filterMap (Action.chunkOf eventType) = [] := by
    apply List.filterMap_eq_nil_iff.mpr
    intro action member
    obtain ⟨m,claimed,chosen⟩ := List.mem_filterMap.mp member
    unfold singleAction at chosen
    split at chosen
    · cases chosen
      rfl
    · rename_i reg found
      split at chosen <;> cases chosen
      apply if_neg
      rintro rfl
      simp_all [Registry.batched]
  rw [plan, List.filterMap_append, singles, List.nil_append, List.filterMap_flatMap,
    ← List.flatMap_id, List.flatMap_assoc]
  simp only [List.flatMap_id, batchActions_chunkOf batched]
  rw [flatMap_only ranged.distinct fun other _ different => if_neg different, if_pos rfl]
  split
  · rfl
  · rename_i absent
    refine (List.filter_eq_nil_iff.mpr fun m claimed typed => absent ?_).symm
    exact (ranged.covers eventType).mpr ⟨batched,m,claimed,of_decide_eq_true typed⟩

/-- The plan of a claim deals with each claimed message once. -/
theorem plan_perm : ((plan r msgs order).flatMap Action.msgs).Perm msgs := by
  have groups : (order.flatMap fun t => (batchActions r msgs t).flatMap Action.msgs) =
      order.flatMap fun t => ofType t msgs :=
    List.flatMap_congr fun t member => batchActions_msgs ((ranged.covers t).mp member).1 msgs
  have batched : (msgs.filter fun m => m.type ∈ order) = msgs.filter fun m => r.batched m.type := by
    apply List.filter_congr
    intro m claimed
    rw [Bool.eq_iff_iff, decide_eq_true_iff, ranged.covers]
    exact ⟨And.left,fun batched => ⟨batched,m,claimed,rfl⟩⟩
  rw [plan, List.flatMap_append, singleActions_msgs, List.flatMap_assoc, groups]
  apply ((groups_perm ranged.distinct msgs).append_left _).trans
  rw [batched]
  exact List.perm_append_comm.trans (List.filter_append_perm (fun m => r.batched m.type) msgs)

end

end Tickr
