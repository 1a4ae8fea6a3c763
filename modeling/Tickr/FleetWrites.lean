import Tickr.EngineWrites
import Tickr.FleetBudget

/-! The completion writes that a fleet owes, in its engines and on their way. The attempt
counter tells them apart: no owed write is ahead of the counter of its row, and at most one
carries the attempt that a row is HANDLING under. -/
namespace Tickr

open Transition Postgres

variable {pg : Postgres.Config} {f f' : Fleet pg} {label : FleetLabel}

def Fleet.owed (f : Fleet pg) : List Tag := f.engines.flatMap Engine.owed ++ f.wire.flatMap Call.writes

theorem Fleet.count_owed (f : Fleet pg) (x : Tag) :
    f.owed.count x = (f.engines.flatMap Engine.owed).count x + (f.wire.flatMap Call.writes).count x :=
  List.count_append

def FleetLabel.env : FleetLabel → Option Env
  | .operate env _ | .arrive _ env => some env
  | .engine _ _ sent => sent
  | _ => none

/-! ### What a step executes -/

structure Extension where
  id : MessageID
  workerID : String
  until_ : Time

def Extension.call (x : Extension) : Call := .extend x.id x.workerID x.until_

/-- The Extend that a step executes or leaves on the wire. -/
def Fleet.extension (f : Fleet pg) : FleetLabel → Option Extension
  | .operate _ (.extend id workerID until_) => some ⟨id, workerID, until_⟩
  | .arrive j _ =>
    match f.wire[j]? with
    | some (.extend id workerID until_) => some ⟨id, workerID, until_⟩
    | _ => none
  | .engine i (.task j (.extend n clock)) _ =>
    f.engines[i]?.bind fun e => e.tasks[j]?.bind fun t => t.job.msgs[n]?.map fun m =>
      ⟨m.id, e.cfg.workerID, clock + leaseOrDefault e.cfg.lease⟩
  | _ => none

/-- A step executes at most one call. What is owed afterwards, together with what the call
wrote, was owed before or has just been claimed. -/
inductive Effect (f : Fleet pg) (label : FleetLabel) (f' : Fleet pg) : Prop where
  | none : f'.store = f.store → (∀ x, f'.owed.count x ≤ f.owed.count x) → Effect f label f'
  | call (env : Env) (call : Call) (received : List InboundMessage) : label.env = some env →
      f'.store = (Postgres.exec f.store env call).1 →
      (call ∈ f.wire ∨ call.issued = true ∨ ∃ op, label = .operate env op ∧ call = op.call) →
      (received = [] ∨ ∃ p, call = .claim p ∧ received = (Postgres.claim f.store env p).2) →
      (∀ x : Extension, call = x.call → f.extension label = some x) →
      (∀ x, f'.owed.count x + call.writes.count x ≤
        f.owed.count x + (received.map InboundMessage.tag).count x) → Effect f label f'

section
variable {i : Nat} {e e' : Engine} {event : Event} {call : Option Call}

theorem engines_owed (at_ : f.engines[i]? = some e) (stepped : Stepped e event e' call) (x : Tag) :
    ((f.engines.set i e').flatMap Engine.owed).count x + (writesOf call).count x ≤
      (f.engines.flatMap Engine.owed).count x + (event.received.map InboundMessage.tag).count x := by
  have moved := stepped.owed x
  rw [count_flatMap_set Engine.owed x at_, count_flatMap_erase Engine.owed x at_]
  omega

/-- An engine extends nothing but what one of its extenders is there for. -/
theorem Stepped.extension {x : Extension} (stepped : Stepped e event e' call) (at_ : f.engines[i]? = some e)
    (issued : call = some x.call) (sent : Option Env) : f.extension (.engine i event sent) = some x := by
  obtain ⟨id,workerID,until_⟩ := x
  cases stepped with
  | extend task listed =>
    obtain ⟨rfl,rfl,rfl⟩ := Call.extend.inj (Option.some.inj issued)
    simp only [Fleet.extension, at_, task, listed, Option.bind_some, Option.map_some]
  | flush | exit => cases Engine.flushed_eq issued
  | commit _ _ committed =>
    cases issued
    cases commitOutcome_committed committed
  | _ => cases issued

end

theorem Advanced.effect (advanced : Advanced f label f') : Effect f label f' := by
  cases advanced with
  | start =>
    refine .none rfl fun x => ?_
    simp only [Fleet.count_owed, List.flatMap_append, List.count_append]
    exact Nat.le_refl _
  | @crash i =>
    refine .none rfl fun x => ?_
    simp only [Fleet.count_owed]
    exact Nat.add_le_add_right (((List.eraseIdx_sublist f.engines i).flatMap Engine.owed).count_le x) _
  | @operate env op =>
    have quiet : op.call.writes = [] := by cases op <;> rfl
    refine .call env op.call [] rfl rfl (Or.inr (Or.inr ⟨op,rfl,rfl⟩)) (Or.inl rfl) (fun x same => ?_) fun x => ?_
    · obtain ⟨id,workerID,until_⟩ := x
      cases op <;> cases same
      rfl
    · rw [quiet]
      exact Nat.le_refl _
  | @arrive j call env there =>
    refine .call env call [] rfl rfl (Or.inl (List.mem_of_getElem? there)) (Or.inl rfl) (fun x same => ?_) fun x => ?_
    · simp only [Fleet.extension, there, same, Extension.call]
    · simp only [Fleet.count_owed, Fleet.exec, count_flatMap_erase Call.writes x there, List.map_nil,
        List.count_nil]
      omega
  | @silent i e event e' sent at_ stepped =>
    refine .none rfl fun x => ?_
    have moved := engines_owed at_ stepped x
    rw [stepped.received_of_silent rfl] at moved
    simp only [Fleet.count_owed, Fleet.move]
    exact Nat.add_le_add_right (Nat.le_trans (Nat.le_add_right _ _) moved) _
  | @answered i e event e' call env at_ stepped answered =>
    refine .call env call event.received rfl rfl (Or.inr (Or.inl (stepped.issued rfl)))
      (stepped.received_of_answered rfl answered) (fun x same => stepped.extension at_ (congrArg some same) _)
      fun x => ?_
    have moved := engines_owed at_ stepped x
    simp only [writesOf, Option.elim] at moved
    simp only [Fleet.count_owed, Fleet.move, Fleet.exec]
    omega
  | @delayed i e event e' call at_ stepped unanswered =>
    refine .none rfl fun x => ?_
    have moved := engines_owed at_ stepped x
    rw [Event.received_of_unanswered unanswered] at moved
    simp only [writesOf, Option.elim, List.map_nil, List.count_nil] at moved
    simp only [Fleet.count_owed, Fleet.move, List.flatMap_append, List.flatMap_cons, List.flatMap_nil,
      List.append_nil, List.count_append]
    omega

/-! ### What a claim adds -/

/-- A claimed row moves to the next attempt, which is owed one write; the others are
neither changed nor owed anything. -/
theorem claim_owed (s : Store pg) (env : Env) (p : ClaimParams) (k : Uuid) :
    (∃ r statement, s.row k = some r ∧ r.status.pending = true ∧
      (claim s env p).1.row k = some (claimSet (env.now statement) p.workerID (claimLeaseSec p) r) ∧
      ∀ a, (((claim s env p).2).map InboundMessage.tag).count (.uuid k, a) ≤ if a = r.attempt + 1 then 1 else 0) ∨
    (claim s env p).1.row k = s.row k ∧
      ∀ a, (((claim s env p).2).map InboundMessage.tag).count (.uuid k, a) = 0 := by
  obtain ⟨statement,chosen,spec⟩ := claim_spec s env p
  have named {a : Int} (counted : (MessageID.uuid k, a) ∈ ((claim s env p).2).map InboundMessage.tag) :
      k ∈ chosen ∧ ∀ r, s.row k = some r → a = r.attempt + 1 := by
    obtain ⟨m,returned,tagged⟩ := List.mem_map.mp counted
    obtain ⟨k',listed,r,found,rfl⟩ := (spec.returned m).mp returned
    obtain ⟨id,attempt⟩ := Prod.mk.inj tagged
    have same : k' = k := (Store.row_id found).symm.trans (MessageID.uuid.inj id)
    subst same
    refine ⟨listed,fun r' found' => ?_⟩
    cases found.symm.trans found'
    exact attempt.symm
  by_cases listed : k ∈ chosen
  · obtain ⟨r,found,pending,_⟩ := spec.eligible k listed
    have on : decide (r.id ∈ chosen) = true := by
      rw [Store.row_id found]
      exact decide_eq_true listed
    refine Or.inl ⟨r,statement,found,pending,?_,fun a => ?_⟩
    · rw [spec.row, found, Option.map_some, KeyedTable.when, if_pos on]
    · by_cases next : a = r.attempt + 1
      · rw [if_pos next]
        have distinct : (((claim s env p).2).map InboundMessage.tag).Nodup := by
          refine List.Nodup.of_map Prod.fst ?_
          rw [List.map_map]
          exact spec.nodup
        exact List.nodup_iff_count_le_one.mp distinct _
      · rw [if_neg next, Nat.le_zero, List.count_eq_zero]
        exact fun counted => next ((named counted).2 r found)
  · refine Or.inr ⟨?_,fun a => List.count_eq_zero.mpr fun counted => listed (named counted).1⟩
    rw [spec.row]
    refine KeyedTable.map_when_same fun r found => ?_
    rw [Store.row_id found]
    exact decide_eq_false listed

/-! ### The invariant -/

/-- The ids whose attempt counter a call may start over. -/
def Call.restarts (env : Env) : Call → List MessageID
  | .enqueue _ => [.uuid (env.newID 0)]
  | .enqueueBatch ps => (List.range ps.length).map fun i => .uuid (env.newID i)
  | .requeue id _ => [id]
  | _ => []

def FleetLabel.restarts : FleetLabel → List MessageID
  | .operate env op => op.call.restarts env
  | _ => []

/-- No write is owed for a message whose attempt counter starts over. -/
def Undisturbed (f : Fleet pg) (label : FleetLabel) : Prop := ∀ id ∈ label.restarts, ∀ x ∈ f.owed, x.1 ≠ id

instance (f : Fleet pg) (label : FleetLabel) : Decidable (Undisturbed f label) :=
  inferInstanceAs (Decidable (∀ id ∈ _, ∀ x ∈ _, _))

/-- `owed a` writes are owed for attempt `a` of a row. -/
structure Fenced (owed : Int → Nat) (r : Row) : Prop where
  past : ∀ a, 0 < owed a → a ≤ r.attempt
  sole : r.status = .handling → owed r.attempt ≤ 1

section
variable {env : Env} {k : Uuid} {call : Call} {r r' : Row} {owed owed' : Int → Nat}

theorem Fenced.mono (fenced : Fenced owed r) (fewer : ∀ a, owed' a ≤ owed a) : Fenced owed' r :=
  ⟨fun a some => fenced.past a (Nat.lt_of_lt_of_le some (fewer a)),
    fun handling => Nat.le_trans (fewer _) (fenced.sole handling)⟩

theorem Fenced.of_none (none : ∀ a, owed a = 0) : Fenced owed r :=
  ⟨fun a some => absurd some (by rw [none a]; exact Nat.lt_irrefl 0),fun _ => by rw [none]; exact Nat.zero_le 1⟩

/-- A row that is no longer HANDLING owes no write to its own attempt. -/
theorem Fenced.closed (fenced : Fenced owed r) (same : r'.attempt = r.attempt)
    (closed : r'.status ≠ .handling) : Fenced owed r' :=
  ⟨fun a some => same ▸ fenced.past a some,fun handling => absurd handling closed⟩

/-- The claim itself apart, a call keeps the account of the row that it was executed on. A
release lowers the counter, and is itself the only write of the attempt that it takes back. -/
theorem Postgres.RowStep.fenced {before : Option Row} (step : RowStep env k call before (some r'))
    (other : ∀ p, call ≠ .claim p) (fenced : ∀ r, before = some r → Fenced owed r)
    (restarted : .uuid k ∈ call.restarts env → ∀ a, owed a = 0)
    (paid : ∀ a, owed' a + call.writes.count (.uuid k, a) ≤ owed a) : Fenced owed' r' := by
  have fewer (a : Int) : owed' a ≤ owed a := Nat.le_trans (Nat.le_add_right _ _) (paid a)
  have nothing (restarts : .uuid k ∈ call.restarts env) : Fenced owed' r' :=
    .of_none fun a => Nat.le_zero.mp (restarted restarts a ▸ fewer a)
  cases step with
  | same => exact (fenced r' rfl).mono fewer
  | enqueue named => exact nothing (List.mem_singleton.mpr (named ▸ rfl))
  | @enqueueBatch i ps p named at_ =>
    refine nothing (List.mem_map.mpr ⟨i,List.mem_range.mpr ?_,named ▸ rfl⟩)
    exact (List.getElem?_eq_some_iff.mp at_).1
  | claim => exact absurd rfl (other _)
  | succeed | batchSucceed | failRetry | failDead | reclaimExpired =>
    exact ((fenced _ rfl).mono fewer).closed rfl Status.noConfusion
  | extend =>
    obtain ⟨past,sole⟩ := (fenced _ rfl).mono fewer
    exact ⟨past,sole⟩
  | @releaseShutdown attempt _ _ r handling current =>
    have before := fenced _ rfl
    refine ⟨fun a some => ?_,fun impossible => Status.noConfusion impossible⟩
    have below := before.past a (Nat.lt_of_lt_of_le some (fewer a))
    have released : a ≠ r.attempt := by
      rintro rfl
      have own := paid r.attempt
      rw [Call.writes, ← current, List.count_singleton_self] at own
      have sole := before.sole handling
      omega
    exact Int.le_trans (by omega : a ≤ r.attempt - 1) (Int.le_max_right ..)
  | requeue => exact nothing List.mem_cons_self

/-- A claim owes the new attempt of a row its first write. -/
theorem claim_fenced {s : Store pg} {p : ClaimParams} (fenced : ∀ r, s.row k = some r → Fenced owed r)
    (added : ∀ a, owed' a ≤ owed a + (((claim s env p).2).map InboundMessage.tag).count (.uuid k, a))
    (found : (claim s env p).1.row k = some r') : Fenced owed' r' := by
  rcases claim_owed s env p k with ⟨r,statement,before,pending,after,once⟩ | ⟨same,none⟩
  · have account := fenced r before
    cases found.symm.trans after
    have next : owed (r.attempt + 1) = 0 := by
      by_contra some
      have := account.past _ (Nat.pos_of_ne_zero some)
      omega
    constructor
    · intro a some
      show a ≤ r.attempt + 1
      by_cases new : a = r.attempt + 1
      · exact Int.le_of_eq new
      · have old := added a
        have none := once a
        rw [if_neg new] at none
        have := account.past a (by omega)
        omega
    · intro _
      have new := added (r.attempt + 1)
      have one := once (r.attempt + 1)
      rw [if_pos rfl] at one
      show owed' (r.attempt + 1) ≤ 1
      omega
  · refine (fenced r' (same ▸ found)).mono fun a => ?_
    have kept := added a
    rw [none a] at kept
    exact kept

end

/-- The account of the fleet. -/
structure Audited (f : Fleet pg) : Prop where
  rows : ∀ k r, f.store.row k = some r → Fenced (fun a => f.owed.count (.uuid k, a)) r
  wire : ∀ call ∈ f.wire, call.issued = true

theorem newFleet_audited : Audited (newFleet : Fleet pg) where
  rows := by simp [newFleet]
  wire := by simp [newFleet]

theorem Call.restarts_of_issued {env : Env} {call : Call} (issued : call.issued = true) : call.restarts env = [] := by
  cases call <;> first | rfl | cases issued

theorem Advanced.wire_issued (advanced : Advanced f label f') (wire : ∀ call ∈ f.wire, call.issued = true) :
    ∀ call ∈ f'.wire, call.issued = true := by
  cases advanced with
  | start | crash | operate | silent | answered => exact wire
  | arrive => exact fun call there => wire call (List.mem_of_mem_eraseIdx there)
  | delayed at_ stepped =>
    intro call there
    rcases List.mem_append.mp there with old | new
    · exact wire call old
    · rw [List.mem_singleton.mp new]
      exact stepped.issued rfl

theorem Undisturbed.count {k : Uuid} (undisturbed : Undisturbed f label) (restarted : .uuid k ∈ label.restarts)
    (a : Int) : f.owed.count (.uuid k, a) = 0 :=
  List.count_eq_zero.mpr fun owed => undisturbed _ restarted _ owed rfl

theorem Advanced.audited (advanced : Advanced f label f') (audited : Audited f)
    (undisturbed : Undisturbed f label) : Audited f' where
  wire := advanced.wire_issued audited.wire
  rows := by
    intro k r' found
    cases advanced.effect with
    | none same fewer =>
      rw [same] at found
      exact (audited.rows k r' found).mono fun a => fewer _
    | call env call received at_ executed origin handed _ paid =>
      rw [executed] at found
      by_cases claims : ∃ p, call = .claim p
      · obtain ⟨p,rfl⟩ := claims
        refine claim_fenced (audited.rows k) (fun a => ?_) found
        have balance := paid (.uuid k, a)
        rcases handed with rfl | ⟨_,same,rfl⟩
        · simp only [List.map_nil, List.count_nil] at balance
          omega
        · cases same
          exact Nat.le_trans (Nat.le_add_right _ _) balance
      · have step := exec_row f.store env call k
        rw [found] at step
        refine step.fenced (fun p same => claims ⟨p,same⟩) (audited.rows k) (fun restarted => ?_) fun a => ?_
        · rcases origin with there | issued | ⟨op,rfl,rfl⟩
          · rw [Call.restarts_of_issued (audited.wire call there)] at restarted
            cases restarted
          · rw [Call.restarts_of_issued issued] at restarted
            cases restarted
          · exact undisturbed.count restarted
        · rcases handed with rfl | ⟨p,same,_⟩
          · exact paid (.uuid k, a)
          · exact absurd ⟨p,same⟩ claims

end Tickr
