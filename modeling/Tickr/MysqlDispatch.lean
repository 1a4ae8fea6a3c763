import Tickr.EnginePlan
import Tickr.MysqlDuplicates

/-! Which of the claimed messages have a handler. The SELECT of a claim compares the registered
types with the column under its collation; the registry then looks a message up by its exact
type, and whatever it does not find is failed for good. -/
namespace Tickr

theorem Registry.lookup_isSome {r : Registry} {eventType : String} :
    (r.lookup eventType).isSome = true ↔ eventType ∈ r.eventTypes := by
  simp [Registry.lookup, Registry.eventTypes]

/-- A plan fails exactly the claimed messages whose type is not registered. -/
theorem noHandler_mem_plan {r : Registry} {msgs : List InboundMessage} {order : List String} {m : InboundMessage} :
    .noHandler m ∈ plan r msgs order ↔ m ∈ msgs ∧ m.type ∉ r.eventTypes := by
  have absent : m.type ∉ r.eventTypes ↔ r.lookup m.type = none := by
    rw [← Registry.lookup_isSome, Bool.not_eq_true, Option.isSome_eq_false_iff, Option.isNone_iff_eq_none]
  rw [absent, plan, List.mem_append, List.mem_filterMap]
  constructor
  · rintro (⟨m',member,chosen⟩ | grouped)
    · cases singleAction_planned member chosen with
      | noHandler member missing => exact ⟨member,missing⟩
    · obtain ⟨_,_,chunked⟩ := List.mem_flatMap.mp grouped
      obtain ⟨_,same,_⟩ := batchActions_chunk chunked
      cases same
  · rintro ⟨member,missing⟩
    exact Or.inl ⟨m,member,by rw [singleAction, missing]⟩

namespace Mysql
variable {cfg : Config}

/-- The type compares equal to a registered one and is not registered itself. -/
def Misspelt (cfg : Config) (r : Registry) (eventType : String) : Prop :=
  eventType ∉ r.eventTypes ∧ ∃ registered ∈ r.eventTypes, cfg.same eventType registered = true

/-- Whatever the engine's claim meets, what it returns is found under the type of its row, and
nothing of it is failed for want of a handler. -/
structure Dispatchable (engine : EngineConfig) (s : Store cfg) : Prop where
  found : ∀ env, ∀ m ∈ (claim s env engine.claimParams).2, ∃ r ∈ s.messages.rows,
    m.id = .uuid r.id ∧ m.type = r.eventType ∧ (engine.registry.lookup r.eventType).isSome = true
  handled : ∀ env order m, .noHandler m ∉ plan engine.registry (claim s env engine.claimParams).2 order

/-- A returned message is a pending row whose type compares equal to one of those asked for. -/
theorem claim_typed {s : Store cfg} {env : Env} {p : ClaimParams} {m : InboundMessage}
    (returned : m ∈ (claim s env p).2) : ∃ r ∈ s.messages.rows, m.id = .uuid r.id ∧ m.type = r.eventType ∧
      r.status.pending = true ∧ ∃ asked ∈ p.eventTypes, cfg.same r.eventType asked = true := by
  obtain ⟨chosen,spec⟩ := claim_spec s env p
  obtain ⟨k,_,r,found,rfl⟩ := (spec.returned m).mp returned
  have typed : p.eventTypes ≠ [] := by
    intro empty
    simp [claim, empty] at returned
  have selected := ((claim_selected s env p typed).2 r.id).mp ⟨_,returned,rfl⟩
  obtain ⟨pass,shard,r',found',fits⟩ := mem_claimIDs selected
  cases found'.symm.trans (Store.row_of_mem (Store.row_mem found))
  simp only [eligible, Bool.and_eq_true, List.any_eq_true] at fits
  exact ⟨r,Store.row_mem found,rfl,rfl,fits.1.1.1.1,fits.1.1.2⟩

/-- The row is due, its shard is drawn, and every other row is locked. -/
def around (r : Row) : Env :=
  { Env.quiet r.processAt 0 with pickShard := fun _ => r.shard, locked := fun _ k => k ≠ r.id }

theorem claim_around {s : Store cfg} {p : ClaimParams} {r : Row} (member : r ∈ s.messages.rows)
    (pending : r.status.pending = true) (asked : ∃ t ∈ p.eventTypes, cfg.same r.eventType t = true) :
    ∃ m ∈ (claim s (around r) p).2, m.id = .uuid r.id := by
  have typed : p.eventTypes ≠ [] := by
    obtain ⟨_,listed,_⟩ := asked
    exact List.ne_nil_of_mem listed
  have fits (pass : Nat) : eligible cfg (around r) pass p.eventTypes none r = true := by
    simp [eligible, pending, List.any_eq_true.mpr asked, around, Env.quiet]
  have alone {k : Uuid} (listed : k ∈ claimIDs s.messages (around r) p) : k = r.id := by
    obtain ⟨_,_,r',found,fits⟩ := mem_claimIDs listed
    simp only [eligible, around, Bool.and_eq_true] at fits
    exact (Store.row_id found).symm.trans (by simpa using fits.2)
  apply ((claim_selected s (around r) p typed).2 r.id).mpr
  rcases claimIDs_within member fits with chosen | full | elsewhere
  · exact chosen
  · have positive : 0 < limitOr 100 p.batch := limitOr_pos (by decide) p.batch
    obtain ⟨k,listed⟩ := List.exists_mem_of_length_pos (full ▸ positive)
    exact alone listed ▸ listed
  · exact absurd rfl elsewhere.2

/-- Only dispatchable messages are claimed from a table exactly when none of its pending rows
has another spelling of a registered type. -/
theorem claims_dispatchable_iff (engine : EngineConfig) (s : Store cfg) : Dispatchable engine s ↔
    ∀ r ∈ s.messages.rows, r.status.pending = true → ¬Misspelt cfg engine.registry r.eventType := by
  constructor
  · rintro dispatchable r member pending ⟨absent,asked⟩
    obtain ⟨m,returned,named⟩ := claim_around (p := engine.claimParams) member pending asked
    obtain ⟨r',member',named',_,known⟩ := dispatchable.found _ m returned
    have same : r'.id = r.id := MessageID.uuid.inj (named'.symm.trans named)
    have row := Store.row_of_mem member'
    rw [same, Store.row_of_mem member] at row
    cases row
    exact absent (Registry.lookup_isSome.mp known)
  · intro spelt
    have registered {env : Env} {m : InboundMessage} (returned : m ∈ (claim s env engine.claimParams).2) :
        ∃ r ∈ s.messages.rows, m.id = .uuid r.id ∧ m.type = r.eventType ∧
          r.eventType ∈ engine.registry.eventTypes := by
      obtain ⟨r,member,named,type,pending,asked⟩ := claim_typed returned
      exact ⟨r,member,named,type,not_not.mp fun absent => spelt r member pending ⟨absent,asked⟩⟩
    constructor
    · intro env m returned
      obtain ⟨r,member,named,type,known⟩ := registered returned
      exact ⟨r,member,named,type,Registry.lookup_isSome.mpr known⟩
    · intro env order m failed
      obtain ⟨returned,absent⟩ := noHandler_mem_plan.mp failed
      obtain ⟨r,_,_,type,known⟩ := registered returned
      exact absent (type ▸ known)

/-- A worker that handles "post". -/
def postHandler : EngineConfig :=
  ⟨⟨[("post", ⟨false, ⟨10, 0, 0, none⟩⟩)], by simp, by simp⟩, "w", 10, 1, 30 * Duration.second, true⟩

/-- A message of the type "Post", which some other worker handles. -/
def capitalStore : Store folding := (enqueue Store.empty (Env.quiet 5 7) 0 (plainParams "Post" 3)).1

/-- What the worker's claim returns from that table. -/
def capitalPost : InboundMessage :=
  scanMessage (claimSet 6 "w" (6 + 30 * Duration.second) (enqueueRow folding (Env.quiet 5 7) 0 (plainParams "Post" 3)))

/-- The worker claims the message of the other type, finds no handler for it, and the write of
`failNoHandler` leaves it DEAD after its first attempt. -/
theorem claims_misspelt :
    (claim capitalStore (Env.quiet 6 0) postHandler.claimParams).2 = [capitalPost] ∧
    capitalPost.type = "Post" ∧ (postHandler.registry.lookup "Post").isSome = false ∧
    (∃ r, (fail (claim capitalStore (Env.quiet 6 0) postHandler.claimParams).1 (Env.quiet 7 0)
      (noHandlerParams "w" capitalPost)).1.row 7 = some r ∧ r.status = .dead ∧ r.attempt = 1) ∧
    ¬Dispatchable postHandler capitalStore := by
  have returned : (claim capitalStore (Env.quiet 6 0) postHandler.claimParams).2 = [capitalPost] := by decide +kernel
  refine ⟨returned,by decide +kernel,by decide +kernel,?_,fun dispatchable => ?_⟩
  · exact ⟨failDeadSet 7 (noHandlerParams "w" capitalPost).err (claimSet 6 "w" (6 + 30 * Duration.second)
      (enqueueRow folding (Env.quiet 5 7) 0 (plainParams "Post" 3))),by decide +kernel,rfl,rfl⟩
  · apply dispatchable.handled (Env.quiet 6 0) [] capitalPost
    rw [returned, noHandler_mem_plan]
    exact ⟨List.mem_singleton_self _,by decide +kernel⟩

end Mysql
end Tickr
