import Tickr.PostgresPartitions

/-! Idempotency keys under the partitioned schema. The unique index includes created_at,
so it skips a row only if its key was used at the very same instant. Enqueue looks the key
up first; EnqueueBatch does not, and is safe as long as no key it carries is in the table
from another instant. Repetitions inside one batch share the instant of its statement. -/
namespace Tickr.Postgres

open KeyedTable

variable {policy : HistoryPolicy} {cfg : Config}

theorem idemIndex_partitioned {r : Row} {eventType key : String} {created : Option Time} :
    idemIndex ⟨true, policy⟩ r = some (eventType, key, created) ↔
      bears eventType key r = true ∧ created = some r.createdAt := by
  rw [bears_iff]
  cases named : r.idempotencyKey with
  | none => simp [idemIndex, named]
  | some key' => simp [idemIndex, named, and_assoc, @eq_comm _ (some r.createdAt)]

/-- Every row that bears the key of one of the items is of the instant of the batch. -/
def Contemporary (env : Env) (items : List (EnqueueParams × Nat)) (messages : Messages ⟨true, policy⟩) :
    Prop :=
  ∀ item ∈ items, item.1.idempotencyKey ≠ "" → ∀ r ∈ messages.rows,
    bears item.1.eventType item.1.idempotencyKey r = true → r.createdAt = env.now 0

theorem insert_conflict_partitioned {env : Env} {items : List (EnqueueParams × Nat)}
    {messages : Messages ⟨true, policy⟩} (contemporary : Contemporary env items messages)
    {item : EnqueueParams × Nat} (listed : item ∈ items) :
    messages.insert (itemRow env item) = .conflict ↔ Taken messages item.1 := by
  rw [Table.insert_conflict]
  constructor
  · rintro ⟨⟨eventType,key,created⟩,mine,r,member,theirs⟩
    obtain ⟨named,rfl⟩ := idemIndex_partitioned.mp mine
    obtain ⟨type,named⟩ := bears_iff.mp named
    obtain ⟨keyed,rfl⟩ := enqueueRow_key.mp named
    refine ⟨keyed,r,member,?_⟩
    have shared := (idemIndex_partitioned.mp theirs).1
    rwa [← show item.1.eventType = eventType from type] at shared
  · rintro ⟨keyed,r,member,named⟩
    have instant := contemporary item listed keyed r member named
    refine ⟨(item.1.eventType,item.1.idempotencyKey,some (env.now 0)),idemIndex_partitioned.mpr ⟨?_,rfl⟩,
      r,member,idemIndex_partitioned.mpr ⟨named,by rw [instant]⟩⟩
    exact bears_iff.mpr ⟨rfl,enqueueRow_key.mpr ⟨keyed,rfl⟩⟩

/-- A row that was not skipped joins a table in which no row bears its key. -/
theorem KeyOnce.insert {messages next : Messages cfg} {env : Env} {item : EnqueueParams × Nat}
    (once : KeyOnce messages) (free : ¬Taken messages item.1)
    (inserted : messages.insert (itemRow env item) = .inserted next) : KeyOnce next := by
  have rows := (Table.insert_inserted inserted).1
  have alone (eventType key : String) (r : Row) (member : r ∈ messages.rows)
      (old : bears eventType key r = true) (new : bears eventType key (itemRow env item) = true) : False := by
    obtain ⟨type,named⟩ := bears_iff.mp new
    obtain ⟨keyed,rfl⟩ := enqueueRow_key.mp named
    refine free ⟨keyed,r,member,?_⟩
    rwa [show item.1.eventType = eventType from type]
  intro eventType key a left b right bearsA bearsB
  rw [rows, List.mem_append, List.mem_singleton] at left right
  rcases left with oldA | rfl <;> rcases right with oldB | rfl
  · exact once eventType key a oldA b oldB bearsA bearsB
  · exact (alone eventType key a oldA bearsA bearsB).elim
  · exact (alone eventType key b oldB bearsB bearsA).elim
  · rfl

theorem arbitrated_partitioned (env : Env) (items : List (EnqueueParams × Nat)) :
    Arbitrated env items fun messages : Messages ⟨true, policy⟩ =>
      KeyOnce messages ∧ Contemporary env items messages where
  once _ holds := holds.1
  conflict _ holds _ listed := insert_conflict_partitioned holds.2 listed
  inserted := by
    rintro messages next ⟨once,contemporary⟩ item listed inserted
    have free : ¬Taken messages item.1 := fun taken => by
      cases inserted.symm.trans ((insert_conflict_partitioned contemporary listed).mpr taken)
    refine ⟨once.insert free inserted,?_⟩
    intro other listed' keyed r member named
    rw [(Table.insert_inserted inserted).1, List.mem_append, List.mem_singleton] at member
    rcases member with old | rfl
    · exact contemporary other listed' keyed r old named
    · rfl

/-! ### Runs -/

theorem TableStatement.keyOnce {messages : Messages ⟨true, policy⟩} (once : KeyOnce messages)
    (statement : TableStatement ⟨true, policy⟩) : KeyOnce (statement.apply messages) := by
  cases statement with
  | update guard f =>
    have kept (eventType key : String) (a : Row) (named : bears eventType key (when guard f.set a) = true) :
        bears eventType key a = true := by
      have entry : idemIndex ⟨true, policy⟩ (when guard f.set a) = some (eventType,key,_) :=
        idemIndex_partitioned.mpr ⟨named,rfl⟩
      rw [when_index guard f a] at entry
      exact (idemIndex_partitioned.mp entry).1
    intro eventType key a' left b' right bearsA bearsB
    obtain ⟨a,memberA,rfl⟩ := List.mem_map.mp left
    obtain ⟨b,memberB,rfl⟩ := List.mem_map.mp right
    rw [once eventType key a memberA b memberB (kept _ _ a bearsA) (kept _ _ b bearsB)]
  | delete guard =>
    intro eventType key a left b right bearsA bearsB
    exact once eventType key a (List.mem_of_mem_filter left) b (List.mem_of_mem_filter right) bearsA bearsB

theorem statements_keyOnce {messages : Messages ⟨true, policy⟩} (once : KeyOnce messages)
    (statements : List (TableStatement ⟨true, policy⟩)) :
    KeyOnce (statements.foldl TableStatement.apply messages) := by
  induction statements generalizing messages with
  | nil => exact once
  | cons statement rest ih => exact ih (statement.keyOnce once)

/-- The elements of a batch. -/
def batched : Call → List EnqueueParams
  | .enqueueBatch ps => ps
  | _ => []

/-- A key that a batch carries is free, or its row is of the instant of the batch. -/
def Unheld (s : Store cfg) (label : Env × Call) : Prop :=
  ∀ p ∈ batched label.2, p.idempotencyKey ≠ "" → ∀ r ∈ s.messages.rows,
    bears p.eventType p.idempotencyKey r = true → r.createdAt = label.1.now 0

instance (s : Store cfg) (label : Env × Call) : Decidable (Unheld s label) :=
  inferInstanceAs (Decidable (∀ p ∈ _, _ → ∀ r ∈ _, _ → _))

theorem Unheld.contemporary {s : Store ⟨true, policy⟩} {env : Env} {ps : List EnqueueParams}
    (unheld : Unheld s (env, .enqueueBatch ps)) : Contemporary env ps.zipIdx s.messages := by
  rintro ⟨p,i⟩ listed keyed r member named
  exact unheld p (List.fst_mem_of_mem_zipIdx listed) keyed r member named

theorem exec_keyOnce {s : Store ⟨true, policy⟩} (once : KeyOnce s.messages) (env : Env) (call : Call)
    (unheld : Unheld s (env, call)) : KeyOnce (exec s env call).1.messages := by
  by_cases enqueues : ∃ p, call = .enqueue p
  · obtain ⟨p,rfl⟩ := enqueues
    rcases enqueue_cases s env p with same | ⟨messages,looked,inserted,after⟩
    · simp only [exec, same]
      exact once
    · simp only [exec, after]
      have stored : s.messages.insert (itemRow env (p, 0)) = .inserted messages := inserted
      refine once.insert ?_ stored
      rintro ⟨keyed,present⟩
      simp only [partitionedLookup, Bool.true_and, bne_iff_ne, keyed, ne_eq, not_false_eq_true, if_true] at looked
      exact findByIdempotency_eq_none.mp looked present
  · by_cases batches : ∃ ps, call = .enqueueBatch ps
    · obtain ⟨ps,rfl⟩ := batches
      rcases enqueueBatch_cases s env ps with ⟨rfl,same⟩ | same | ⟨final,out,_,inserted,after⟩
      · simp only [exec, same]
        exact once
      · simp only [exec, same]
        exact once
      · simp only [exec, after]
        exact ((arbitrated_partitioned env ps.zipIdx).final ⟨once,unheld.contemporary⟩ inserted).1
    · obtain ⟨statements,after⟩ := exec_statements s env call
        fun p ps => ⟨fun same => enqueues ⟨p,same⟩,fun same => batches ⟨ps,same⟩⟩
      rw [after]
      exact statements_keyOnce once statements

/-- The same of a step of the partitioned store. -/
def Unrepeated (st : Partitioned policy) : PartitionLabel → Prop
  | .call env call => Unheld st.store (env, call)
  | _ => True

instance (st : Partitioned policy) : ∀ label, Decidable (Unrepeated st label)
  | .call env call => inferInstanceAs (Decidable (Unheld st.store (env, call)))
  | .ensure _ _ => isTrue trivial
  | .drop _ => isTrue trivial

theorem partitions_keyOnce {offset : Offsets} {trace : List PartitionLabel} {st : Partitioned policy}
    (run : (partitionSystem offset policy).run Partitioned.start trace = some st)
    (unrepeated : (partitionSystem offset policy).Along Unrepeated Partitioned.start trace) :
    KeyOnce st.store.messages := by
  refine Transition.System.invariant Unrepeated (fun st : Partitioned policy => KeyOnce st.store.messages) ?_
    run unrepeated ?_
  · rintro st label next once condition step
    cases label with
    | call env call =>
      cases step
      exact exec_keyOnce once env call condition
    | ensure now monthsAhead =>
      cases step
      rw [ensurePartitions, ensureMonths_store]
      exact once
    | drop cutoff =>
      cases step
      exact TableStatement.keyOnce once (.delete _)
  · intro eventType key a member
    cases member

/-! ### What the calls return -/

/-- The look-up of `Enqueue` reports the row of a taken key, whenever it was created. -/
theorem enqueue_taken {s : Store ⟨true, policy⟩} (once : KeyOnce s.messages) (env : Env) {p : EnqueueParams}
    (keyed : p.idempotencyKey ≠ "") {r : Row} (member : r ∈ s.messages.rows)
    (named : bears p.eventType p.idempotencyKey r = true) :
    enqueue s env p = (s, some (scanMessage r), some (duplicateOf r p)) := by
  have found : findByIdempotency s env p.eventType p.idempotencyKey = some r :=
    (findByIdempotency_eq_some once).mpr ⟨member,named⟩
  have lookup : partitionedLookup s env p = some r := by simp [partitionedLookup, keyed, found]
  simp only [enqueue, lookup]

/-- The enqueues before an element leave the row that bears its key where it is. -/
theorem enqueueEach_taken {env : Env} {items : List (EnqueueParams × Nat)} {s : Store ⟨true, policy⟩}
    {table : Messages ⟨true, policy⟩ → Prop} (arbitrated : Arbitrated env items table) (holds : table s.messages)
    {j i : Nat} {p : EnqueueParams} (item : items[j]? = some (p, i)) (keyed : p.idempotencyKey ≠ "") {r : Row}
    (member : r ∈ s.messages.rows) (named : bears p.eventType p.idempotencyKey r = true) :
    (enqueueEach s env items).2[j]? = some (some (scanMessage r), some (duplicateOf r p)) := by
  induction items generalizing s j with
  | nil => cases item
  | cons head rest ih =>
    obtain ⟨q,k⟩ := head
    cases j with
    | zero =>
      cases item
      simp only [enqueueEach, List.getElem?_cons_zero,
        enqueue_taken (arbitrated.once s.messages holds) (drawn env i) keyed member named]
    | succ j =>
      rw [List.getElem?_cons_succ] at item
      simp only [enqueueEach, List.getElem?_cons_succ]
      rcases enqueue_cases s (drawn env k) q with same | ⟨messages,_,inserted,after⟩
      · rw [same]
        exact ih arbitrated.tail holds item member
      · rw [after]
        refine ih arbitrated.tail (arbitrated.inserted s.messages messages holds (q,k) List.mem_cons_self inserted)
          item ?_
        rw [(Table.insert_inserted inserted).1]
        exact List.mem_append_left _ member

/-- After the INSERT of a batch every index entry that its rows ask for is in the table. -/
theorem batchInsertSQL_indexed {rows : List Row} {messages final : Messages cfg} {out : List Row}
    (inserted : batchInsertSQL messages rows = some (final, out)) {row : Row} (listed : row ∈ rows)
    {entry : String × String × Option Time} (indexed : idemIndex cfg row = some entry) :
    ∃ r ∈ final.rows, idemIndex cfg r = some entry := by
  induction rows generalizing messages out with
  | nil => cases listed
  | cons first rest ih =>
    rcases batchInsertSQL_cons inserted with ⟨conflict,remaining⟩ | ⟨next,_,added,remaining,_⟩
    · rcases List.mem_cons.mp listed with rfl | later
      · obtain ⟨entry',mine,r,member,theirs⟩ := Table.insert_conflict.mp conflict
        cases mine.symm.trans indexed
        exact ⟨r,batchInsertSQL_keeps remaining member,theirs⟩
      · exact ih remaining later
    · rcases List.mem_cons.mp listed with rfl | later
      · refine ⟨row,batchInsertSQL_keeps remaining ?_,indexed⟩
        rw [(Table.insert_inserted added).1]
        exact List.mem_append_right _ List.mem_cons_self
      · exact ih remaining later

section
variable {s : Store ⟨true, policy⟩} {env : Env} {ps : List EnqueueParams}
  (executed : ∀ operation, (enqueueBatch s env ps).2.2 ≠ some (.sql operation))
include executed

/-- A batch that carries only free keys, and keys of its own instant, reports the rows of
the latter. -/
theorem enqueueBatch_taken (once : KeyOnce s.messages)
    (distinct : ((List.range ps.length).map env.newID).Nodup) (unheld : Unheld s (env, .enqueueBatch ps))
    {i : Nat} {p : EnqueueParams} (element : ps[i]? = some p) (keyed : p.idempotencyKey ≠ "") {r : Row}
    (member : r ∈ s.messages.rows) (named : bears p.eventType p.idempotencyKey r = true) :
    (enqueueBatch s env ps).2.1[i]? = some (some (scanMessage r)) ∧
      ∃ err, (enqueueBatch s env ps).2.2 = some (.duplicate err) := by
  rcases enqueueBatch_cases s env ps with ⟨rfl,_⟩ | batch | ⟨final,out,fits,inserted,batch⟩
  · cases element
  · rw [batch] at executed
    exact absurd rfl (executed "enqueue batch")
  · have arbitrated := @arbitrated_partitioned policy env ps.zipIdx
    have single := enqueueEach_taken arbitrated ⟨once,unheld.contemporary⟩
      (show ps.zipIdx[i]? = some (p,i) by simp [element]) keyed member named
    obtain ⟨_,clean,collected⟩ := @batch_each _ env _ ps.zipIdx arbitrated s final out []
      ⟨once,unheld.contemporary⟩ inserted fits (zipIdx_draws env ps ▸ distinct) (by simp)
    have results := collected s.history none
    rw [List.nil_append, Option.none_or] at results
    rw [batch, results]
    refine ⟨by rw [List.getElem?_map, single]; rfl,?_⟩
    -- the first error is that of an element no later than this one, and a duplicate like all of them
    have some_error : ((enqueueEach s env ps.zipIdx).2.findSome? Prod.snd).isSome = true :=
      List.findSome?_isSome_iff.mpr ⟨_,List.mem_of_getElem? single,rfl⟩
    obtain ⟨err,first⟩ := Option.isSome_iff_exists.mp some_error
    obtain ⟨result,listed,same⟩ := List.exists_of_findSome?_eq_some first
    rcases (clean result listed).2 with none | ⟨dup,duplicate⟩
    · rw [none] at same
      cases same
    · exact ⟨dup,first.trans (same.symm.trans duplicate)⟩

/-- A batch that carries a key in the table from another instant puts it there again. -/
theorem enqueueBatch_repeats (held : ¬Unheld s (env, .enqueueBatch ps)) :
    ¬KeyOnce (enqueueBatch s env ps).1.messages := by
  simp only [Unheld, batched, not_forall] at held
  obtain ⟨p,listed,keyed,r,member,named,instant⟩ := held
  rcases enqueueBatch_cases s env ps with ⟨rfl,_⟩ | batch | ⟨final,out,_,inserted,batch⟩
  · cases listed
  · rw [batch] at executed
    exact absurd rfl (executed "enqueue batch")
  · obtain ⟨i,element⟩ := List.getElem?_of_mem listed
    have mine : bears p.eventType p.idempotencyKey (itemRow env (p,i)) = true :=
      bears_iff.mpr ⟨rfl,enqueueRow_key.mpr ⟨keyed,rfl⟩⟩
    have own : itemRow env (p,i) ∈ ps.zipIdx.map (itemRow env) :=
      List.mem_map.mpr ⟨(p,i),List.mk_mem_zipIdx_iff_getElem?.mpr element,rfl⟩
    obtain ⟨b,present,entry⟩ := batchInsertSQL_indexed inserted own (idemIndex_partitioned.mpr ⟨mine,rfl⟩)
    obtain ⟨shared,created⟩ := idemIndex_partitioned.mp entry
    rw [batch]
    intro once
    have same := once _ _ r (batchInsertSQL_keeps inserted member) b present named shared
    rw [← same] at created
    exact instant (Option.some.inj created).symm

end

/-- In every run in which no batch carries a key that the table has from another instant,
a type and a key name one row at most, in a month and over all months; an enqueue whose
key has a row reports that row and inserts nothing, and a batch does so for its elements
exactly when it meets the condition too. -/
theorem partitioned_keys_unique (offset : Offsets) (policy : HistoryPolicy) (trace : List PartitionLabel)
    (st : Partitioned policy) (run : (partitionSystem offset policy).run Partitioned.start trace = some st)
    (unrepeated : (partitionSystem offset policy).Along Unrepeated Partitioned.start trace) :
    KeyOnce st.store.messages ∧
    (∀ env (p : EnqueueParams), p.idempotencyKey ≠ "" → ∀ r ∈ st.store.messages.rows,
      bears p.eventType p.idempotencyKey r = true →
        enqueue st.store env p = (st.store, some (scanMessage r), some (duplicateOf r p))) ∧
    ∀ env (ps : List EnqueueParams), ((List.range ps.length).map env.newID).Nodup →
      (∀ operation, (enqueueBatch st.store env ps).2.2 ≠ some (.sql operation)) →
      (Unheld st.store (env, .enqueueBatch ps) ↔ KeyOnce (enqueueBatch st.store env ps).1.messages) ∧
      (Unheld st.store (env, .enqueueBatch ps) → ∀ (i : Nat) p, ps[i]? = some p →
        p.idempotencyKey ≠ "" → ∀ r ∈ st.store.messages.rows, bears p.eventType p.idempotencyKey r = true →
          (enqueueBatch st.store env ps).2.1[i]? = some (some (scanMessage r)) ∧
            ∃ err, (enqueueBatch st.store env ps).2.2 = some (.duplicate err)) := by
  have once := partitions_keyOnce run unrepeated
  refine ⟨once,?_,?_⟩
  · intro env p keyed r member named
    exact enqueue_taken once env keyed member named
  · intro env ps distinct executed
    refine ⟨⟨exec_keyOnce once env (.enqueueBatch ps),?_⟩,?_⟩
    · intro unique
      by_contra held
      exact enqueueBatch_repeats executed held unique
    · intro unheld i p element keyed r member named
      exact enqueueBatch_taken executed once distinct unheld element keyed member named

/-- Two batches with one key, a second apart on a day in January. -/
def repeatedBatch : List PartitionLabel :=
  [.ensure (midnight 2026 1 15) 1,
    .call (Env.quiet (midnight 2026 1 20) 7) (.enqueueBatch [⟨"mail", some [], [], "a", 3, none⟩]),
    .call (Env.quiet (midnight 2026 1 20 + Duration.second) 8) (.enqueueBatch [⟨"mail", some [], [], "a", 3, none⟩])]

/-- Both rows are of one month, and the second call reports no duplicate. -/
theorem partitioned_keys_repeated :
    ((partitionSystem (fun _ => 0) .full).run Partitioned.start repeatedBatch).map (fun st =>
        st.store.messages.rows.map fun r => (r.id, r.eventType, r.idempotencyKey, calendarMonth r.createdAt)) =
      some [(7, "mail", some "a", 24312), (8, "mail", some "a", 24312)] ∧
    ((partitionSystem (fun _ => 0) .full).run Partitioned.start (repeatedBatch.take 2)).map (fun st =>
        (enqueueBatch st.store (Env.quiet (midnight 2026 1 20 + Duration.second) 8)
          [⟨"mail", some [], [], "a", 3, none⟩]).2.2) = some none := by
  decide +kernel

def keyedMail (key : String) : EnqueueParams := ⟨"mail", some [], [], key, 3, none⟩

/-- A batch that carries one key twice. -/
def twiceInBatch : List PartitionLabel :=
  [.ensure (midnight 2026 1 15) 1,
    .call (Env.quiet (midnight 2026 1 20) 7) (.enqueueBatch [keyedMail "a", keyedMail "b", keyedMail "a"])]

def twiceStored : Partitioned .full :=
  ((partitionSystem (fun _ => 0) .full).run Partitioned.start twiceInBatch).getD Partitioned.start

/-- Another batch, of the same instant and with a key of the first. -/
def sameInstant : Store ⟨true, .full⟩ × List (Option InboundMessage) × Option StoreError :=
  enqueueBatch twiceStored.store (Env.quiet (midnight 2026 1 20) 10) [keyedMail "c", keyedMail "b", keyedMail "c"]

theorem partitioned_keys_unique_batch :
    (partitionSystem (fun _ => 0) .full).run Partitioned.start twiceInBatch = some twiceStored ∧
    (partitionSystem (fun _ => 0) .full).Along Unrepeated Partitioned.start twiceInBatch ∧
    twiceStored.store.messages.rows.map (fun r => (r.id, r.idempotencyKey)) = [(7, some "a"), (8, some "b")] ∧
    KeyOnce twiceStored.store.messages ∧
    sameInstant.1.messages.rows.map (fun r => (r.id, r.idempotencyKey)) =
      [(7, some "a"), (8, some "b"), (10, some "c")] ∧
    KeyOnce sameInstant.1.messages ∧
    ∃ r, twiceStored.store.row 8 = some r ∧ sameInstant.2.1[1]? = some (some (scanMessage r)) ∧
      ∃ err, sameInstant.2.2 = some (.duplicate err) := by
  have along : (partitionSystem (fun _ => 0) .full).Along Unrepeated Partitioned.start twiceInBatch := by
    decide +kernel
  have duplicate : sameInstant.2.2.any isDuplicate = true := by decide +kernel
  obtain ⟨once,_,batches⟩ := partitioned_keys_unique (fun _ => 0) .full twiceInBatch twiceStored rfl along
  obtain ⟨unheld,taken⟩ := batches (Env.quiet (midnight 2026 1 20) 10) [keyedMail "c", keyedMail "b", keyedMail "c"]
    (by decide +kernel) (by
      intro operation failed
      rw [show sameInstant.2.2 = _ from failed] at duplicate
      cases duplicate)
  have free : Unheld twiceStored.store (Env.quiet (midnight 2026 1 20) 10,
      .enqueueBatch [keyedMail "c", keyedMail "b", keyedMail "c"]) := by decide +kernel
  obtain ⟨r,found⟩ : ∃ r, twiceStored.store.row 8 = some r := ⟨_,rfl⟩
  have named : bears "mail" "b" r = true := by
    cases found
    decide +kernel
  exact ⟨rfl,along,by decide +kernel,once,by decide +kernel,unheld.mp free,r,found,
    taken free 1 (keyedMail "b") rfl (by decide) r (Store.row_mem found) named⟩

end Tickr.Postgres
