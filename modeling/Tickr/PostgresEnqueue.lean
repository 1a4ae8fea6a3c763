import Tickr.PostgresRuns

/-! Idempotent enqueues. Where a key names at most one row, the look-up after a conflict
has at most one answer; and where the unique index skips a row exactly when its key is
taken, the set-based batch agrees with a sequence of single enqueues. On the
unpartitioned schema the index covers (event_type, idempotency_key) and both hold. -/
namespace Tickr.Postgres

open KeyedTable

variable {cfg : Config}

/-- A row with the type and the key of a request. -/
def bears (eventType key : String) (row : Row) : Bool :=
  row.eventType = eventType && row.idempotencyKey = some key

theorem bears_iff {eventType key : String} {r : Row} :
    bears eventType key r = true ↔ r.eventType = eventType ∧ r.idempotencyKey = some key := by
  simp [bears]

/-- A type and a key name at most one row. -/
def KeyOnce (messages : Messages cfg) : Prop :=
  ∀ eventType key, ∀ a ∈ messages.rows, ∀ b ∈ messages.rows, bears eventType key a = true →
    bears eventType key b = true → a = b

/-- A row with the type and the non-empty key of the request is in the table. -/
def Taken (messages : Messages cfg) (p : EnqueueParams) : Prop :=
  p.idempotencyKey ≠ "" ∧ ∃ r ∈ messages.rows, bears p.eventType p.idempotencyKey r = true

theorem findByIdempotency_mem {s : Store cfg} {env : Env} {eventType key : String} {r : Row}
    (found : findByIdempotency s env eventType key = some r) :
    r ∈ s.messages.rows ∧ bears eventType key r = true :=
  ⟨env.scan.mem_visit.mp (List.mem_of_find?_eq_some found),List.find?_some found⟩

theorem findByIdempotency_eq_some {s : Store cfg} (once : KeyOnce s.messages) {env : Env}
    {eventType key : String} {r : Row} : findByIdempotency s env eventType key = some r ↔
      r ∈ s.messages.rows ∧ bears eventType key r = true := by
  refine ⟨findByIdempotency_mem,?_⟩
  rintro ⟨member,named⟩
  obtain ⟨r',found⟩ := Option.isSome_iff_exists.mp
    (List.find?_isSome.mpr ⟨r,env.scan.mem_visit.mpr member,named⟩)
  have answer : findByIdempotency s env eventType key = some r' := found
  obtain ⟨present,named'⟩ := findByIdempotency_mem answer
  rw [answer, once eventType key r' present r member named' named]

theorem findByIdempotency_eq_none {s : Store cfg} {env : Env} {eventType key : String} :
    findByIdempotency s env eventType key = none ↔ ¬∃ r ∈ s.messages.rows, bears eventType key r = true := by
  unfold findByIdempotency
  rw [List.find?_eq_none]
  simp only [Scan.mem_visit, not_exists, not_and]
  rfl

/-- The key column of the row that a request inserts. -/
theorem enqueueRow_key {env : Env} {i : Nat} {p : EnqueueParams} {key : String} :
    (enqueueRow env i p).idempotencyKey = some key ↔ p.idempotencyKey ≠ "" ∧ p.idempotencyKey = key := by
  simp [enqueueRow, insertedRow, nullif]

section
variable (whole : cfg.partitioned = false)
include whole

theorem idemIndex_eq_some {r : Row} {entry : String × String × Option Time} :
    idemIndex cfg r = some entry ↔ ∃ key, r.idempotencyKey = some key ∧ entry = (r.eventType, key, none) := by
  simp [idemIndex, whole, eq_comm]

theorem keyOnce_whole (messages : Messages cfg) : KeyOnce messages := by
  intro eventType key a left b right bearsLeft bearsRight
  have entry (r : Row) (named : bears eventType key r = true) : idemIndex cfg r = some (eventType,key,none) := by
    obtain ⟨type,named⟩ := bears_iff.mp named
    exact (idemIndex_eq_some whole).mpr ⟨key,named,by rw [type]⟩
  exact Table.index_unique left right (entry a bearsLeft) (entry b bearsRight)

/-- The arbiter index skips a request exactly when its key is taken. -/
theorem insert_conflict_iff {messages : Messages cfg} {env : Env} {i : Nat} {p : EnqueueParams} :
    messages.insert (enqueueRow env i p) = .conflict ↔ Taken messages p := by
  rw [Table.insert_conflict]
  constructor
  · rintro ⟨entry,mine,r,member,theirs⟩
    obtain ⟨key,named,rfl⟩ := (idemIndex_eq_some whole).mp mine
    obtain ⟨key',named',same⟩ := (idemIndex_eq_some whole).mp theirs
    obtain ⟨type,rfl⟩ : r.eventType = p.eventType ∧ key' = key := by
      simp only [Prod.mk.injEq] at same
      exact ⟨same.1.symm,same.2.1.symm⟩
    obtain ⟨keyed,rfl⟩ := enqueueRow_key.mp named
    exact ⟨keyed,r,member,bears_iff.mpr ⟨type,named'⟩⟩
  · rintro ⟨keyed,r,member,named⟩
    obtain ⟨type,key⟩ := bears_iff.mp named
    exact ⟨(p.eventType,p.idempotencyKey,none),
      (idemIndex_eq_some whole).mpr ⟨p.idempotencyKey,enqueueRow_key.mpr ⟨keyed,rfl⟩,rfl⟩,
      r,member,(idemIndex_eq_some whole).mpr ⟨_,key,by rw [type]⟩⟩

end

/-! ### A batch is its single enqueues -/

/-- What the `i`-th of several single calls draws, if they draw what one batch draws. -/
def drawn (env : Env) (i : Nat) : Env :=
  { env with newID := fun _ => env.newID i, pickShard := fun _ => env.pickShard i }

/-- Enqueue on the elements in order, each with its own draws. -/
def enqueueEach (s : Store cfg) (env : Env) :
    List (EnqueueParams × Nat) → Store cfg × List (Option InboundMessage × Option StoreError)
  | [] => (s, [])
  | (p, i) :: rest =>
    let first := enqueue s (drawn env i) p
    let later := enqueueEach first.1 env rest
    (later.1, first.2 :: later.2)

def itemRow (env : Env) (item : EnqueueParams × Nat) : Row := enqueueRow env item.2 item.1

theorem enqueueBatch_cases (s : Store cfg) (env : Env) (ps : List EnqueueParams) :
    (ps = [] ∧ enqueueBatch s env ps = (s, [], none)) ∨
    enqueueBatch s env ps = (s, [], some (.sql "enqueue batch")) ∨
    ∃ final out, (∀ item ∈ ps.zipIdx, fitsColumns item.1 = true) ∧
      batchInsertSQL s.messages (ps.zipIdx.map (itemRow env)) = some (final,out) ∧
      enqueueBatch s env ps = (⟨final, s.history⟩, collectBatch ⟨final, s.history⟩ env out
        (ps.zipIdx.map fun item => (env.newID item.2, item.1)) none) := by
  have rows : batchRows env ps = ps.zipIdx.map (itemRow env) := List.mapIdx_eq_zipIdx_map
  have pairs : (ps.mapIdx fun i p => (env.newID i,p)) = ps.zipIdx.map fun item => (env.newID item.2,item.1) :=
    List.mapIdx_eq_zipIdx_map
  unfold enqueueBatch
  rw [rows, pairs]
  split
  · rename_i nothing
    exact Or.inl ⟨nothing,rfl⟩
  · dsimp only
    split
    · rename_i fits
      cases inserted : batchInsertSQL s.messages (ps.zipIdx.map (itemRow env)) with
      | none => exact Or.inr (Or.inl rfl)
      | some result =>
        refine Or.inr (Or.inr ⟨_,_,fun item listed => ?_,rfl,rfl⟩)
        exact List.all_eq_true.mp fits item.1 (List.fst_mem_of_mem_zipIdx listed)
    · exact Or.inr (Or.inl rfl)

theorem batchInsertSQL_returned {rows : List Row} {messages final : Messages cfg} {out : List Row}
    (inserted : batchInsertSQL messages rows = some (final,out)) : out ⊆ rows := by
  induction rows generalizing messages out with
  | nil =>
    cases inserted
    exact List.Subset.refl _
  | cons row rest ih =>
    rcases batchInsertSQL_cons inserted with ⟨_,later⟩ | ⟨_,_,_,later,rfl⟩
    · exact List.subset_cons_of_subset _ (ih later)
    · exact List.cons_subset_cons _ (ih later)

theorem batchInsertSQL_keeps {rows : List Row} {messages final : Messages cfg} {out : List Row}
    (inserted : batchInsertSQL messages rows = some (final,out)) : messages.rows ⊆ final.rows := by
  rw [batchInsertSQL_rows inserted]
  exact List.subset_append_left _ _

/-- Tables in which the index decides by the key alone, for every one of these items, and
on through the insertions of the items themselves. -/
structure Arbitrated (env : Env) (items : List (EnqueueParams × Nat)) (table : Messages cfg → Prop) : Prop where
  once : ∀ messages, table messages → KeyOnce messages
  conflict : ∀ messages, table messages → ∀ item ∈ items,
    (messages.insert (itemRow env item) = .conflict ↔ Taken messages item.1)
  inserted : ∀ messages next, table messages → ∀ item ∈ items,
    messages.insert (itemRow env item) = .inserted next → table next

theorem Arbitrated.tail {env : Env} {item : EnqueueParams × Nat} {rest : List (EnqueueParams × Nat)}
    {table : Messages cfg → Prop} (arbitrated : Arbitrated env (item :: rest) table) :
    Arbitrated env rest table :=
  ⟨arbitrated.once,fun messages holds item member =>
    arbitrated.conflict messages holds item (List.mem_cons_of_mem _ member),
    fun messages next holds item member =>
      arbitrated.inserted messages next holds item (List.mem_cons_of_mem _ member)⟩

/-- The table that the INSERT of a batch leaves is one of them too. -/
theorem Arbitrated.final {env : Env} {items : List (EnqueueParams × Nat)} {table : Messages cfg → Prop}
    (arbitrated : Arbitrated env items table) {messages final : Messages cfg} {out : List Row}
    (holds : table messages) (inserted : batchInsertSQL messages (items.map (itemRow env)) = some (final,out)) :
    table final := by
  induction items generalizing messages out with
  | nil =>
    cases inserted
    exact holds
  | cons item rest ih =>
    rw [List.map_cons] at inserted
    rcases batchInsertSQL_cons inserted with ⟨_,later⟩ | ⟨next,_,first,later,_⟩
    · exact ih arbitrated.tail holds later
    · exact ih arbitrated.tail (arbitrated.inserted messages next holds item List.mem_cons_self first) later

theorem arbitrated_whole (whole : cfg.partitioned = false) (env : Env) (items : List (EnqueueParams × Nat)) :
    Arbitrated env items fun _ : Messages cfg => True :=
  ⟨fun messages _ => keyOnce_whole whole messages,fun _ _ _ _ => insert_conflict_iff whole,
    fun _ _ _ _ _ _ => trivial⟩

section
variable {s : Store cfg} {env : Env} {i : Nat} {p : EnqueueParams} {table : Messages cfg → Prop}
  {rest : List (EnqueueParams × Nat)} (arbitrated : Arbitrated env ((p, i) :: rest) table)
  (holds : table s.messages) (fits : fitsColumns p = true)
include arbitrated holds fits

theorem enqueue_of_inserted {messages : Messages cfg}
    (inserted : s.messages.insert (itemRow env (p, i)) = .inserted messages) :
    enqueue s (drawn env i) p = ({ s with messages }, some (scanMessage (enqueueRow env i p)), none) := by
  have free : ¬Taken s.messages p := by
    intro taken
    cases inserted.symm.trans ((arbitrated.conflict s.messages holds (p,i) List.mem_cons_self).mpr taken)
  have straight : partitionedLookup s (drawn env i) p = none := by
    unfold partitionedLookup
    split
    · rename_i keyed
      refine findByIdempotency_eq_none.mpr fun present => free ⟨?_,present⟩
      simp only [Bool.and_eq_true, bne_iff_ne] at keyed
      exact keyed.2
    · rfl
  have row : enqueueRow (drawn env i) 0 p = enqueueRow env i p := rfl
  have first : s.messages.insert (enqueueRow env i p) = .inserted messages := inserted
  simp only [enqueue, straight, row, fits, if_true, first]

/-- A taken key is reported with its row, whether the look-up comes before the INSERT or
after its conflict. -/
theorem enqueue_of_taken {r : Row} (keyed : p.idempotencyKey ≠ "") (member : r ∈ s.messages.rows)
    (named : bears p.eventType p.idempotencyKey r = true) :
    enqueue s (drawn env i) p = (s, some (scanMessage r), some (duplicateOf r p)) := by
  have conflict : s.messages.insert (enqueueRow env i p) = .conflict :=
    (arbitrated.conflict s.messages holds (p,i) List.mem_cons_self).mpr ⟨keyed,r,member,named⟩
  have row : enqueueRow (drawn env i) 0 p = enqueueRow env i p := rfl
  have found : findByIdempotency s (drawn env i) p.eventType p.idempotencyKey = some r :=
    (findByIdempotency_eq_some (arbitrated.once s.messages holds)).mpr ⟨member,named⟩
  cases partitioned : cfg.partitioned with
  | true =>
    have lookup : partitionedLookup s (drawn env i) p = some r := by
      simp [partitionedLookup, partitioned, keyed, found]
    simp only [enqueue, lookup]
  | false =>
    have straight : partitionedLookup s (drawn env i) p = none := by simp [partitionedLookup, partitioned]
    simp only [enqueue, straight, row, fits, if_true, conflict, keyed, if_false, found]

/-- The batch statement does with its first row what a single call would do. -/
theorem batchInsertSQL_first {rows out : List Row} {final : Messages cfg}
    (inserted : batchInsertSQL s.messages (itemRow env (p, i) :: rows) = some (final, out)) :
    (∃ r ∈ s.messages.rows, p.idempotencyKey ≠ "" ∧ bears p.eventType p.idempotencyKey r = true ∧
      enqueue s (drawn env i) p = (s, some (scanMessage r), some (duplicateOf r p)) ∧
      batchInsertSQL s.messages rows = some (final, out)) ∨
    ∃ messages later, table messages ∧
      enqueue s (drawn env i) p = ({ s with messages }, some (scanMessage (enqueueRow env i p)), none) ∧
      batchInsertSQL messages rows = some (final, later) ∧ out = itemRow env (p, i) :: later := by
  rcases batchInsertSQL_cons inserted with ⟨conflict,rest⟩ | ⟨next,later,first,rest,same⟩
  · obtain ⟨keyed,r,member,named⟩ :=
      (arbitrated.conflict s.messages holds (p,i) List.mem_cons_self).mp conflict
    exact Or.inl ⟨r,member,keyed,named,enqueue_of_taken arbitrated holds fits keyed member named,rest⟩
  · exact Or.inr ⟨next,later,arbitrated.inserted s.messages next holds (p,i) List.mem_cons_self first,
      enqueue_of_inserted arbitrated holds fits first,rest,same⟩

end

/-- The one INSERT of a batch leaves the table of the single calls, and the correlation
by generated id recovers their results. `earlier` are the rows that the statement
returned for the elements before these. -/
theorem batch_each {env : Env} {table : Messages cfg → Prop} (items : List (EnqueueParams × Nat))
    (arbitrated : Arbitrated env items table) {s : Store cfg} {final : Messages cfg} {out earlier : List Row}
    (holds : table s.messages)
    (inserted : batchInsertSQL s.messages (items.map (itemRow env)) = some (final,out))
    (fits : ∀ item ∈ items, fitsColumns item.1 = true)
    (distinct : (items.map fun item => env.newID item.2).Nodup)
    (apart : ∀ row ∈ earlier, ∀ item ∈ items, row.id ≠ env.newID item.2) :
    (enqueueEach s env items).1 = { s with messages := final } ∧
    (∀ result ∈ (enqueueEach s env items).2, result.1.isSome = true ∧
      (result.2 = none ∨ ∃ err, result.2 = some (.duplicate err))) ∧
    ∀ history firstDup,
      collectBatch ⟨final,history⟩ env (earlier ++ out) (items.map fun item => (env.newID item.2,item.1))
          firstDup =
        ((enqueueEach s env items).2.map Prod.fst,
          firstDup.or ((enqueueEach s env items).2.findSome? Prod.snd)) := by
  induction items generalizing s out earlier with
  | nil =>
    cases inserted
    exact ⟨rfl,by simp [enqueueEach],by simp [enqueueEach, collectBatch]⟩
  | cons item rest ih =>
    obtain ⟨p,i⟩ := item
    obtain ⟨fresh,others⟩ := List.nodup_cons.mp distinct
    have fitsHead := fits (p,i) List.mem_cons_self
    have fitsRest : ∀ item ∈ rest, fitsColumns item.1 = true :=
      fun item member => fits item (List.mem_cons_of_mem _ member)
    have before : earlier.find? (fun row => row.id = env.newID i) = none := by
      rw [List.find?_eq_none]
      intro row member named
      exact apart row member (p,i) List.mem_cons_self (of_decide_eq_true named)
    rw [List.map_cons] at inserted
    rcases batchInsertSQL_first arbitrated holds fitsHead inserted with
      ⟨r,member,keyed,named,single,later⟩ | ⟨next,later,nextHolds,single,remaining,rfl⟩
    · have kept := batchInsertSQL_keeps later
      have returned := batchInsertSQL_returned later
      obtain ⟨table',clean,collected⟩ := ih arbitrated.tail holds later fitsRest others
        fun row early item later => apart row early item (List.mem_cons_of_mem _ later)
      have skipped : (earlier ++ out).find? (fun row => row.id = env.newID i) = none := by
        rw [List.find?_append, before, Option.none_or, List.find?_eq_none]
        intro row member' named'
        obtain ⟨item,listed,rfl⟩ := List.mem_map.mp (returned member')
        exact fresh (List.mem_map.mpr ⟨item,listed,of_decide_eq_true named'⟩)
      have existing (history : List HistoryRow) :
          findByIdempotency (⟨final,history⟩ : Store cfg) env p.eventType p.idempotencyKey = some r :=
        (@findByIdempotency_eq_some cfg ⟨final,history⟩
          (arbitrated.once final (arbitrated.tail.final holds later)) _ _ _ _).mpr ⟨kept member,named⟩
      simp only [enqueueEach, single]
      refine ⟨table',?_,?_⟩
      · intro result listed
        rcases List.mem_cons.mp listed with rfl | later
        · exact ⟨rfl,Or.inr ⟨_,rfl⟩⟩
        · exact clean result later
      · intro history firstDup
        simp only [List.map_cons, collectBatch, skipped, keyed, if_false, existing, collected]
        cases firstDup <;> simp
    · have apart' : ∀ row ∈ earlier ++ [itemRow env (p,i)], ∀ item ∈ rest, row.id ≠ env.newID item.2 := by
        intro row early item listed
        rcases List.mem_append.mp early with old | new
        · exact apart row old item (List.mem_cons_of_mem _ listed)
        · rw [List.mem_singleton.mp new]
          exact fun same => fresh (List.mem_map.mpr ⟨item,listed,same.symm⟩)
      obtain ⟨table',clean,collected⟩ := @ih arbitrated.tail { s with messages := next } later
        (earlier ++ [itemRow env (p,i)]) nextHolds remaining fitsRest others apart'
      have returned : (earlier ++ itemRow env (p,i) :: later).find? (fun row => row.id = env.newID i) =
          some (itemRow env (p,i)) := by
        rw [List.find?_append, before, Option.none_or]
        exact List.find?_cons_of_pos (decide_eq_true rfl)
      simp only [enqueueEach, single]
      refine ⟨table',?_,?_⟩
      · intro result listed
        rcases List.mem_cons.mp listed with rfl | later'
        · exact ⟨rfl,Or.inl rfl⟩
        · exact clean result later'
      · intro history firstDup
        have tail := collected history firstDup
        rw [List.append_assoc, List.singleton_append] at tail
        simp only [List.map_cons, collectBatch, returned, tail]
        rfl

theorem enqueueEach_length (s : Store cfg) (env : Env) (items : List (EnqueueParams × Nat)) :
    (enqueueEach s env items).2.length = items.length := by
  induction items generalizing s with
  | nil => rfl
  | cons item rest ih => exact congrArg (· + 1) (ih _)

theorem zipIdx_draws (env : Env) (ps : List EnqueueParams) :
    ps.zipIdx.map (fun item => env.newID item.2) = (List.range ps.length).map env.newID := by
  rw [List.range_eq_range', ← List.zipIdx_map_snd 0 ps, List.map_map]
  rfl

/-- On the unpartitioned schema, and unless its statement fails, EnqueueBatch leaves the
table that Enqueue on the elements in order leaves and returns what those calls return,
with the first of their errors; and those calls raise nothing but ErrDuplicate. -/
theorem batch_as_singles (policy : HistoryPolicy) (s : Store ⟨false, policy⟩) (env : Env)
    (ps : List EnqueueParams) (distinct : ((List.range ps.length).map env.newID).Nodup)
    (executed : ∀ operation, (enqueueBatch s env ps).2.2 ≠ some (.sql operation)) :
    (enqueueBatch s env ps).1 = (enqueueEach s env ps.zipIdx).1 ∧
    (enqueueBatch s env ps).2.1.length = ps.length ∧
    (enqueueBatch s env ps).2.1 = (enqueueEach s env ps.zipIdx).2.map Prod.fst ∧
    (enqueueBatch s env ps).2.2 = (enqueueEach s env ps.zipIdx).2.findSome? Prod.snd ∧
    ∀ result ∈ (enqueueEach s env ps.zipIdx).2, result.1.isSome = true ∧
      (result.2 = none ∨ ∃ err, result.2 = some (.duplicate err)) := by
  have size := enqueueEach_length s env ps.zipIdx
  rcases enqueueBatch_cases s env ps with ⟨rfl,batch⟩ | batch | ⟨final,out,fits,inserted,batch⟩
  · rw [batch]
    exact ⟨rfl,rfl,rfl,rfl,by simp [enqueueEach]⟩
  · rw [batch] at executed
    exact absurd rfl (executed "enqueue batch")
  · obtain ⟨table,clean,collected⟩ := @batch_each _ env _ ps.zipIdx (arbitrated_whole rfl env ps.zipIdx)
      s final out [] trivial inserted fits (zipIdx_draws env ps ▸ distinct) (by simp)
    have results := collected s.history none
    rw [List.nil_append, Option.none_or] at results
    rw [batch, results]
    exact ⟨table.symm,by simpa using size,rfl,rfl,clean⟩

/-- Two elements share a key with each other and one with the table. -/
theorem batch_as_singles_duplicates :
    ((List.range 3).map (Env.quiet 9 20).newID).Nodup ∧
    ((enqueueBatch (enqueue (Store.empty : Store ⟨false, .full⟩) (Env.quiet 5 7)
        ⟨"mail", some [], [], "a", 0, none⟩).1 (Env.quiet 9 20)
        [⟨"mail", some [], [], "b", 0, none⟩, ⟨"mail", some [], [], "b", 3, none⟩, ⟨"mail", some [], [], "a", 3, some 4⟩]).2.1.map
      fun out => out.map InboundMessage.id) = [some (.uuid 20), some (.uuid 20), some (.uuid 7)] ∧
    (enqueueBatch (enqueue (Store.empty : Store ⟨false, .full⟩) (Env.quiet 5 7)
        ⟨"mail", some [], [], "a", 0, none⟩).1 (Env.quiet 9 20)
        [⟨"mail", some [], [], "b", 0, none⟩, ⟨"mail", some [], [], "b", 3, none⟩, ⟨"mail", some [], [], "a", 3, some 4⟩]).2.2 =
      (enqueueEach (enqueue (Store.empty : Store ⟨false, .full⟩) (Env.quiet 5 7)
        ⟨"mail", some [], [], "a", 0, none⟩).1 (Env.quiet 9 20)
        [(⟨"mail", some [], [], "b", 0, none⟩, 0), (⟨"mail", some [], [], "b", 3, none⟩, 1),
          (⟨"mail", some [], [], "a", 3, some 4⟩, 2)]).2.findSome? Prod.snd := by
  refine ⟨by decide +kernel,by decide +kernel,?_⟩
  refine (batch_as_singles .full _ (Env.quiet 9 20) _ (by decide +kernel) ?_).2.2.2.1
  intro operation failed
  have error : (enqueueBatch (enqueue (Store.empty : Store ⟨false, .full⟩) (Env.quiet 5 7)
        ⟨"mail", some [], [], "a", 0, none⟩).1 (Env.quiet 9 20)
        [⟨"mail", some [], [], "b", 0, none⟩, ⟨"mail", some [], [], "b", 3, none⟩, ⟨"mail", some [], [], "a", 3, some 4⟩]).2.2 =
      some (.duplicate ⟨.uuid 20, "mail", "b"⟩) := by decide +kernel
  cases error.symm.trans failed

end Tickr.Postgres
