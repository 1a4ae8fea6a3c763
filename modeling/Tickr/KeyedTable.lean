import Mathlib.Data.List.Nodup
import Mathlib.Data.List.Pairwise
import Mathlib.Data.List.Sort

/-! Tables with a primary key and a partial unique index. Both constraints are fields,
so a statement cannot build a table that violates them; reading by key commutes with
update, deletion and insertion, which is all that a proof about one row needs. -/
namespace KeyedTable

structure Table {α κ ι : Type} (key : α → κ) (index : α → Option ι) where
  rows : List α
  primary : (rows.map key).Nodup
  unique : (rows.filterMap index).Nodup

/-- A SET clause: it may change a row, but neither its key nor its index entry. -/
structure Assign {α κ ι : Type} (key : α → κ) (index : α → Option ι) where
  set : α → α
  keepsKey : ∀ a, key (set a) = key a
  keepsIndex : ∀ a, index (set a) = index a

/-- The order in which a scan without ORDER BY happens to visit the rows. -/
structure Scan (α : Type) where
  visit : List α → List α
  perm : ∀ rows, (visit rows).Perm rows

def Scan.physical (α : Type) : Scan α := ⟨id, fun _ => .refl _⟩

@[simp] theorem Scan.mem_visit (scan : Scan α) {rows : List α} {a : α} :
    a ∈ scan.visit rows ↔ a ∈ rows := (scan.perm rows).mem_iff

/-- LIMIT passes over a row only when it is used up. -/
theorem mem_take_or_full {l : List α} {a : α} (member : a ∈ l) (limit : Nat) :
    a ∈ l.take limit ∨ (l.take limit).length = limit := by
  by_cases room : l.length ≤ limit
  · rw [List.take_of_length_le room]
    exact Or.inl member
  · exact Or.inr (List.length_take_of_le (Nat.le_of_not_le room))

/-- ORDER BY order LIMIT n: the `n` candidates that no other one precedes, or all of them. -/
structure Smallest (order : α → α → Prop) (n : Nat) (candidates chosen : List α) : Prop where
  subset : chosen ⊆ candidates
  nodup : chosen.Nodup
  length : chosen.length = min n candidates.length
  least : ∀ a ∈ chosen, ∀ b ∈ candidates, b ∉ chosen → order a b

theorem take_smallest {order : α → α → Prop} [DecidableRel order] [Std.Total order] [IsTrans α order] {l : List α}
    (distinct : l.Nodup) (n : Nat) : Smallest order n l ((l.insertionSort order).take n) := by
  have perm := List.perm_insertionSort order l
  refine ⟨fun a taken => perm.mem_iff.mp (List.mem_of_mem_take taken),
    (perm.nodup_iff.mpr distinct).sublist (List.take_sublist _ _),by rw [List.length_take, perm.length_eq],?_⟩
  intro a taken b member passed
  have sorted := List.pairwise_insertionSort order l
  have split := List.take_append_drop n (l.insertionSort order)
  rw [← split, List.pairwise_append] at sorted
  have rest : b ∈ (l.insertionSort order).drop n := by
    have listed := perm.mem_iff.mpr member
    rw [← split, List.mem_append] at listed
    exact listed.resolve_left passed
  exact sorted.2.2 a taken b rest

theorem Smallest.eq_nil_iff {order : α → α → Prop} {n : Nat} {candidates chosen : List α}
    (smallest : Smallest order n candidates chosen) (positive : 0 < n) : chosen = [] ↔ candidates = [] := by
  have length := smallest.length
  rw [← List.length_eq_zero_iff, ← List.length_eq_zero_iff]
  omega

/-- UPDATE ... SET set WHERE guard, seen from one row. -/
def when (guard : α → Bool) (set : α → α) (a : α) : α := if guard a then set a else a

theorem map_when_same {row : Option α} {guard : α → Bool} {set : α → α}
    (off : ∀ a, row = some a → guard a = false) : row.map (when guard set) = row := by
  cases row with
  | none => rfl
  | some a => simp [when, off a rfl]

/-- Two updates with one SET clause, of which the second passes over what the first has set. -/
theorem when_when {first second : α → Bool} {set : α → α} (spent : ∀ a, second (set a) = false) (a : α) :
    when second set (when first set a) = when (fun a => first a || second a) set a := by
  by_cases on : first a = true
  · simp [when, on, spent]
  · have off : first a = false := Bool.eq_false_iff.mpr on
    simp only [when, off, Bool.false_or, Bool.false_eq_true, if_false]

section
variable {α κ ι : Type} {key : α → κ} {index : α → Option ι}

def empty : Table key index := ⟨[], by simp, by simp⟩

theorem Table.ext {t u : Table key index} (same : t.rows = u.rows) : t = u := by
  cases t; cases u; simp_all

theorem when_key (guard : α → Bool) (f : Assign key index) (a : α) : key (when guard f.set a) = key a := by
  unfold when; split
  · exact f.keepsKey a
  · rfl

theorem when_index (guard : α → Bool) (f : Assign key index) (a : α) : index (when guard f.set a) = index a := by
  unfold when; split
  · exact f.keepsIndex a
  · rfl

/-- UPDATE ... SET f WHERE guard. -/
def Table.update (t : Table key index) (guard : α → Bool) (f : Assign key index) : Table key index where
  rows := t.rows.map (when guard f.set)
  primary := by
    have same : (key ∘ when guard f.set) = key := funext fun a => when_key guard f a
    rw [List.map_map, same]; exact t.primary
  unique := by
    have same : (index ∘ when guard f.set) = index := funext fun a => when_index guard f a
    rw [List.filterMap_map, same]; exact t.unique

theorem Table.keys_update (t : Table key index) (guard : α → Bool) (f : Assign key index) :
    (t.update guard f).rows.map key = t.rows.map key := by
  rw [Table.update, List.map_map]
  exact List.map_congr_left fun a _ => when_key guard f a

theorem Table.update_idle {t : Table key index} {guard : α → Bool} {f : Assign key index}
    (idle : ∀ a ∈ t.rows, guard a = false) : t.update guard f = t := by
  apply Table.ext
  calc t.rows.map (when guard f.set)
      = t.rows.map id := List.map_congr_left fun a member => by simp [when, idle a member]
    _ = t.rows := List.map_id _

/-- Two UPDATEs that differ in their guards alone do the same exactly if the guards agree. -/
theorem Table.update_eq_iff {t : Table key index} {first second : α → Bool} {f : Assign key index}
    (moves : ∀ a, first a = true ∨ second a = true → f.set a ≠ a) :
    t.update first f = t.update second f ↔ ∀ a ∈ t.rows, first a = second a := by
  constructor
  · intro same a member
    have at_ : when first f.set a = when second f.set a :=
      List.map_inj_left.mp (congrArg Table.rows same) a member
    cases left : first a <;> cases right : second a <;> simp only [when, left, right] at at_ ⊢
    · exact absurd at_.symm (moves a (Or.inr right))
    · exact absurd at_ (moves a (Or.inl left))
  · intro agree
    apply Table.ext
    exact List.map_congr_left fun a member => by simp only [when, agree a member]

/-- UPDATEs with one SET clause, none of which finds what another has set, are one. -/
theorem Table.foldl_update {β : Type} (guard : β → α → Bool) (f : Assign key index)
    (spent : ∀ b a, guard b (f.set a) = false) (bs : List β) (t : Table key index) :
    bs.foldl (fun t b => t.update (guard b) f) t = t.update (fun a => bs.any fun b => guard b a) f := by
  induction bs generalizing t with
  | nil => exact (Table.update_idle fun _ _ => rfl).symm
  | cons b rest ih =>
    rw [List.foldl_cons, ih]
    apply Table.ext
    simp only [Table.update, List.map_map]
    refine List.map_congr_left fun a _ => ?_
    rw [Function.comp_apply, when_when]
    · rfl
    · intro c
      rw [List.any_eq_false]
      intro b _
      simp [spent b c]

/-- An entry of the unique index names at most one row. -/
theorem Table.index_unique {t : Table key index} {a b : α} {i : ι} (left : a ∈ t.rows) (right : b ∈ t.rows)
    (entryLeft : index a = some i) (entryRight : index b = some i) : a = b := by
  by_contra different
  have apart := List.pairwise_filterMap.mp t.unique
  have symmetric : Std.Symm fun x y : α => ∀ u, index x = some u → ∀ v, index y = some v → u ≠ v :=
    ⟨fun x y distinct u atY v atX same => distinct v atX u atY same.symm⟩
  exact apart.forall left right different i entryLeft i entryRight rfl

/-- DELETE WHERE guard. -/
def Table.delete (t : Table key index) (guard : α → Bool) : Table key index where
  rows := t.rows.filter (fun a => !guard a)
  primary := t.primary.sublist (List.filter_sublist.map _)
  unique := t.unique.sublist (List.filter_sublist.filterMap _)

theorem Table.delete_idle {t : Table key index} {guard : α → Bool}
    (idle : ∀ a ∈ t.rows, guard a = false) : t.delete guard = t :=
  Table.ext (List.filter_eq_self.mpr fun a member => by simp [idle a member])

variable [DecidableEq κ]

/-- The rows under the given keys, in the order of a scan. -/
def Table.select (t : Table key index) (scan : Scan α) (keys : List κ) : List α :=
  (scan.visit t.rows).filter fun a => key a ∈ keys

/-- What RETURNING, or a SELECT after it, yields of an UPDATE by key. -/
theorem Table.mem_select_update {t : Table key index} {scan : Scan α} {keys : List κ}
    {f : Assign key index} {b : α} :
    b ∈ (t.update (fun a => key a ∈ keys) f).select scan keys ↔
      ∃ a ∈ t.rows, key a ∈ keys ∧ b = f.set a := by
  simp only [Table.select, List.mem_filter, Scan.mem_visit, decide_eq_true_eq, Table.update, List.mem_map]
  constructor
  · rintro ⟨⟨a,member,rfl⟩,chosen⟩
    have named : key a ∈ keys := by rwa [when_key _ f] at chosen
    exact ⟨a,member,named,by simp [when, named]⟩
  · rintro ⟨a,member,named,rfl⟩
    exact ⟨⟨a,member,by simp [when, named]⟩,by rwa [f.keepsKey]⟩

theorem Table.select_nodup (t : Table key index) (scan : Scan α) (keys : List κ) :
    ((t.select scan keys).map key).Nodup :=
  ((scan.perm t.rows).map key).nodup_iff.mpr t.primary |>.sublist (List.filter_sublist.map _)

/-- A SELECT by distinct keys that are all present yields that many rows. -/
theorem Table.select_length {t : Table key index} {scan : Scan α} {keys : List κ} (distinct : keys.Nodup)
    (present : keys ⊆ t.rows.map key) : (t.select scan keys).length = keys.length := by
  rw [← List.length_map key]
  refine ((List.perm_ext_iff_of_nodup (t.select_nodup scan keys) distinct).mpr fun k => ?_).length_eq
  simp only [Table.select, List.mem_map, List.mem_filter, Scan.mem_visit, decide_eq_true_eq]
  constructor
  · rintro ⟨a,⟨_,named⟩,rfl⟩
    exact named
  · intro named
    obtain ⟨a,member,rfl⟩ := List.mem_map.mp (present named)
    exact ⟨a,⟨member,named⟩,rfl⟩

/-- A DELETE by distinct keys that are all present removes that many rows. -/
theorem Table.delete_length {t : Table key index} {keys : List κ} (distinct : keys.Nodup)
    (present : keys ⊆ t.rows.map key) :
    (t.delete (fun a => key a ∈ keys)).rows.length + keys.length ≤ t.rows.length := by
  have parts := List.length_eq_length_filter_add (l := t.rows) (fun a => decide (key a ∈ keys))
  have hit : keys ⊆ (t.rows.filter fun a => decide (key a ∈ keys)).map key := by
    intro k named
    obtain ⟨a,member,rfl⟩ := List.mem_map.mp (present named)
    exact List.mem_map_of_mem (List.mem_filter.mpr ⟨member,decide_eq_true named⟩)
  have covered := (List.subperm_of_subset distinct hit).length_le
  rw [List.length_map] at covered
  simp only [Table.delete]
  omega

def Table.find? (t : Table key index) (k : κ) : Option α := t.rows.find? (fun a => key a = k)

theorem Table.find?_eq_some {t : Table key index} {k : κ} {a : α} :
    t.find? k = some a ↔ a ∈ t.rows ∧ key a = k := by
  constructor
  · intro found
    exact ⟨List.mem_of_find?_eq_some found, by simpa using List.find?_some found⟩
  · rintro ⟨member, rfl⟩
    cases found : t.rows.find? (fun b => key b = key a) with
    | none => simpa using List.find?_eq_none.mp found a member
    | some b =>
      have same : key b = key a := by simpa using List.find?_some found
      have := List.inj_on_of_nodup_map t.primary (List.mem_of_find?_eq_some found) member same
      simpa [Table.find?, this] using found

theorem Table.find?_key {t : Table key index} {k : κ} {a : α} (found : t.find? k = some a) :
    key a = k := (Table.find?_eq_some.mp found).2

theorem Table.find?_mem {t : Table key index} {k : κ} {a : α} (found : t.find? k = some a) :
    a ∈ t.rows := (Table.find?_eq_some.mp found).1

theorem Table.find?_of_mem {t : Table key index} {a : α} (member : a ∈ t.rows) :
    t.find? (key a) = some a := Table.find?_eq_some.mpr ⟨member,rfl⟩

theorem Table.find?_eq_none {t : Table key index} {k : κ} :
    t.find? k = none ↔ k ∉ t.rows.map key := by
  simp [Table.find?]

/-- A WHERE clause that fixes the key finds at most the row under that key. -/
theorem Table.filter_eq_find? (t : Table key index) (k : κ) (guard : α → Bool)
    (fixes : ∀ a, guard a = true → key a = k) : t.rows.filter guard = ((t.find? k).filter guard).toList := by
  cases found : t.find? k with
  | none =>
    rw [Option.filter_none, Option.toList_none, List.filter_eq_nil_iff]
    intro a member on
    exact Table.find?_eq_none.mp found (fixes a on ▸ List.mem_map_of_mem member)
  | some a =>
    obtain ⟨member,named⟩ := Table.find?_eq_some.mp found
    have only (b : α) (present : b ∈ t.rows) (on : guard b = true) : b = a :=
      List.inj_on_of_nodup_map t.primary present member ((fixes b on).trans named.symm)
    by_cases on : guard a = true
    · rw [Option.filter_some, if_pos on, Option.toList_some]
      have split := (t.primary.of_map _).filter guard
      refine List.perm_singleton.mp ((List.perm_ext_iff_of_nodup split (List.nodup_singleton a)).mpr ?_)
      intro b
      rw [List.mem_filter, List.mem_singleton]
      constructor
      · rintro ⟨present,fires⟩
        exact only b present fires
      · rintro rfl
        exact ⟨member,on⟩
    · rw [Option.filter_some, if_neg on, Option.toList_none, List.filter_eq_nil_iff]
      intro b present fires
      exact on (only b present fires ▸ fires)

theorem Table.find?_update (t : Table key index) (guard : α → Bool) (f : Assign key index) (k : κ) :
    (t.update guard f).find? k = (t.find? k).map (when guard f.set) := by
  simp only [Table.find?, Table.update, List.find?_map]
  congr 2
  funext a
  simp only [Function.comp_apply, when_key]

theorem Table.find?_delete (t : Table key index) (guard : α → Bool) (k : κ) :
    (t.delete guard).find? k = (t.find? k).filter (fun a => !guard a) := by
  cases found : t.find? k with
  | none =>
    rw [Table.find?_eq_none] at found
    rw [Option.filter_none, Table.find?_eq_none]
    intro member
    obtain ⟨a,kept,eq⟩ := List.mem_map.mp member
    exact found (List.mem_map.mpr ⟨a,List.mem_of_mem_filter kept,eq⟩)
  | some a =>
    obtain ⟨member,rfl⟩ := Table.find?_eq_some.mp found
    by_cases gone : guard a = true
    · simp only [Option.filter_some, gone]
      apply Table.find?_eq_none.mpr
      intro present
      obtain ⟨b,kept,same⟩ := List.mem_map.mp present
      have := List.inj_on_of_nodup_map t.primary (List.mem_of_mem_filter kept) member same
      subst this
      simp [Table.delete, gone] at kept
    · simp only [Option.filter_some, gone]
      exact Table.find?_eq_some.mpr ⟨by simp [Table.delete, member, gone],rfl⟩

variable [DecidableEq ι]

def Table.conflicts (t : Table key index) (a : α) : Bool :=
  (index a).any fun i => i ∈ t.rows.filterMap index

inductive Insertion (key : α → κ) (index : α → Option ι) where
  | conflict
  | duplicateKey
  | inserted (table : Table key index)

/-- INSERT ... ON CONFLICT (index) DO NOTHING. The arbiter index is probed first; a
repeated primary key is not covered by it and stays an error. -/
def Table.insert (t : Table key index) (a : α) : Insertion key index :=
  if conflict : t.conflicts a then .conflict
  else if taken : key a ∈ t.rows.map key then .duplicateKey
  else .inserted
    { rows := t.rows ++ [a]
      primary := by
        rw [List.map_append, List.map_singleton]
        exact t.primary.append (List.nodup_singleton _) (by simpa using taken)
      unique := by
        rw [List.filterMap_append]
        refine t.unique.append ?_ ?_
        · cases entry : index a <;> simp [entry]
        · cases entry : index a with
          | none => simp [entry]
          | some i => simpa [entry, Table.conflicts] using conflict }

theorem Table.insert_inserted {t u : Table key index} {a : α} (inserted : t.insert a = .inserted u) :
    u.rows = t.rows ++ [a] ∧ key a ∉ t.rows.map key := by
  unfold Table.insert at inserted
  split at inserted
  · cases inserted
  · split at inserted
    · cases inserted
    · cases inserted
      exact ⟨rfl,by assumption⟩

theorem insert_empty (a : α) : ∃ t, (empty : Table key index).insert a = .inserted t ∧ t.rows = [a] := by
  have free : ¬(empty : Table key index).conflicts a = true := by simp [Table.conflicts, empty]
  have absent : key a ∉ (empty : Table key index).rows.map key := by simp [empty]
  rw [Table.insert, dif_neg free, dif_neg absent]
  exact ⟨_,rfl,rfl⟩

theorem Table.insert_conflict {t : Table key index} {a : α} :
    t.insert a = .conflict ↔ ∃ i, index a = some i ∧ ∃ b ∈ t.rows, index b = some i := by
  have hit : t.conflicts a = true ↔ ∃ i, index a = some i ∧ ∃ b ∈ t.rows, index b = some i := by
    simp [Table.conflicts, Option.any_eq_true]
  rw [← hit]
  unfold Table.insert
  split
  · simp [*]
  · split <;> simp [*]

theorem Table.insert_duplicateKey {t : Table key index} {a : α} (taken : t.insert a = .duplicateKey) :
    key a ∈ t.rows.map key := by
  unfold Table.insert at taken
  split at taken
  · cases taken
  · split at taken
    · assumption
    · cases taken

theorem Table.find?_insert {t u : Table key index} {a : α} (inserted : t.insert a = .inserted u) (k : κ) :
    u.find? k = if key a = k then some a else t.find? k := by
  obtain ⟨rows,absent⟩ := Table.insert_inserted inserted
  simp only [Table.find?, rows, List.find?_append]
  split
  · rename_i same
    subst same
    have none : t.rows.find? (fun b => key b = key a) = none := Table.find?_eq_none.mpr absent
    simp [none]
  · rename_i different
    simp [different]

/-- All of the rows, if none of them conflicts with what is there. -/
def Table.insertAll (t : Table key index) : List α → Option (Table key index)
  | [] => some t
  | a :: rest =>
    match t.insert a with
    | .inserted next => Table.insertAll next rest
    | .conflict | .duplicateKey => none

theorem Table.insertAll_rows {t u : Table key index} {new : List α} (inserted : t.insertAll new = some u) :
    u.rows = t.rows ++ new := by
  induction new generalizing t with
  | nil =>
    cases inserted
    exact (List.append_nil _).symm
  | cons a rest ih =>
    unfold Table.insertAll at inserted
    split at inserted
    · rename_i next first
      rw [ih inserted, (Table.insert_inserted first).1, List.append_assoc]
      rfl
    · cases inserted
    · cases inserted

end

end KeyedTable
