import Tickr.KeyedTable

/-! Transactions over a table. A transaction keeps its own versions of the rows that it has
locked, and its commit puts them into the table. As long as nobody else changes a locked row,
that is what the statements of the transaction would do there, one after the other. -/
namespace KeyedTable

/-- An UPDATE statement. -/
structure Write {α κ ι : Type} (key : α → κ) (index : α → Option ι) where
  guard : α → Bool
  assign : Assign key index

section
variable {α κ ι : Type} {key : α → κ} {index : α → Option ι}

def Table.write (t : Table key index) (w : Write key index) : Table key index := t.update w.guard w.assign

/-- What a list of statements makes of one row. -/
def written (log : List (Write key index)) (a : α) : α := log.foldl (fun a w => when w.guard w.assign.set a) a

theorem written_append (log : List (Write key index)) (w : Write key index) (a : α) :
    written (log ++ [w]) a = when w.guard w.assign.set (written log a) := List.foldl_append

theorem Table.writes_rows (t : Table key index) (log : List (Write key index)) :
    (log.foldl Table.write t).rows = t.rows.map (written log) := by
  induction log generalizing t with
  | nil => exact (List.map_id _).symm
  | cons w rest ih =>
    rw [List.foldl_cons, ih]
    exact List.map_map

theorem written_free {log : List (Write key index)} {locks : List κ} {a : α}
    (confined : ∀ w ∈ log, ∀ a, w.guard a = true → key a ∈ locks) (free : key a ∉ locks) : written log a = a := by
  induction log with
  | nil => rfl
  | cons w rest ih =>
    have off : w.guard a = false := Bool.eq_false_iff.mpr fun on => free (confined w List.mem_cons_self a on)
    obtain ⟨_,later⟩ := List.forall_mem_cons.mp confined
    rw [written, List.foldl_cons, when, off]
    exact ih later

variable [DecidableEq κ]

/-- The versions to keep after a statement. -/
def Table.versions (t : Table key index) (locks : List κ) : List α := t.rows.filter fun a => key a ∈ locks

theorem Table.versions_locked {t : Table key index} {locks : List κ} : ∀ b ∈ t.versions locks, key b ∈ locks :=
  fun _ member => of_decide_eq_true (List.mem_filter.mp member).2

variable [DecidableEq ι]

/-- A row as the transaction sees it. An UPDATE keeps key and index entry, so a version has
those of its row. -/
def version (key : α → κ) (index : α → Option ι) (own : List α) (a : α) : α :=
  (own.find? fun b => key b = key a && index b = index a).getD a

theorem version_same (key : α → κ) (index : α → Option ι) (own : List α) (a : α) :
    key (version key index own a) = key a ∧ index (version key index own a) = index a := by
  unfold version
  cases found : own.find? fun b => key b = key a && index b = index a with
  | none => exact ⟨rfl,rfl⟩
  | some b => simpa using List.find?_some found

theorem version_free {own : List α} {locks : List κ} {a : α} (locked : ∀ b ∈ own, key b ∈ locks)
    (free : key a ∉ locks) : version key index own a = a := by
  have none : (own.find? fun b => key b = key a && index b = index a) = none := by
    rw [List.find?_eq_none]
    intro b member same
    simp only [Bool.and_eq_true, decide_eq_true_eq] at same
    exact free (same.1 ▸ locked b member)
  rw [version, none, Option.getD_none]

/-- A row that is kept is the version of every row that has its key and index entry. -/
theorem version_kept {t : Table key index} {locks : List κ} {a b : α} (present : b ∈ t.rows) (locked : key a ∈ locks)
    (key_ : key b = key a) (index_ : index b = index a) : version key index (t.versions locks) a = b := by
  have kept : b ∈ t.versions locks := List.mem_filter.mpr ⟨present,decide_eq_true (key_ ▸ locked)⟩
  rw [version]
  cases found : (t.versions locks).find? fun c => key c = key a && index c = index a with
  | none =>
    have missing := List.find?_eq_none.mp found b kept
    simp [key_, index_] at missing
  | some c =>
    have fits := List.find?_some found
    simp only [Bool.and_eq_true, decide_eq_true_eq] at fits
    have there := (List.mem_filter.mp (List.mem_of_find?_eq_some found)).1
    exact List.inj_on_of_nodup_map t.primary there present (fits.1.trans key_.symm)

/-- The table as the transaction sees it, and as it is after the commit. -/
def Table.overlay (t : Table key index) (own : List α) : Table key index :=
  t.update (fun _ => true) ⟨version key index own, fun a => (version_same key index own a).1,
    fun a => (version_same key index own a).2⟩

theorem Table.overlay_rows (t : Table key index) (own : List α) :
    (t.overlay own).rows = t.rows.map (version key index own) := rfl

/-- The versions are what the statements make of the rows that are in the table. -/
structure Versions (t : Table key index) (locks : List κ) (own : List α) (log : List (Write key index)) : Prop where
  locked : ∀ b ∈ own, key b ∈ locks
  confined : ∀ w ∈ log, ∀ a, w.guard a = true → key a ∈ locks
  current : ∀ a ∈ t.rows, version key index own a = written log a

section
variable {t t' : Table key index} {locks : List κ} {own : List α} {log : List (Write key index)}

theorem Versions.start (t : Table key index) : Versions t [] [] ([] : List (Write key index)) :=
  ⟨nofun,nofun,fun _ _ => rfl⟩

theorem Versions.commit (versions : Versions t locks own log) : t.overlay own = log.foldl Table.write t := by
  apply Table.ext
  rw [Table.overlay_rows, Table.writes_rows]
  exact List.map_congr_left versions.current

/-- Whatever others do to rows that are not locked. -/
theorem Versions.stable (versions : Versions t locks own log) (agree : ∀ k ∈ locks, t'.find? k = t.find? k) :
    Versions t' locks own log := by
  refine ⟨versions.locked,versions.confined,fun a member => ?_⟩
  by_cases locked : key a ∈ locks
  · have found := (agree _ locked).symm.trans (Table.find?_of_mem member)
    exact versions.current a (Table.find?_mem found)
  · rw [version_free versions.locked locked, written_free versions.confined locked]

/-- A statement of the transaction, with the locks that it takes. -/
theorem Versions.write (versions : Versions t locks own log) {more : List κ} {w : Write key index}
    (confined : ∀ a, w.guard a = true → key a ∈ more ++ locks) :
    Versions t (more ++ locks) (((t.overlay own).write w).versions (more ++ locks)) (log ++ [w]) := by
  refine ⟨Table.versions_locked,?_,fun a member => ?_⟩
  · intro w' logged a on
    rcases List.mem_append.mp logged with earlier | last
    · exact List.mem_append_right _ (versions.confined w' earlier a on)
    · rw [List.mem_singleton.mp last] at on
      exact confined a on
  rw [written_append, ← versions.current a member]
  by_cases locked : key a ∈ more ++ locks
  · have same := version_same key index own a
    have present : when w.guard w.assign.set (version key index own a) ∈ ((t.overlay own).write w).rows :=
      List.mem_map_of_mem (List.mem_map_of_mem member)
    exact version_kept present locked ((when_key w.guard w.assign _).trans same.1)
      ((when_index w.guard w.assign _).trans same.2)
  · rw [version_free Table.versions_locked locked]
    have free : key a ∉ locks := fun locked' => locked (List.mem_append_right _ locked')
    have off : w.guard a = false := Bool.eq_false_iff.mpr fun on => locked (confined a on)
    rw [version_free versions.locked free, when, off]
    rfl

end

end

end KeyedTable
