import Tickr.Migrations
import Tickr.Transition

/-! ApplyMigrations of the PostgreSQL adapter, interrupted anywhere. Each migration is one
transaction that runs its SQL and records its version, so a run that breaks off leaves the
schema and the version table at the end of some migration. The one error that does not end a
run is that of reading the recorded versions: the loop over the rows does not ask for it. -/
namespace Tickr.Postgres

/-- The committed database, as far as migrations go: the rows of tickr_schema_version
(`none` before the table exists) and the migrations whose SQL is committed, in order. -/
structure Schema (α : Type) where
  versions : Option (List Int)
  log : List (MigrationFile α)

inductive MigrationStatement (α : Type) where
  | createVersionTable
  | selectVersions
  | begin
  | apply (m : MigrationFile α)
  | record (version : Int)
  | commit

/-- The connection that runs the statements; `pending` is what its open transaction sees. -/
structure MigrationSession (α : Type) where
  committed : Schema α
  pending : Option (Schema α)

section
variable {α : Type}

def Schema.empty : Schema α := ⟨none, []⟩

def Schema.recorded (db : Schema α) : List Int := db.versions.getD []

def Schema.record (db : Schema α) (version : Int) : Schema α :=
  { db with versions := some (recordVersion db.recorded version) }

/-- CREATE TABLE IF NOT EXISTS. -/
def Schema.bootstrap (db : Schema α) : Schema α := { db with versions := some db.recorded }

def MigrationSession.exec (s : MigrationSession α) : MigrationStatement α → MigrationSession α
  | .createVersionTable => { s with committed := s.committed.bootstrap }
  | .selectVersions => s
  | .begin => { s with pending := some s.committed }
  | .apply m => { s with pending := s.pending.map fun db => { db with log := db.log ++ [m] } }
  | .record version => { s with pending := s.pending.map fun db => db.record version }
  | .commit => ⟨s.pending.getD s.committed, none⟩

def transaction (m : MigrationFile α) : List (MigrationStatement α) :=
  [.begin, .apply m, .record m.version, .commit]

/-- The statements of a run that has read the versions `applied`. -/
def migrationStatements (entries : List (MigrationFile α)) (applied : List Int) : List (MigrationStatement α) :=
  .createVersionTable :: .selectVersions :: (unapplied entries applied).flatMap transaction

/-- What statements leave behind: the connection goes, and an open transaction with it. -/
def executed (db : Schema α) (statements : List (MigrationStatement α)) : Schema α :=
  (statements.foldl MigrationSession.exec ⟨db, none⟩).committed

/-- What happens to a run. The rows of tickr_schema_version come in no particular order, and
the loop over them ends after the last one or with an error: `unread` are the versions that
it has not got to. The run breaks off after `cut` statements, if it has more. -/
structure MigrationRun where
  unread : List Int
  cut : Nat

/-- The versions that a run takes for applied. -/
def MigrationRun.applied (run : MigrationRun) (db : Schema α) : List Int :=
  db.recorded.filter fun version => version ∉ run.unread

/-- The run reads the version rows to the end. -/
def MigrationRun.ReadsAll (run : MigrationRun) (db : Schema α) : Prop := run.applied db = db.recorded

instance (run : MigrationRun) (db : Schema α) : Decidable (run.ReadsAll db) :=
  inferInstanceAs (Decidable (_ = _))

/-- `ApplyMigrations`, disturbed as `run` says. -/
def interrupted (entries : List (MigrationFile α)) (db : Schema α) (run : MigrationRun) : Schema α :=
  executed db ((migrationStatements entries (run.applied db)).take run.cut)

/-- `ApplyMigrations` without a failure. -/
def applyMigrations (entries : List (MigrationFile α)) (db : Schema α) : Schema α :=
  executed db (migrationStatements entries db.recorded)

/-- Runs one after the other. -/
def migrating (entries : List (MigrationFile α)) : Transition.System (Schema α) MigrationRun :=
  ⟨fun db run => some (interrupted entries db run)⟩

/-- What holds of the database between runs. -/
structure Migrated (entries : List (MigrationFile α)) (db : Schema α) : Prop where
  recorded : db.recorded = db.log.map MigrationFile.version
  ordered : db.log <+: migrations entries
  once : db.log.Nodup
  completed : (applyMigrations entries db).log = migrations entries ∧
    (applyMigrations entries db).recorded = (migrations entries).map MigrationFile.version
  settled : applyMigrations entries (applyMigrations entries db) = applyMigrations entries db

/-! ### One run -/

/-- The whole transaction of a migration. -/
def Schema.migrate (db : Schema α) (m : MigrationFile α) : Schema α :=
  { db with log := db.log ++ [m] }.record m.version

/-- Of the transactions that a run gets to, some first ones are committed and no other
leaves a trace. -/
theorem executed_transactions (ms : List (MigrationFile α)) (db : Schema α) (cut : Nat) :
    ∃ j, executed db ((ms.flatMap transaction).take cut) = (ms.take j).foldl Schema.migrate db := by
  induction ms generalizing db cut with
  | nil => exact ⟨0,by simp [executed]⟩
  | cons m rest ih =>
    match cut with
    | 0 | 1 | 2 | 3 => exact ⟨0,rfl⟩
    | cut + 4 =>
      obtain ⟨j,first⟩ := ih (db.migrate m) cut
      exact ⟨j + 1,first⟩

theorem executed_all (ms : List (MigrationFile α)) (db : Schema α) :
    executed db (ms.flatMap transaction) = ms.foldl Schema.migrate db := by
  induction ms generalizing db with
  | nil => rfl
  | cons m rest ih => exact ih (db.migrate m)

theorem interrupted_cases (entries : List (MigrationFile α)) (db : Schema α) (run : MigrationRun) :
    interrupted entries db run = db ∨ ∃ j, interrupted entries db run =
      ((unapplied entries (run.applied db)).take j).foldl Schema.migrate db.bootstrap := by
  obtain ⟨unread,cut⟩ := run
  match cut with
  | 0 => exact Or.inl rfl
  | 1 => exact Or.inr ⟨0,rfl⟩
  | cut + 2 => exact Or.inr (executed_transactions (unapplied entries _) db.bootstrap cut)

/-- A run that gets to its end. -/
theorem interrupted_whole {entries : List (MigrationFile α)} {db : Schema α} {run : MigrationRun}
    (whole : (migrationStatements entries (run.applied db)).length ≤ run.cut) :
    interrupted entries db run = (unapplied entries (run.applied db)).foldl Schema.migrate db.bootstrap := by
  rw [interrupted, List.take_of_length_le whole]
  exact executed_all (unapplied entries (run.applied db)) db.bootstrap

theorem applyMigrations_eq (entries : List (MigrationFile α)) (db : Schema α) :
    applyMigrations entries db = (unapplied entries db.recorded).foldl Schema.migrate db.bootstrap :=
  executed_all (unapplied entries db.recorded) db.bootstrap

/-! ### Any number of runs -/

variable {entries rest : List (MigrationFile α)} {db : Schema α}

/-- The invariant: exactly the first migrations are committed, and they are recorded. -/
structure Consistent (entries rest : List (MigrationFile α)) (db : Schema α) : Prop where
  parts : migrations entries = db.log ++ rest
  recorded : db.recorded = db.log.map MigrationFile.version

theorem Consistent.empty : Consistent entries (migrations entries) Schema.empty := ⟨rfl,rfl⟩

theorem Consistent.bootstrap (consistent : Consistent entries rest db) :
    Consistent entries rest db.bootstrap := ⟨consistent.parts,consistent.recorded⟩

theorem Consistent.unapplied (distinct : DistinctVersions entries) (consistent : Consistent entries rest db) :
    Tickr.unapplied entries db.recorded = rest := by
  rw [consistent.recorded]
  exact unapplied_rest distinct consistent.parts

theorem Consistent.migrate (distinct : DistinctVersions entries) {m : MigrationFile α}
    (consistent : Consistent entries (m :: rest) db) :
    Consistent entries rest (db.migrate m) where
  parts := by
    rw [consistent.parts]
    simp [Schema.migrate, Schema.record]
  recorded := by
    change recordVersion db.recorded m.version = (db.log ++ [m]).map MigrationFile.version
    rw [consistent.recorded, recordVersion_next distinct consistent.parts]

theorem Consistent.run (distinct : DistinctVersions entries) (ms : List (MigrationFile α))
    (consistent : Consistent entries (ms ++ rest) db) :
    Consistent entries rest (ms.foldl Schema.migrate db) := by
  induction ms generalizing db with
  | nil => exact consistent
  | cons m ms ih => exact ih (consistent.migrate distinct)

theorem Consistent.interrupted (distinct : DistinctVersions entries) (consistent : Consistent entries rest db)
    {run : MigrationRun} (reads : run.ReadsAll db) :
    ∃ rest, Consistent entries rest (interrupted entries db run) := by
  rcases interrupted_cases entries db run with same | ⟨j,committed⟩
  · exact ⟨rest,same.symm ▸ consistent⟩
  · rw [committed, reads, consistent.unapplied distinct]
    refine ⟨rest.drop j,Consistent.run distinct (rest.take j) ?_⟩
    rw [List.take_append_drop]
    exact consistent.bootstrap

theorem Consistent.runs (distinct : DistinctVersions entries) {runs : List MigrationRun} {final : Schema α}
    (run : (migrating entries).run Schema.empty runs = some final)
    (read : (migrating entries).Along (fun db run => run.ReadsAll db) Schema.empty runs) :
    ∃ rest, Consistent entries rest final := by
  refine Transition.System.invariant _ (fun db => ∃ rest, Consistent entries rest db) ?_ run read ⟨_,.empty⟩
  rintro db run next ⟨_,consistent⟩ reads step
  cases step
  exact consistent.interrupted distinct reads

theorem Consistent.applyMigrations (distinct : DistinctVersions entries)
    (consistent : Consistent entries rest db) : Consistent entries [] (applyMigrations entries db) := by
  rw [applyMigrations_eq, consistent.unapplied distinct]
  refine Consistent.run distinct rest ?_
  rw [List.append_nil]
  exact consistent.bootstrap

theorem foldl_migrate_bootstrapped (ms : List (MigrationFile α)) (db : Schema α) :
    (ms.foldl Schema.migrate db.bootstrap).bootstrap = ms.foldl Schema.migrate db.bootstrap := by
  induction ms generalizing db with
  | nil => rfl
  | cons m rest ih => exact ih (db.bootstrap.migrate m)

theorem Consistent.migrated (distinct : DistinctVersions entries) (consistent : Consistent entries rest db) :
    Migrated entries db where
  recorded := consistent.recorded
  ordered := ⟨rest,consistent.parts.symm⟩
  once := by
    rw [DistinctVersions, consistent.parts, List.map_append] at distinct
    exact distinct.of_append_left.of_map _
  completed := by
    have complete := consistent.applyMigrations distinct
    have whole := complete.parts
    rw [List.append_nil] at whole
    exact ⟨whole.symm,whole ▸ complete.recorded⟩
  settled := by
    have complete := consistent.applyMigrations distinct
    rw [applyMigrations_eq entries (Postgres.applyMigrations entries db), complete.unapplied distinct,
      List.foldl_nil, applyMigrations_eq, foldl_migrate_bootstrapped]

theorem foldl_migrate_log (ms : List (MigrationFile α)) (db : Schema α) :
    (ms.foldl Schema.migrate db).log = db.log ++ ms := by
  induction ms generalizing db with
  | nil => exact (List.append_nil _).symm
  | cons m ms ih =>
    rw [List.foldl_cons, ih]
    exact List.append_assoc _ [m] ms

/-- A run that does not break off commits the SQL of every migration that it has not read as
applied, that of a committed one for the second time. -/
theorem Consistent.once_iff (distinct : DistinctVersions entries) (consistent : Consistent entries rest db)
    {run : MigrationRun} (whole : (migrationStatements entries (run.applied db)).length ≤ run.cut) :
    (Postgres.interrupted entries db run).log.Nodup ↔ run.ReadsAll db := by
  constructor
  · intro once
    rw [interrupted_whole whole, foldl_migrate_log, List.nodup_append'] at once
    refine List.filter_eq_self.mpr fun version recorded => decide_eq_true fun unread => ?_
    rw [consistent.recorded] at recorded
    obtain ⟨m,committed,rfl⟩ := List.mem_map.mp recorded
    refine once.2.2 committed (List.mem_filter.mpr ⟨?_,decide_eq_true fun read => ?_⟩)
    · exact consistent.parts ▸ List.mem_append_left rest committed
    · exact of_decide_eq_true (List.mem_filter.mp read).2 unread
  · intro reads
    obtain ⟨_,next⟩ := consistent.interrupted distinct reads
    exact (next.migrated distinct).once

/-- However many runs there were and wherever each of them broke off, as long as each has read
the version rows to the end: the recorded versions are those of the committed migrations,
these are the first ones in name order and each is committed once, and an undisturbed run
commits the rest and leaves nothing to do. A further run that does not break off commits no
migration twice exactly if it reads the rows to the end too. -/
theorem migrations_survive (entries : List (MigrationFile α)) (distinct : DistinctVersions entries)
    (runs : List MigrationRun) (db : Schema α) (run : (migrating entries).run Schema.empty runs = some db)
    (read : (migrating entries).Along (fun db run => run.ReadsAll db) Schema.empty runs) :
    Migrated entries db ∧
    ∀ next : MigrationRun, (migrationStatements entries (next.applied db)).length ≤ next.cut →
      ((interrupted entries db next).log.Nodup ↔ next.ReadsAll db) := by
  obtain ⟨rest,consistent⟩ := Consistent.runs distinct run read
  exact ⟨consistent.migrated distinct,fun next whole => consistent.once_iff distinct whole⟩

end

/-- Two migrations and a file that is none, in the order of some directory. -/
def plainEntries : List (MigrationFile String) :=
  [⟨"0002_backfill.sql", "UPDATE t SET n = n + 1"⟩, ⟨"README.md", ""⟩,
    ⟨"0001_init.sql", "CREATE TABLE IF NOT EXISTS t (n INT)"⟩]

theorem plainEntries_distinct : DistinctVersions plainEntries := by
  unfold DistinctVersions
  decide +kernel

/-- The first run breaks off before its first commit, the second one after it. -/
theorem migrations_survive_twice :
    ∃ db, (migrating plainEntries).run Schema.empty [⟨[], 5⟩, ⟨[], 8⟩] = some db ∧
      db.log.map MigrationFile.name = ["0001_init.sql"] ∧ Migrated plainEntries db :=
  ⟨_,rfl,by decide +kernel,
    (migrations_survive plainEntries plainEntries_distinct [⟨[], 5⟩, ⟨[], 8⟩] _ rfl (by decide +kernel)).1⟩

/-- The second run loses its connection before the row of version 2 and goes on with a new
one: it commits the SQL of that migration again. -/
theorem migration_committed_twice :
    ∃ db, (migrating plainEntries).run Schema.empty [⟨[], 10⟩, ⟨[2], 6⟩] = some db ∧
      db.log.map MigrationFile.version = [1, 2, 2] ∧ db.recorded = [1, 2] ∧ ¬Migrated plainEntries db := by
  refine ⟨_,rfl,by decide +kernel,by decide +kernel,fun migrated => ?_⟩
  exact absurd migrated.once (by decide +kernel)

end Tickr.Postgres
