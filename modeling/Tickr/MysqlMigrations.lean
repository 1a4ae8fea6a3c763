import Tickr.Migrations

/-! ApplyMigrations of the MySQL adapter, interrupted anywhere. Each statement of a
migration commits by itself and its version is recorded after the last one. A run that
breaks off in between leaves objects behind that the next run tries to create again: from
then on every run fails at the same statement. -/
namespace Tickr.Mysql

/-- What a CREATE statement creates; an index belongs to a table. -/
inductive SchemaObject where
  | table (name : String)
  | index (name table : String)
  deriving DecidableEq, Repr

/-- The SQL of a file as `splitSQL` cuts it, with `none` for a blank piece. -/
abbrev Migration := MigrationFile (List (Option SchemaObject))

structure Schema where
  versions : Option (List Int)
  objects : List SchemaObject

inductive MigrationStatement where
  | createVersionTable
  | selectVersions
  | create (object : SchemaObject)
  | record (version : Int)

def Schema.empty : Schema := ⟨none, []⟩

def Schema.recorded (db : Schema) : List Int := db.versions.getD []

/-- CREATE TABLE IF NOT EXISTS. -/
def Schema.bootstrap (db : Schema) : Schema := { db with versions := some db.recorded }

/-- An object that exists cannot be created, nor an index on a table that does not. -/
def creatable (objects : List SchemaObject) : SchemaObject → Bool
  | .table name => .table name ∉ objects
  | .index name table => .index name table ∉ objects && .table table ∈ objects

def Schema.exec (db : Schema) : MigrationStatement → Option Schema
  | .createVersionTable => some db.bootstrap
  | .selectVersions => some db
  | .create object => if creatable db.objects object then some { db with objects := db.objects ++ [object] } else none
  | .record version => some { db with versions := some (recordVersion db.recorded version) }

/-- The database after statements up to the first one that fails, and whether none did. -/
def Schema.run (db : Schema) : List MigrationStatement → Schema × Bool
  | [] => (db, true)
  | statement :: rest =>
    match db.exec statement with
    | none => (db, false)
    | some next => Schema.run next rest

/-- The objects of a migration; blank pieces are skipped. -/
def creates (m : Migration) : List SchemaObject := m.sql.filterMap id

def migrationStatements (m : Migration) : List MigrationStatement :=
  (creates m).map .create ++ [.record m.version]

def runStatements (entries : List Migration) (applied : List Int) : List MigrationStatement :=
  .createVersionTable :: .selectVersions :: (unapplied entries applied).flatMap migrationStatements

/-- `ApplyMigrations`, and whether it returns nil. -/
def applyMigrations (entries : List Migration) (db : Schema) : Schema × Bool :=
  db.run (runStatements entries db.recorded)

/-- A run that breaks off after `cut` statements, if it has more. -/
def interrupted (entries : List Migration) (db : Schema) (cut : Nat) : Schema :=
  (db.run ((runStatements entries db.recorded).take cut)).1

/-- An undisturbed run returns nil and leaves every migration applied and recorded. -/
def Completes (entries : List Migration) (db : Schema) : Prop :=
  (applyMigrations entries db).2 = true ∧ ∀ m ∈ migrations entries,
    m.version ∈ (applyMigrations entries db).1.recorded ∧
    ∀ object ∈ creates m, object ∈ (applyMigrations entries db).1.objects

/-- `cut` statements into the given migrations, one of them has begun to create its objects
and is not recorded. -/
def midway : List Migration → Nat → Bool
  | [], _ => false
  | m :: rest, cut =>
    if cut ≤ (creates m).length then cut != 0 else midway rest (cut - ((creates m).length + 1))

/-- No run breaks off midway; the first two statements of a run come before all migrations. -/
def Unbroken (entries : List Migration) (db : Schema) : List Nat → Prop
  | [] => True
  | cut :: cuts => midway (unapplied entries db.recorded) (cut - 2) = false ∧
      Unbroken entries (interrupted entries db cut) cuts

/-! ### Statements in a row -/

theorem Schema.run_append {db next : Schema} {first : List MigrationStatement}
    (executed : db.run first = (next, true)) (second : List MigrationStatement) :
    db.run (first ++ second) = next.run second := by
  induction first generalizing db with
  | nil =>
    cases executed
    rfl
  | cons statement rest ih =>
    simp only [List.cons_append, Schema.run] at executed ⊢
    split at executed
    · cases executed
    · exact ih executed

/-- None of the objects exists when its turn comes. -/
def Creatable (objects : List SchemaObject) : List SchemaObject → Prop
  | [] => True
  | object :: rest => creatable objects object = true ∧ Creatable (objects ++ [object]) rest

def decidableCreatable : ∀ objects new, Decidable (Creatable objects new)
  | _, [] => isTrue trivial
  | objects, object :: rest =>
    @instDecidableAnd _ _ inferInstance (decidableCreatable (objects ++ [object]) rest)

instance (objects new : List SchemaObject) : Decidable (Creatable objects new) := decidableCreatable objects new

theorem Creatable.append {objects first second : List SchemaObject} :
    Creatable objects (first ++ second) ↔ Creatable objects first ∧ Creatable (objects ++ first) second := by
  induction first generalizing objects with
  | nil => simp [Creatable]
  | cons object rest ih => simp [Creatable, ih, and_assoc]

theorem creatable_new {objects : List SchemaObject} {object : SchemaObject}
    (new : creatable objects object = true) : object ∉ objects := by
  cases object <;> simp_all [creatable]

theorem Schema.run_creates {db : Schema} {new : List SchemaObject} (fresh : Creatable db.objects new) :
    db.run (new.map .create) = ({ db with objects := db.objects ++ new }, true) := by
  induction new generalizing db with
  | nil => simp [Schema.run]
  | cons object rest ih =>
    simp only [List.map_cons, Schema.run, Schema.exec, fresh.1, if_true]
    rw [ih fresh.2]
    simp

/-! ### States between runs -/

/-- A set of migrations that can be applied one after the other. -/
structure MigrationSet where
  entries : List Migration
  distinct : DistinctVersions entries
  fresh : Creatable [] ((migrations entries).flatMap creates)

variable {set : MigrationSet}

/-- Exactly the migrations `done` are applied, and they are recorded. -/
structure Applied (done : List Migration) (db : Schema) : Prop where
  recorded : db.recorded = done.map MigrationFile.version
  objects : db.objects = done.flatMap creates

/-- The first object of a migration exists although the migration is not recorded. -/
def Stuck (set : MigrationSet) (db : Schema) : Prop :=
  ∃ done m rest object others, migrations set.entries = done ++ m :: rest ∧
    db.recorded = done.map MigrationFile.version ∧ creates m = object :: others ∧ object ∈ db.objects

theorem Applied.creatable {done rest : List Migration} {m : Migration} {db : Schema}
    (applied : Applied done db) (parts : migrations set.entries = done ++ m :: rest) :
    Creatable db.objects (creates m) := by
  have fresh := set.fresh
  rw [parts, List.flatMap_append, List.flatMap_cons, Creatable.append, Creatable.append] at fresh
  rw [applied.objects]
  exact fresh.2.1

/-- A whole migration. -/
theorem Applied.migrate {done rest : List Migration} {m : Migration} {db : Schema}
    (applied : Applied done db) (parts : migrations set.entries = done ++ m :: rest) :
    ∃ next, db.run (migrationStatements m) = (next, true) ∧ Applied (done ++ [m]) next := by
  refine ⟨⟨some (recordVersion db.recorded m.version),db.objects ++ creates m⟩,?_,?_,?_⟩
  · exact Schema.run_append (Schema.run_creates (applied.creatable parts)) [.record m.version]
  · change recordVersion db.recorded m.version = (done ++ [m]).map MigrationFile.version
    rw [applied.recorded, recordVersion_next set.distinct parts]
  · simp [applied.objects]

/-- A migration that breaks off after it has begun. -/
theorem Applied.stuck {done rest : List Migration} {m : Migration} {db : Schema} (applied : Applied done db)
    (parts : migrations set.entries = done ++ m :: rest) {cut : Nat} (begun : cut ≠ 0)
    (within : cut ≤ (creates m).length) : Stuck set (db.run ((migrationStatements m).take cut)).1 := by
  have fresh := applied.creatable parts
  rw [← List.take_append_drop cut (creates m), Creatable.append] at fresh
  rw [migrationStatements, List.take_append_of_le_length (by simpa using within), ← List.map_take,
    Schema.run_creates fresh.1]
  cases objects : creates m with
  | nil => simp [objects] at within; exact absurd within begun
  | cons object others =>
    obtain ⟨cut,rfl⟩ := Nat.exists_eq_succ_of_ne_zero begun
    exact ⟨done,m,rest,object,others,parts,applied.recorded,objects,by simp⟩

theorem migrationStatements_length (m : Migration) :
    (migrationStatements m).length = (creates m).length + 1 := by
  simp [migrationStatements]

/-- A run that gets past the next migration. -/
theorem Applied.past {done rest : List Migration} {m : Migration} {db : Schema} (applied : Applied done db)
    (parts : migrations set.entries = done ++ m :: rest) {cut : Nat} (past : (creates m).length < cut) :
    ∃ next, Applied (done ++ [m]) next ∧
      db.run (((m :: rest).flatMap migrationStatements).take cut) =
        next.run ((rest.flatMap migrationStatements).take (cut - ((creates m).length + 1))) := by
  obtain ⟨next,first,later⟩ := applied.migrate parts
  have split : cut = (migrationStatements m).length + (cut - ((creates m).length + 1)) := by
    rw [migrationStatements_length]
    omega
  refine ⟨next,later,?_⟩
  nth_rewrite 1 [split]
  rw [List.flatMap_cons, List.take_length_add_append, Schema.run_append first]

/-- A run over the remaining migrations that does not break off midway. -/
theorem Applied.run {rest done : List Migration} {db : Schema} (applied : Applied done db)
    (parts : migrations set.entries = done ++ rest) {cut : Nat} (clean : midway rest cut = false) :
    ∃ done rest', migrations set.entries = done ++ rest' ∧
      Applied done (db.run ((rest.flatMap migrationStatements).take cut)).1 := by
  induction rest generalizing done db cut with
  | nil => exact ⟨done,[],parts,by simpa [Schema.run] using applied⟩
  | cons m rest ih =>
    simp only [midway] at clean
    split at clean
    · have nothing : cut = 0 := by simpa using clean
      exact ⟨done,m :: rest,parts,by simpa [nothing, Schema.run] using applied⟩
    · rename_i past
      obtain ⟨next,later,run⟩ := applied.past parts (Nat.lt_of_not_le past)
      rw [run]
      exact ih later (by simpa using parts) clean

/-- A run over the remaining migrations that breaks off midway. -/
theorem Applied.run_midway {rest done : List Migration} {db : Schema} (applied : Applied done db)
    (parts : migrations set.entries = done ++ rest) {cut : Nat} (broken : midway rest cut = true) :
    Stuck set (db.run ((rest.flatMap migrationStatements).take cut)).1 := by
  induction rest generalizing done db cut with
  | nil => cases broken
  | cons m rest ih =>
    simp only [midway] at broken
    split at broken
    · rename_i within
      rw [List.flatMap_cons, List.take_append_of_le_length (by rw [migrationStatements_length]; omega)]
      exact applied.stuck parts (by simpa using broken) within
    · rename_i past
      obtain ⟨next,later,run⟩ := applied.past parts (Nat.lt_of_not_le past)
      rw [run]
      exact ih later (by simpa using parts) broken

/-- A run over the remaining migrations that does not break off. -/
theorem Applied.run_all {rest done : List Migration} {db : Schema} (applied : Applied done db)
    (parts : migrations set.entries = done ++ rest) :
    ∃ next, db.run (rest.flatMap migrationStatements) = (next, true) ∧
      Applied (migrations set.entries) next := by
  induction rest generalizing done db with
  | nil => exact ⟨db,rfl,by simpa [parts] using applied⟩
  | cons m rest ih =>
    obtain ⟨next,first,later⟩ := applied.migrate parts
    rw [List.flatMap_cons, Schema.run_append first]
    exact ih later (by simpa using parts)

/-! ### Any number of runs -/

/-- A database that can be finished: exactly the first migrations are applied. -/
def Clean (set : MigrationSet) (db : Schema) : Prop :=
  ∃ done rest, migrations set.entries = done ++ rest ∧ Applied done db

theorem Clean.empty : Clean set Schema.empty := ⟨[],migrations set.entries,rfl,rfl,rfl⟩

theorem Applied.unapplied {done rest : List Migration} {db : Schema} (applied : Applied done db)
    (parts : migrations set.entries = done ++ rest) : Tickr.unapplied set.entries db.recorded = rest := by
  rw [applied.recorded]
  exact unapplied_rest set.distinct parts

theorem Clean.interrupted {db : Schema} (clean : Clean set db) {cut : Nat}
    (whole : midway (Tickr.unapplied set.entries db.recorded) (cut - 2) = false) :
    Clean set (interrupted set.entries db cut) := by
  obtain ⟨done,rest,parts,applied⟩ := clean
  have bootstrapped : Applied done db.bootstrap := ⟨applied.recorded,applied.objects⟩
  match cut with
  | 0 => exact ⟨done,rest,parts,applied⟩
  | 1 => exact ⟨done,rest,parts,bootstrapped⟩
  | cut + 2 =>
    have run := bootstrapped.run parts (applied.unapplied parts ▸ whole)
    rw [← applied.unapplied parts] at run
    exact run

theorem Clean.interrupted_midway {db : Schema} (clean : Clean set db) {cut : Nat}
    (broken : midway (Tickr.unapplied set.entries db.recorded) (cut - 2) = true) :
    Stuck set (Mysql.interrupted set.entries db cut) := by
  obtain ⟨done,rest,parts,applied⟩ := clean
  rw [applied.unapplied parts] at broken
  have bootstrapped : Applied done db.bootstrap := ⟨applied.recorded,applied.objects⟩
  match cut with
  | 0 | 1 => cases rest <;> simp [midway] at broken
  | cut + 2 =>
    have run := bootstrapped.run_midway parts broken
    rw [← applied.unapplied parts] at run
    exact run

theorem Clean.completes {db : Schema} (clean : Clean set db) : Completes set.entries db := by
  obtain ⟨done,rest,parts,applied⟩ := clean
  have bootstrapped : Applied done db.bootstrap := ⟨applied.recorded,applied.objects⟩
  obtain ⟨final,run,complete⟩ := bootstrapped.run_all parts
  rw [← applied.unapplied parts] at run
  have result : applyMigrations set.entries db = (final, true) := run
  rw [Completes, result]
  refine ⟨rfl,fun m member => ⟨?_,fun object created => ?_⟩⟩
  · rw [complete.recorded]
    exact List.mem_map_of_mem member
  · rw [complete.objects]
    exact List.mem_flatMap.mpr ⟨m,member,created⟩

/-- A run that is stuck comes to an object that exists. -/
theorem Stuck.statements {db : Schema} (stuck : Stuck set db) :
    ∃ object others, runStatements set.entries db.recorded =
        .createVersionTable :: .selectVersions :: .create object :: others ∧ object ∈ db.objects := by
  obtain ⟨done,m,rest,object,others,parts,recorded,objects,existing⟩ := stuck
  rw [runStatements, recorded, unapplied_rest set.distinct parts, List.flatMap_cons, migrationStatements, objects]
  exact ⟨object,_,rfl,existing⟩

theorem Schema.run_existing {db : Schema} {object : SchemaObject} (existing : object ∈ db.objects)
    (others : List MigrationStatement) :
    db.run (.createVersionTable :: .selectVersions :: .create object :: others) = (db.bootstrap, false) := by
  have refused : db.bootstrap.exec (.create object) = none := if_neg fun new => creatable_new new existing
  change db.bootstrap.run (.create object :: others) = _
  simp only [Schema.run, refused]

theorem Stuck.bootstrap {db : Schema} (stuck : Stuck set db) : Stuck set db.bootstrap := stuck

theorem Stuck.interrupted {db : Schema} (stuck : Stuck set db) (cut : Nat) :
    Stuck set (Mysql.interrupted set.entries db cut) := by
  obtain ⟨object,others,statements,existing⟩ := stuck.statements
  rw [Mysql.interrupted, statements]
  match cut with
  | 0 => exact stuck
  | 1 | 2 => exact stuck.bootstrap
  | cut + 3 =>
    simp only [List.take_succ_cons]
    rw [Schema.run_existing existing]
    exact stuck.bootstrap

theorem Stuck.fails {db : Schema} (stuck : Stuck set db) : (applyMigrations set.entries db).2 = false := by
  obtain ⟨object,others,statements,existing⟩ := stuck.statements
  rw [applyMigrations, statements, Schema.run_existing existing]

theorem Stuck.runs {db : Schema} (stuck : Stuck set db) (cuts : List Nat) :
    Stuck set (cuts.foldl (Mysql.interrupted set.entries) db) := by
  induction cuts generalizing db with
  | nil => exact stuck
  | cons cut cuts ih => exact ih (stuck.interrupted cut)

/-- The runs leave a database that can be finished exactly if none of them broke off
midway; otherwise they leave one that is stuck. -/
theorem Clean.runs {db : Schema} (clean : Clean set db) (cuts : List Nat) :
    (Unbroken set.entries db cuts ∧ Clean set (cuts.foldl (Mysql.interrupted set.entries) db)) ∨
    (¬Unbroken set.entries db cuts ∧ Stuck set (cuts.foldl (Mysql.interrupted set.entries) db)) := by
  induction cuts generalizing db with
  | nil => exact Or.inl ⟨trivial,clean⟩
  | cons cut cuts ih =>
    cases broken : midway (Tickr.unapplied set.entries db.recorded) (cut - 2) with
    | true =>
      refine Or.inr ⟨fun unbroken => ?_,(clean.interrupted_midway broken).runs cuts⟩
      exact absurd (broken.symm.trans unbroken.1) (by decide)
    | false =>
      rcases ih (clean.interrupted broken) with ⟨unbroken,last⟩ | ⟨later,last⟩
      · exact Or.inl ⟨⟨broken,unbroken⟩,last⟩
      · exact Or.inr ⟨fun unbroken => later unbroken.2,last⟩

theorem completes_iff_unbroken (set : MigrationSet) (cuts : List Nat) :
    Completes set.entries (cuts.foldl (interrupted set.entries) Schema.empty) ↔
      Unbroken set.entries Schema.empty cuts := by
  rcases Clean.empty.runs cuts with ⟨unbroken,clean⟩ | ⟨broken,stuck⟩
  · exact ⟨fun _ => unbroken,fun _ => clean.completes⟩
  · constructor
    · rintro ⟨succeeds,_⟩
      rw [stuck.fails] at succeeds
      cases succeeds
    · exact fun unbroken => absurd unbroken broken

/-! ### The shipped migrations -/

def shippedEntries : List Migration :=
  [⟨"0001_init.sql", [some (.table "tickr_messages"), some (.table "tickr_history"), none]⟩,
   ⟨"0002_history_at_index.sql", [some (.index "tickr_history_at_idx" "tickr_history"), none]⟩]

def shipped : MigrationSet where
  entries := shippedEntries
  distinct := by
    unfold DistinctVersions
    decide +kernel
  fresh := by decide +kernel

/-- After any interrupted runs over the shipped migrations, an undisturbed run finishes
them exactly if no run broke off after a first statement of a migration and before its
version was recorded. -/
theorem shipped_resumes_iff (cuts : List Nat) :
    Completes shippedEntries (cuts.foldl (interrupted shippedEntries) Schema.empty) ↔
      Unbroken shippedEntries Schema.empty cuts :=
  completes_iff_unbroken shipped cuts

/-- The first run breaks off after CREATE TABLE tickr_messages, and every run after it
fails at that statement. -/
theorem shipped_stuck :
    (interrupted shippedEntries Schema.empty 3).objects = [.table "tickr_messages"] ∧
    (applyMigrations shippedEntries (interrupted shippedEntries Schema.empty 3)).2 = false ∧
    ¬Completes shippedEntries ([3].foldl (interrupted shippedEntries) Schema.empty) := by
  have fails : (applyMigrations shippedEntries (interrupted shippedEntries Schema.empty 3)).2 = false := by
    decide +kernel
  refine ⟨by decide +kernel,fails,fun completes => ?_⟩
  have succeeds : (applyMigrations shippedEntries (interrupted shippedEntries Schema.empty 3)).2 = true :=
    completes.1
  rw [fails] at succeeds
  cases succeeds

end Tickr.Mysql
