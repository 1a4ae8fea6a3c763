import Mathlib.Data.List.Nodup
import Mathlib.Data.List.Sort

/-! What the ApplyMigrations of the SQL adapters have in common: which files of the
embedded directory are migrations, under which version, and in which order the loop goes
through those that are not recorded yet. -/
namespace Tickr

/-- A file of the embedded directory. -/
structure MigrationFile (α : Type) where
  name : String
  sql : α
  deriving DecidableEq, Repr

/-! ### fmt.Sscanf(name, "%04d_", &version) -/

def isSpace (c : Char) : Bool :=
  [(0x9, 0xd), (0x20, 0x20), (0x85, 0x85), (0xa0, 0xa0), (0x1680, 0x1680), (0x2000, 0x200a),
    (0x2028, 0x2029), (0x202f, 0x202f), (0x205f, 0x205f), (0x3000, 0x3000)].any fun range =>
      range.1 ≤ c.toNat && c.toNat ≤ range.2

/-- A newline ends the scan with an error. -/
def skipSpace : List Char → Option (List Char)
  | [] => some []
  | c :: rest => if c = '\n' then none else if isSpace c then skipSpace rest else some (c :: rest)

def scanDigits (text : List Char) : Int :=
  (text.takeWhile Char.isDigit).foldl (fun n c => 10 * n + (c.toNat - '0'.toNat : Nat)) 0

def scanInt : List Char → Int
  | '+' :: digits => scanDigits digits
  | '-' :: digits => -scanDigits digits
  | digits => scanDigits digits

/-- The version stays 0 when the name does not begin with a number; what follows the
number does not matter. -/
def scanVersion (name : String) : Int :=
  match skipSpace name.toList with
  | none => 0
  | some rest => scanInt (rest.take 4)

/-! ### The loop over the directory -/

section
variable {α : Type}

def MigrationFile.version (m : MigrationFile α) : Int := scanVersion m.name

def MigrationFile.isMigration (m : MigrationFile α) : Bool := m.name.endsWith ".sql" && m.version != 0

/-- The migrations among the entries of the directory, ordered by name. -/
def migrations (entries : List (MigrationFile α)) : List (MigrationFile α) :=
  (entries.insertionSort fun a b => a.name ≤ b.name).filter MigrationFile.isMigration

/-- The migrations that the loop gets to, given the recorded versions. -/
def unapplied (entries : List (MigrationFile α)) (applied : List Int) : List (MigrationFile α) :=
  (migrations entries).filter fun m => m.version ∉ applied

def DistinctVersions (entries : List (MigrationFile α)) : Prop :=
  ((migrations entries).map MigrationFile.version).Nodup

/-- INSERT of a version that may be there already (ON CONFLICT DO NOTHING, INSERT IGNORE). -/
def recordVersion (versions : List Int) (version : Int) : List Int :=
  if version ∈ versions then versions else versions ++ [version]

variable {entries : List (MigrationFile α)}

/-- Once the first migrations are recorded, the loop gets to just the others. -/
theorem unapplied_rest (distinct : DistinctVersions entries) {done rest : List (MigrationFile α)}
    (parts : migrations entries = done ++ rest) :
    unapplied entries (done.map MigrationFile.version) = rest := by
  rw [DistinctVersions, parts, List.map_append, List.nodup_append'] at distinct
  have skipped : done.filter (fun m => m.version ∉ done.map MigrationFile.version) = [] := by
    refine List.filter_eq_nil_iff.mpr fun m member => ?_
    simpa using ⟨m,member,rfl⟩
  have kept : rest.filter (fun m => m.version ∉ done.map MigrationFile.version) = rest := by
    refine List.filter_eq_self.mpr fun m member => decide_eq_true fun recorded => ?_
    exact distinct.2.2 recorded (List.mem_map_of_mem member)
  rw [unapplied, parts, List.filter_append, skipped, kept, List.nil_append]

theorem recordVersion_next (distinct : DistinctVersions entries) {done rest : List (MigrationFile α)}
    {m : MigrationFile α} (parts : migrations entries = done ++ m :: rest) :
    recordVersion (done.map MigrationFile.version) m.version = (done ++ [m]).map MigrationFile.version := by
  rw [DistinctVersions, parts, List.map_append, List.nodup_append'] at distinct
  have fresh : m.version ∉ done.map MigrationFile.version := fun recorded =>
    distinct.2.2 recorded List.mem_cons_self
  rw [recordVersion, if_neg fresh, List.map_append, List.map_singleton]

end

end Tickr
