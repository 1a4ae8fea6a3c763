import Mathlib.Data.List.Basic

/-! Locks that a server grants to sessions. A session may be granted a lock it has already,
and has to give it back as often; a session that ends gives back all of its locks. -/
namespace SessionLocks

/-- One entry for each grant that has not been given back. -/
structure Locks (σ κ : Type) where
  entries : List (σ × κ)
  exclusive : ∀ a ∈ entries, ∀ b ∈ entries, a.2 = b.2 → a.1 = b.1

variable {σ κ : Type}

def Locks.none : Locks σ κ := ⟨[], by simp⟩

def Locks.Holds (locks : Locks σ κ) (session : σ) (key : κ) : Prop := (session, key) ∈ locks.entries

theorem Locks.Holds.unique {locks : Locks σ κ} {a b : σ} {key : κ} (first : locks.Holds a key)
    (second : locks.Holds b key) : a = b :=
  locks.exclusive (a, key) first (b, key) second rfl

def Locks.restrict (locks : Locks σ κ) (entries : List (σ × κ)) (subset : ∀ e ∈ entries, e ∈ locks.entries) :
    Locks σ κ :=
  ⟨entries, fun a ha b hb => locks.exclusive a (subset a ha) b (subset b hb)⟩

@[simp] theorem Locks.holds_none {session : σ} {key : κ} : ¬(Locks.none : Locks σ κ).Holds session key :=
  List.not_mem_nil

/-- No other session has the lock. -/
def Locks.Free (locks : Locks σ κ) (session : σ) (key : κ) : Prop :=
  ∀ e ∈ locks.entries, e.2 = key → e.1 = session

def Locks.grant (locks : Locks σ κ) (session : σ) (key : κ) (free : locks.Free session key) : Locks σ κ where
  entries := (session, key) :: locks.entries
  exclusive := by
    intro a first b second same
    rcases List.mem_cons.mp first with rfl | old <;> rcases List.mem_cons.mp second with rfl | other
    · rfl
    · exact (free b other same.symm).symm
    · exact free a old same
    · exact locks.exclusive a old b other same

def Locks.endSession [DecidableEq σ] (locks : Locks σ κ) (session : σ) : Locks σ κ :=
  locks.restrict (locks.entries.filter fun e => e.1 ≠ session) fun _ member => (List.mem_filter.mp member).1

theorem Locks.holds_endSession [DecidableEq σ] {locks : Locks σ κ} {session s : σ} {k : κ} :
    (locks.endSession session).Holds s k ↔ locks.Holds s k ∧ s ≠ session := by
  simp [Locks.endSession, Locks.restrict, Locks.Holds]

variable [DecidableEq σ] [DecidableEq κ]

instance (locks : Locks σ κ) (session : σ) (key : κ) : Decidable (locks.Free session key) :=
  inferInstanceAs (Decidable (∀ e ∈ _, _ → _))

/-- The lock is granted at once or not at all. -/
def Locks.tryLock (locks : Locks σ κ) (session : σ) (key : κ) : Option (Locks σ κ) :=
  if free : locks.Free session key then some (locks.grant session key free) else Option.none

def Locks.unlock (locks : Locks σ κ) (session : σ) (key : κ) : Locks σ κ :=
  locks.restrict (locks.entries.erase (session, key)) fun _ => List.mem_of_mem_erase

theorem Locks.tryLock_isSome {locks : Locks σ κ} {session : σ} {key : κ} :
    (locks.tryLock session key).isSome ↔ locks.Free session key := by
  unfold Locks.tryLock
  split <;> simp [*]

theorem Locks.tryLock_eq_none {locks : Locks σ κ} {session : σ} {key : κ} :
    locks.tryLock session key = Option.none ↔ ∃ other, other ≠ session ∧ locks.Holds other key := by
  rw [← Option.not_isSome_iff_eq_none, Locks.tryLock_isSome]
  simp only [Locks.Free, Locks.Holds, not_forall]
  constructor
  · rintro ⟨⟨other,_⟩,member,rfl,apart⟩
    exact ⟨other,apart,member⟩
  · rintro ⟨other,apart,member⟩
    exact ⟨(other, key),member,rfl,apart⟩

theorem Locks.tryLock_entries {locks after : Locks σ κ} {session : σ} {key : κ}
    (granted : locks.tryLock session key = some after) : after.entries = (session, key) :: locks.entries := by
  unfold Locks.tryLock at granted
  split at granted
  · cases granted
    rfl
  · cases granted

theorem Locks.holds_tryLock {locks after : Locks σ κ} {session : σ} {key : κ}
    (granted : locks.tryLock session key = some after) {s : σ} {k : κ} :
    after.Holds s k ↔ s = session ∧ k = key ∨ locks.Holds s k := by
  simp [Locks.Holds, Locks.tryLock_entries granted]

theorem Locks.Holds.of_unlock {locks : Locks σ κ} {session s : σ} {key k : κ}
    (holds : (locks.unlock session key).Holds s k) : locks.Holds s k :=
  List.mem_of_mem_erase holds

theorem Locks.Holds.unlock {locks : Locks σ κ} {session s : σ} {key k : κ} (holds : locks.Holds s k)
    (other : s ≠ session) : (locks.unlock session key).Holds s k :=
  (List.mem_erase_of_ne fun same => other (Prod.mk.inj same).1).mpr holds

end SessionLocks
