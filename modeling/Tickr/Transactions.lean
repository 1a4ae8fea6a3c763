import Tickr.Transition

/-! A library that is called inside a transaction of its caller. The statements of a call
go to that transaction, where they wait for its end, or to a connection of a pool, where
each of them commits by itself; everybody else acts on what is committed. The transaction
sees its own rows on top of that. -/
namespace Transactions

open Transition

inductive Route where
  | pool
  | transaction
  | refused
  deriving DecidableEq, Repr

/-- What a call does to the store that it sees; one that `aborts` leaves its transaction
with nothing but a rollback. -/
structure Result (σ ν ε : Type) where
  store : σ
  notes : List ν
  err : Option ε
  aborts : Bool

/-- Calls append rows to a store and send notifications. Rows that an open transaction has
inserted stay on top of whatever the others do (`rebase`); where they cannot, the others
have to wait. Notifications of one transaction may be delivered as one (`coalesce`). -/
structure Library (σ ρ ν ε γ ω : Type) where
  rows : σ → List ρ
  call : σ → γ → Result σ ν ε
  appends : ∀ s c, rows s <+: rows (call s c).store
  act : σ → ω → σ
  rebase : σ → List ρ → Option σ
  rebased : ∀ {s pending next}, rebase s pending = some next → rows next = rows s ++ pending
  coalesce : List ν → List ν
  coalesced : ∀ {notes note}, note ∈ coalesce notes ↔ note ∈ notes
  closed : ε

inductive Phase where
  | active
  | aborted
  | committed
  | rolledBack
  deriving DecidableEq, Repr

/-- `committed` and `delivered` are what the others see, `view` what the transaction sees;
`inserted` and `issued` record what its calls have inserted and sent, wherever it went. -/
structure Session (σ ρ ν : Type) where
  committed : σ
  delivered : List ν
  view : σ
  pending : List ρ
  queued : List ν
  phase : Phase
  inserted : List ρ
  issued : List ν

inductive Label (γ ω : Type) where
  | call (c : γ)
  | other (o : ω)
  | commit
  | rollback

def Label.ends {γ ω : Type} : Label γ ω → Bool
  | .commit | .rollback => true
  | .call _ | .other _ => false

section
variable {σ ρ ν ε γ ω : Type}

def Session.start (s : σ) : Session σ ρ ν := ⟨s, [], s, [], [], .active, [], []⟩

def Session.rollback (t : Session σ ρ ν) : Session σ ρ ν :=
  match t.phase with
  | .active | .aborted => { t with view := t.committed, pending := [], queued := [], phase := .rolledBack }
  | .committed | .rolledBack => t

variable (lib : Library σ ρ ν ε γ ω)

/-- An aborted transaction does not commit. -/
def Session.commit (t : Session σ ρ ν) : Session σ ρ ν :=
  match t.phase with
  | .active =>
    { t with
      committed := t.view
      delivered := t.delivered ++ lib.coalesce t.queued
      pending := []
      queued := []
      phase := .committed }
  | .aborted | .committed | .rolledBack => t.rollback

def Library.inserted (s : σ) (c : γ) : List ρ := (lib.rows (lib.call s c).store).drop (lib.rows s).length

/-- A call given the transaction, and the error that it returns. -/
def Session.call (route : Route) (t : Session σ ρ ν) (c : γ) : Session σ ρ ν × Option ε :=
  match route, t.phase with
  | .pool, _ =>
    let r := lib.call t.committed c
    ({ t with
      committed := r.store
      delivered := t.delivered ++ r.notes
      view := r.store
      inserted := t.inserted ++ lib.inserted t.committed c
      issued := t.issued ++ r.notes }, r.err)
  | .transaction, .active =>
    let r := lib.call t.view c
    ({ t with
      view := r.store
      pending := t.pending ++ lib.inserted t.view c
      queued := t.queued ++ r.notes
      phase := if r.aborts then .aborted else .active
      inserted := t.inserted ++ lib.inserted t.view c
      issued := t.issued ++ r.notes }, r.err)
  | _, _ => (t, some lib.closed)

def Session.step (route : Route) (t : Session σ ρ ν) : Label γ ω → Option (Session σ ρ ν)
  | .call c => some (t.call lib route c).1
  | .other o =>
    (lib.rebase (lib.act t.committed o) t.pending).map fun view =>
      { t with committed := lib.act t.committed o, view }
  | .commit => some (t.commit lib)
  | .rollback => some t.rollback

def system (route : Route) : System (Session σ ρ ν) (Label γ ω) := ⟨Session.step lib route⟩

/-- What the others alone make of a store. -/
def Library.alone : σ → List (Label γ ω) → σ
  | s, [] => s
  | s, .other o :: rest => Library.alone (lib.act s o) rest
  | s, _ :: rest => Library.alone s rest

/-- Until the transaction ends, and for good if it is rolled back, the others see what they
have made of the store alone; a commit adds what the calls have inserted and sent. A
transaction that has ended takes no more calls. -/
structure Atomic (route : Route) (alone : σ) (t : Session σ ρ ν) : Prop where
  unseen : t.committed = alone ∧ t.delivered = []
  rolledBack : t.rollback.committed = alone ∧ t.rollback.delivered = []
  committed : t.phase = .active →
    lib.rows (t.commit lib).committed = lib.rows alone ++ t.inserted ∧
    ∀ note, note ∈ (t.commit lib).delivered ↔ note ∈ t.issued
  aborted : t.phase ≠ .active → (t.commit lib).committed = alone ∧ (t.commit lib).delivered = []
  closed : ∀ c, (t.commit lib).call lib route c = (t.commit lib, some lib.closed) ∧
    t.rollback.call lib route c = (t.rollback, some lib.closed)

def Transactional (route : Route) : Prop :=
  ∀ (s : σ) (trace : List (Label γ ω)) (t : Session σ ρ ν), (∀ label ∈ trace, label.ends = false) →
    (system lib route).run (Session.start s) trace = some t → Atomic lib route (lib.alone s trace) t

/-! ### Runs of an open transaction -/

theorem Library.rows_call (s : σ) (c : γ) : lib.rows (lib.call s c).store = lib.rows s ++ lib.inserted s c := by
  obtain ⟨new,rows⟩ := lib.appends s c
  rw [Library.inserted, ← rows, List.drop_left]

/-- Everything that the calls have done waits in the transaction. -/
structure Waiting (t : Session σ ρ ν) : Prop where
  view : lib.rows t.view = lib.rows t.committed ++ t.pending
  pending : t.pending = t.inserted
  queued : t.queued = t.issued
  delivered : t.delivered = []
  phase : t.phase = .active ∨ t.phase = .aborted

variable {lib} {route : Route}

theorem Waiting.start (s : σ) : Waiting lib (Session.start s) :=
  ⟨(List.append_nil _).symm,rfl,rfl,rfl,Or.inl rfl⟩

theorem Waiting.call {t : Session σ ρ ν} (waiting : Waiting lib t) (routed : route ≠ .pool) (c : γ) :
    Waiting lib (t.call lib route c).1 ∧ (t.call lib route c).1.committed = t.committed := by
  cases route with
  | pool => exact absurd rfl routed
  | refused => exact ⟨waiting,rfl⟩
  | transaction =>
    rcases waiting.phase with active | aborted
    · simp only [Session.call, active]
      refine ⟨⟨?_,?_,?_,waiting.delivered,?_⟩,trivial⟩
      · rw [lib.rows_call, waiting.view, List.append_assoc]
      · rw [waiting.pending]
      · rw [waiting.queued]
      · by_cases aborts : (lib.call t.view c).aborts = true <;> simp [aborts]
    · simp only [Session.call, aborted]
      exact ⟨waiting,trivial⟩

theorem Waiting.other {t next : Session σ ρ ν} (waiting : Waiting lib t) {o : ω}
    (step : (system lib route).step t (.other o) = some next) :
    Waiting lib next ∧ next.committed = lib.act t.committed o := by
  obtain ⟨view,rebased,rfl⟩ := Option.map_eq_some_iff.mp step
  exact ⟨⟨lib.rebased rebased,waiting.pending,waiting.queued,waiting.delivered,waiting.phase⟩,rfl⟩

theorem Waiting.run {t final : Session σ ρ ν} (waiting : Waiting lib t) (routed : route ≠ .pool)
    {trace : List (Label γ ω)} (during : ∀ label ∈ trace, label.ends = false)
    (run : (system lib route).run t trace = some final) :
    Waiting lib final ∧ final.committed = lib.alone t.committed trace := by
  induction trace generalizing t with
  | nil => cases run; exact ⟨waiting,rfl⟩
  | cons label rest ih =>
    obtain ⟨next,step,later⟩ := System.run_cons.mp run
    have stays : ∀ label ∈ rest, label.ends = false := fun l member => during l (List.mem_cons_of_mem _ member)
    cases label with
    | call c =>
      cases step
      obtain ⟨kept,unseen⟩ := waiting.call routed c
      obtain ⟨last,alone⟩ := ih kept stays later
      exact ⟨last,unseen ▸ alone⟩
    | other o =>
      obtain ⟨kept,acted⟩ := waiting.other step
      obtain ⟨last,alone⟩ := ih kept stays later
      rw [acted] at alone
      exact ⟨last,alone⟩
    | commit | rollback => cases during _ List.mem_cons_self

theorem Session.call_ended {t : Session σ ρ ν} (routed : route ≠ .pool)
    (ended : t.phase = .committed ∨ t.phase = .rolledBack) (c : γ) :
    t.call lib route c = (t, some lib.closed) := by
  cases route with
  | pool => exact absurd rfl routed
  | refused => rfl
  | transaction => rcases ended with committed | rolledBack <;> simp only [Session.call, *]

theorem Waiting.rollback {t : Session σ ρ ν} (waiting : Waiting lib t) :
    t.rollback.committed = t.committed ∧ t.rollback.delivered = [] ∧ t.rollback.phase = .rolledBack := by
  rcases waiting.phase with active | aborted
  · simp only [Session.rollback, active]
    exact ⟨trivial,waiting.delivered,trivial⟩
  · simp only [Session.rollback, aborted]
    exact ⟨trivial,waiting.delivered,trivial⟩

theorem Waiting.atomic {t : Session σ ρ ν} (waiting : Waiting lib t) (routed : route ≠ .pool) :
    Atomic lib route t.committed t := by
  obtain ⟨kept,silent,ended⟩ := waiting.rollback
  have refused (c : γ) : t.rollback.call lib route c = (t.rollback, some lib.closed) :=
    Session.call_ended routed (Or.inr ended) c
  rcases waiting.phase with active | aborted
  · refine ⟨⟨rfl,waiting.delivered⟩,⟨kept,silent⟩,fun _ => ?_,fun other => absurd active other,
      fun c => ⟨?_,refused c⟩⟩
    · simp only [Session.commit, active]
      rw [waiting.view, waiting.pending, waiting.delivered, waiting.queued]
      exact ⟨rfl,fun note => lib.coalesced⟩
    · exact Session.call_ended routed (Or.inl (by simp only [Session.commit, active])) c
  · have same : t.commit lib = t.rollback := by simp only [Session.commit, aborted]
    refine ⟨⟨rfl,waiting.delivered⟩,⟨kept,silent⟩,fun active => ?_,fun _ => ?_,fun c => ⟨?_,refused c⟩⟩
    · cases aborted.symm.trans active
    · rw [same]
      exact ⟨kept,silent⟩
    · rw [same]
      exact refused c

/-- The calls are part of the caller's transaction exactly if they do not go to the pool. -/
theorem transactional_iff (effective : ∃ s c, lib.rows (lib.call s c).store ≠ lib.rows s) :
    Transactional lib route ↔ route ≠ .pool := by
  constructor
  · rintro transactional rfl
    obtain ⟨s,c,inserts⟩ := effective
    have during : ∀ label ∈ [(Label.call c : Label γ ω)], label.ends = false := by simp [Label.ends]
    have unseen : (lib.call s c).store = s := (transactional s [.call c] _ during rfl).unseen.1
    exact inserts (congrArg lib.rows unseen)
  · intro routed s trace t during run
    obtain ⟨waiting,alone⟩ := (Waiting.start s).run routed during run
    have atomic := waiting.atomic routed
    rw [alone] at atomic
    exact atomic

end

end Transactions
