import Mathlib.Data.List.Basic
import Tickr.Transition

/-! Operations that run statement by statement over a shared state, any number of them at a
time. An operation takes effect in parts, each in one of its statements; when the others leave
what is observed of the state alone, the parts look as if each had run in one piece. -/
namespace Overlap

open Transition

/-- How operations run. `bars` tells which step of another session has to wait for this one, as
for a lock that it holds. `parts` are the parts of an operation that have taken effect before a
stage, and `view` the circumstances under which a statement does. Steps of the background are
nobody's operation. -/
structure Calls (σ κ ω ς τ : Type) where
  first : ς
  next : σ → κ → ω → ς → Option (σ × ς)
  bars : ς → σ → σ → ς → Bool
  parts : ω → ς → List ω
  view : κ → ς → κ
  background : σ → τ → σ

structure Session (ω ς : Type) where
  op : ω
  stage : ς

/-- `order` only records the parts as they take effect. -/
structure State (σ κ ω ς : Type) where
  shared : σ
  sessions : List (Session ω ς)
  order : List (Nat × κ × ω)

inductive Label (κ ω τ : Type) where
  | begin (op : ω)
  | statement (j : Nat) (env : κ)
  | background (step : τ)

section
variable {σ κ ω ς τ : Type} (c : Calls σ κ ω ς τ)

/-- The parts that take effect in the statement between two stages. -/
def Calls.adds (env : κ) (op : ω) (stage stage' : ς) : List (κ × ω) :=
  ((c.parts op stage').drop (c.parts op stage).length).map fun part => (c.view env stage, part)

def Calls.step (d : State σ κ ω ς) : Label κ ω τ → Option (State σ κ ω ς)
  | .begin op => some { d with sessions := d.sessions ++ [⟨op, c.first⟩] }
  | .statement j env => d.sessions[j]?.bind fun session =>
    (c.next d.shared env session.op session.stage).bind fun result =>
      if (d.sessions.eraseIdx j).any fun other => c.bars other.stage d.shared result.1 result.2 then none
      else some
        { shared := result.1
          sessions := d.sessions.set j { session with stage := result.2 }
          order := d.order ++ (c.adds env session.op session.stage result.2).map fun part => (j, part) }
  | .background step => some { d with shared := c.background d.shared step }

def Calls.system : System (State σ κ ω ς) (Label κ ω τ) := ⟨c.step⟩

/-- Operations one after the other, each in one piece. -/
def inOrder {α ρ : Type} (atomic : α → κ → ω → α × ρ) (a : α) : List (κ × ω) → α
  | [] => a
  | (env, op) :: rest => inOrder atomic (atomic a env op).1 rest

/-- What a session has contributed to the order. -/
def partsOf (j : Nat) (order : List (Nat × κ × ω)) : List ω :=
  (order.filter fun entry => entry.1 = j).map fun entry => entry.2.2

variable {c} {α ρ : Type}

theorem inOrder_append (atomic : α → κ → ω → α × ρ) (a : α) (first second : List (κ × ω)) :
    inOrder atomic a (first ++ second) = inOrder atomic (inOrder atomic a first) second := by
  induction first generalizing a with
  | nil => rfl
  | cons step rest ih => exact ih _

theorem partsOf_append (j : Nat) (first second : List (Nat × κ × ω)) :
    partsOf j (first ++ second) = partsOf j first ++ partsOf j second := by
  simp [partsOf]

theorem partsOf_own (j : Nat) (added : List (κ × ω)) :
    partsOf j (added.map fun part => (j, part)) = added.map Prod.snd := by
  simp [partsOf, List.filter_map, Function.comp_def]

theorem partsOf_other {i j : Nat} (different : i ≠ j) (added : List (κ × ω)) :
    partsOf j (added.map fun part => (i, part)) = [] := by
  simp [partsOf, List.filter_map, Function.comp_def, different]

theorem mem_partsOf {j : Nat} {order : List (Nat × κ × ω)} {part : ω} :
    part ∈ partsOf j order ↔ ∃ env, (j, env, part) ∈ order := by
  simp [partsOf]

/-- In a statement the operation takes effect as far as one part goes, as that part does in one
piece, or not at all. -/
inductive Calls.Did (c : Calls σ κ ω ς τ) (observed : σ → α) (atomic : α → κ → ω → α × ρ) (answer : ω → ς → Option ρ)
    (s : σ) (env : κ) (op : ω) (stage : ς) (s' : σ) (stage' : ς) : Prop where
  | effect (part : ω) (added : c.parts op stage' = c.parts op stage ++ [part])
      (table : observed s' = (atomic (observed s) (c.view env stage) part).1)
      (answers : ∀ r, answer op stage' = some r → r = (atomic (observed s) (c.view env stage) part).2)
  | nothing (same : c.parts op stage' = c.parts op stage) (table : observed s' = observed s)
      (answers : ∀ r, answer op stage' = some r → answer op stage = some r)

/-- What the statements of an operation have to meet. What a session relies on in the shared
state stands in `fits`, and it bars every step that would take this away. -/
structure Calls.Atomic (c : Calls σ κ ω ς τ) (observed : σ → α) (atomic : α → κ → ω → α × ρ)
    (fits : σ → ω → ς → Prop) (answer : ω → ς → Option ρ) : Prop where
  first : ∀ s op, fits s op c.first ∧ c.parts op c.first = [] ∧ answer op c.first = none
  statement : ∀ s env op stage s' stage', fits s op stage → c.next s env op stage = some (s', stage') →
    fits s' op stage' ∧ c.Did observed atomic answer s env op stage s' stage'
  barred : ∀ s op stage s' stage', fits s op stage → c.bars stage s s' stage' = false → fits s' op stage
  background : ∀ s step, observed (c.background s step) = observed s ∧
    ∀ op stage, fits s op stage → fits (c.background s step) op stage

/-- The answer is the one that a part of the operation gives in one piece, where it stands in
the order. -/
def Explained (atomic : α → κ → ω → α × ρ) (a : α) (order : List (Nat × κ × ω)) (j : Nat) (r : ρ) : Prop :=
  ∃ earlier env part later, order = earlier ++ (j, env, part) :: later ∧
    r = (atomic (inOrder atomic a (earlier.map Prod.snd)) env part).2

theorem Explained.append {atomic : α → κ → ω → α × ρ} {a : α} {order : List (Nat × κ × ω)} {j : Nat} {r : ρ}
    (explained : Explained atomic a order j r) (more : List (Nat × κ × ω)) :
    Explained atomic a (order ++ more) j r := by
  obtain ⟨earlier,env,part,later,rfl,is⟩ := explained
  exact ⟨earlier,env,part,later ++ more,by simp,is⟩

/-- What is observed of the state and of the answers is what the recorded parts bring about in
their order. -/
structure Linear (c : Calls σ κ ω ς τ) (observed : σ → α) (atomic : α → κ → ω → α × ρ) (fits : σ → ω → ς → Prop)
    (answer : ω → ς → Option ρ) (a : α) (d : State σ κ ω ς) : Prop where
  table : observed d.shared = inOrder atomic a (d.order.map Prod.snd)
  owned : ∀ entry ∈ d.order, entry.1 < d.sessions.length
  parted : ∀ (j : Nat) session, d.sessions[j]? = some session → partsOf j d.order = c.parts session.op session.stage
  fits : ∀ session ∈ d.sessions, fits d.shared session.op session.stage
  answered : ∀ (j : Nat) session r, d.sessions[j]? = some session → answer session.op session.stage = some r →
    Explained atomic a d.order j r

section
variable {observed : σ → α} {atomic : α → κ → ω → α × ρ} {fits : σ → ω → ς → Prop} {answer : ω → ς → Option ρ} {a : α}
  {d : State σ κ ω ς}

theorem Linear.start {s : σ} : Linear c observed atomic fits answer (observed s) ⟨s, [], []⟩ where
  table := rfl
  owned := by simp
  parted := by simp
  fits := by simp
  answered := by simp

theorem Linear.begin (lawful : c.Atomic observed atomic fits answer)
    (linear : Linear c observed atomic fits answer a d) (op : ω) :
    Linear c observed atomic fits answer a { d with sessions := d.sessions ++ [⟨op, c.first⟩] } := by
  obtain ⟨fit,unparted,unanswered⟩ := lawful.first d.shared op
  have origin (j : Nat) (session : Session ω ς) (at_ : (d.sessions ++ [⟨op, c.first⟩])[j]? = some session) :
      d.sessions[j]? = some session ∨ d.sessions.length ≤ j ∧ session = ⟨op, c.first⟩ := by
    rcases Nat.lt_or_ge j d.sessions.length with before | after
    · exact Or.inl ((List.getElem?_append_left before).symm.trans at_)
    · rw [List.getElem?_append_right after] at at_
      exact Or.inr ⟨after,List.mem_singleton.mp (List.mem_of_getElem? at_)⟩
  refine ⟨linear.table,fun entry member => ?_,fun j session at_ => ?_,fun session member => ?_,
    fun j session r at_ given => ?_⟩
  · rw [List.length_append]
    exact Nat.lt_add_right _ (linear.owned entry member)
  · rcases origin j session at_ with old | ⟨after,rfl⟩
    · exact linear.parted j session old
    · rw [unparted, partsOf, List.map_eq_nil_iff, List.filter_eq_nil_iff]
      intro entry member
      have before := linear.owned entry member
      simp only [decide_eq_true_eq]
      omega
  · rcases List.mem_append.mp member with old | new
    · exact linear.fits session old
    · rw [List.mem_singleton.mp new]
      exact fit
  · rcases origin j session at_ with old | ⟨_,rfl⟩
    · exact linear.answered j session r old given
    · cases unanswered.symm.trans given

theorem Calls.adds_part {env : κ} {op part : ω} {stage stage' : ς}
    (added : c.parts op stage' = c.parts op stage ++ [part]) :
    c.adds env op stage stage' = [(c.view env stage, part)] := by
  rw [Calls.adds, added, List.drop_left]
  rfl

/-- Both ways in which a statement may go, as they show in the order. -/
theorem Calls.Did.adds {s s' : σ} {env : κ} {op : ω} {stage stage' : ς}
    (did : c.Did observed atomic answer s env op stage s' stage') :
    c.parts op stage' = c.parts op stage ++ (c.adds env op stage stage').map Prod.snd ∧
    observed s' = inOrder atomic (observed s) (c.adds env op stage stage') := by
  cases did with
  | effect part added table =>
    rw [Calls.adds_part added]
    exact ⟨added,table⟩
  | nothing same table =>
    rw [Calls.adds, same, List.drop_length]
    exact ⟨(List.append_nil _).symm,table⟩

/-- Another session's place is not touched, and one's own holds the new stage. -/
theorem Linear.statement (lawful : c.Atomic observed atomic fits answer)
    (linear : Linear c observed atomic fits answer a d) {j : Nat} {session : Session ω ς} {env : κ} {s' : σ} {stage' : ς}
    (at_ : d.sessions[j]? = some session) (next : c.next d.shared env session.op session.stage = some (s', stage'))
    (free : ∀ (i : Nat) other, i ≠ j → d.sessions[i]? = some other → c.bars other.stage d.shared s' stage' = false) :
    Linear c observed atomic fits answer a
      { shared := s'
        sessions := d.sessions.set j { session with stage := stage' }
        order := d.order ++ (c.adds env session.op session.stage stage').map fun part => (j, part) } := by
  obtain ⟨fit,did⟩ := lawful.statement _ _ _ _ _ _ (linear.fits session (List.mem_of_getElem? at_)) next
  obtain ⟨added,table⟩ := did.adds
  have bound := (List.getElem?_eq_some_iff.mp at_).1
  have places (i : Nat) (other : Session ω ς)
      (there : (d.sessions.set j { session with stage := stage' })[i]? = some other) :
      i = j ∧ other = { session with stage := stage' } ∨ i ≠ j ∧ d.sessions[i]? = some other := by
    by_cases mine : i = j
    · subst mine
      rw [List.getElem?_set_self bound] at there
      exact Or.inl ⟨rfl,(Option.some.inj there).symm⟩
    · rw [List.getElem?_set_ne (Ne.symm mine)] at there
      exact Or.inr ⟨mine,there⟩
  refine ⟨?_,fun entry member => ?_,fun i other there => ?_,fun other member => ?_,fun i other r there given => ?_⟩
  · rw [List.map_append, inOrder_append, ← linear.table, List.map_map]
    exact table.trans (congrArg _ (List.map_id _).symm)
  · rw [List.length_set]
    rcases List.mem_append.mp member with old | new
    · exact linear.owned entry old
    · obtain ⟨_,_,rfl⟩ := List.mem_map.mp new
      exact bound
  · rw [partsOf_append]
    rcases places i other there with ⟨rfl,rfl⟩ | ⟨different,before⟩
    · rw [partsOf_own, linear.parted i session at_]
      exact added.symm
    · rw [partsOf_other (Ne.symm different), List.append_nil]
      exact linear.parted i other before
  · obtain ⟨i,there⟩ := List.mem_iff_getElem?.mp member
    rcases places i other there with ⟨rfl,rfl⟩ | ⟨different,before⟩
    · exact fit
    · exact lawful.barred _ _ _ _ _ (linear.fits other (List.mem_of_getElem? before)) (free i other different before)
  · rcases places i other there with ⟨rfl,rfl⟩ | ⟨_,before⟩
    · cases did with
      | effect part new _ answers =>
        refine ⟨d.order,c.view env session.stage,part,[],?_,?_⟩
        · rw [Calls.adds_part new]
          rfl
        · rw [← linear.table]
          exact answers r given
      | nothing _ _ answers => exact (linear.answered i session r at_ (answers r given)).append _
    · exact (linear.answered i other r before given).append _

/-- Every run, with whatever overlap, looks like the recorded parts one after the other. -/
theorem Calls.Atomic.linear (lawful : c.Atomic observed atomic fits answer) {s : σ}
    {trace : List (Label κ ω τ)} (run : c.system.run ⟨s, [], []⟩ trace = some d) :
    Linear c observed atomic fits answer (observed s) d := by
  refine System.run_invariant _ ?_ run Linear.start
  intro d label d' linear step
  cases label with
  | begin op =>
    cases step
    exact linear.begin lawful op
  | statement j env =>
    obtain ⟨session,at_,rest⟩ := Option.bind_eq_some_iff.mp step
    obtain ⟨⟨s',stage'⟩,next,rest⟩ := Option.bind_eq_some_iff.mp rest
    split at rest
    · cases rest
    · rename_i free
      cases rest
      refine linear.statement lawful at_ next fun i other different there => ?_
      rw [Bool.not_eq_true, List.any_eq_false] at free
      exact Bool.eq_false_iff.mpr (free other (List.mem_eraseIdx_iff_getElem?.mpr ⟨i,different,there⟩))
  | background step' =>
    cases step
    obtain ⟨same,keeps⟩ := lawful.background d.shared step'
    exact ⟨same.trans linear.table,linear.owned,linear.parted,
      fun session member => keeps _ _ (linear.fits session member),linear.answered⟩

end

end

end Overlap
