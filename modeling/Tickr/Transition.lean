import Mathlib.Tactic.Common

/-! Executable labelled transition systems. A label carries every choice of its step, so
a run is a list of labels and a schedule is nothing but that list. -/
namespace Transition

structure System (σ ℓ : Type) where
  step : σ → ℓ → Option σ

section
variable {σ ℓ : Type} (m : System σ ℓ)

def System.run : σ → List ℓ → Option σ
  | s, [] => some s
  | s, label :: rest => (m.step s label).bind fun next => System.run next rest

/-- Every step of the run meets `condition` in the state before it. -/
def System.Along (condition : σ → ℓ → Prop) : σ → List ℓ → Prop
  | _, [] => True
  | s, label :: rest => condition s label ∧
      ∀ next, m.step s label = some next → System.Along condition next rest

def System.decidableAlong (condition : σ → ℓ → Prop) [∀ s label, Decidable (condition s label)] :
    ∀ s trace, Decidable (m.Along condition s trace)
  | _, [] => isTrue trivial
  | s, label :: rest =>
    @instDecidableAnd _ _ inferInstance <|
      match m.step s label with
      | none => isTrue (fun _ impossible => nomatch impossible)
      | some next =>
        match System.decidableAlong condition next rest with
        | isTrue holds => isTrue (fun _ same => Option.some.inj same ▸ holds)
        | isFalse fails => isFalse (fun all => fails (all next rfl))

instance (condition : σ → ℓ → Prop) [∀ s label, Decidable (condition s label)] (s : σ)
    (trace : List ℓ) : Decidable (m.Along condition s trace) :=
  m.decidableAlong condition s trace

variable {m}

theorem System.run_cons {s final : σ} {label : ℓ} {rest : List ℓ} :
    m.run s (label :: rest) = some final ↔
      ∃ next, m.step s label = some next ∧ m.run next rest = some final := by
  simp [System.run, Option.bind_eq_some_iff]

/-- A state property that every admitted step keeps holds at the end of every run. -/
theorem System.invariant (condition : σ → ℓ → Prop) (property : σ → Prop)
    (preserved : ∀ s label next, property s → condition s label →
      m.step s label = some next → property next)
    {s final : σ} {trace : List ℓ} (run : m.run s trace = some final)
    (along : m.Along condition s trace) (initial : property s) : property final := by
  induction trace generalizing s with
  | nil => cases run; exact initial
  | cons label rest ih =>
    obtain ⟨next,first,later⟩ := System.run_cons.mp run
    exact ih later (along.2 next first) (preserved s label next initial along.1 first)

theorem System.Along.mono {condition weaker : σ → ℓ → Prop} {s : σ} {trace : List ℓ}
    (along : m.Along condition s trace) (implies : ∀ s label, condition s label → weaker s label) :
    m.Along weaker s trace := by
  induction trace generalizing s with
  | nil => trivial
  | cons label rest ih => exact ⟨implies s label along.1,fun next step => ih (along.2 next step)⟩

theorem System.Along.and {first second : σ → ℓ → Prop} {s : σ} {trace : List ℓ}
    (left : m.Along first s trace) (right : m.Along second s trace) :
    m.Along (fun s label => first s label ∧ second s label) s trace := by
  induction trace generalizing s with
  | nil => trivial
  | cons label rest ih => exact ⟨⟨left.1,right.1⟩,fun next step => ih (left.2 next step) (right.2 next step)⟩

theorem System.along_trivial (s : σ) (trace : List ℓ) : m.Along (fun _ _ => True) s trace := by
  induction trace generalizing s with
  | nil => trivial
  | cons label rest ih => exact ⟨trivial,fun next _ => ih next⟩

/-- A condition on the labels alone. -/
theorem System.along_labels {condition : ℓ → Prop} {s : σ} {trace : List ℓ} (all : ∀ label ∈ trace, condition label) :
    m.Along (fun _ label => condition label) s trace := by
  induction trace generalizing s with
  | nil => trivial
  | cons label rest ih =>
    obtain ⟨first,later⟩ := List.forall_mem_cons.mp all
    exact ⟨first,fun _ _ => ih later⟩

/-- The unconditional form of `invariant`. -/
theorem System.run_invariant (property : σ → Prop)
    (preserved : ∀ s label next, property s → m.step s label = some next → property next)
    {s final : σ} {trace : List ℓ} (run : m.run s trace = some final) (initial : property s) :
    property final :=
  System.invariant (fun _ _ => True) property
    (fun s label next holds _ step => preserved s label next holds step) run
    (System.along_trivial s trace) initial

theorem System.run_append (s : σ) (first second : List ℓ) :
    m.run s (first ++ second) = (m.run s first).bind fun next => m.run next second := by
  induction first generalizing s with
  | nil => rfl
  | cons label rest ih =>
    simp only [List.cons_append, System.run]
    cases m.step s label with
    | none => rfl
    | some next => exact ih next

theorem System.Along.append {condition : σ → ℓ → Prop} {s middle : σ} {first second : List ℓ}
    (holds : m.Along condition s first) (run : m.run s first = some middle) (later : m.Along condition middle second) :
    m.Along condition s (first ++ second) := by
  induction first generalizing s with
  | nil => cases run; exact later
  | cons label rest ih =>
    obtain ⟨next,step,remaining⟩ := System.run_cons.mp run
    refine ⟨holds.1,fun next' step' => ?_⟩
    cases step.symm.trans step'
    exact ih (holds.2 next step) remaining

/-- A run without end. -/
def System.Path (m : System σ ℓ) (state : Nat → σ) (label : Nat → ℓ) : Prop :=
  ∀ n, m.step (state n) (label n) = some (state (n + 1))

/-- The label is taken again and again, unless it cannot be. -/
def System.Fair (m : System σ ℓ) (state : Nat → σ) (label : Nat → ℓ) (chosen : ℓ) : Prop :=
  ∀ n, ∃ k, n ≤ k ∧ (label k = chosen ∨ m.step (state k) chosen = none)

/-- What holds until a fair label is taken, and lets it be taken, leads to what the label
brings about. -/
theorem System.Fair.leads {state : Nat → σ} {label : Nat → ℓ} {chosen : ℓ} (fair : m.Fair state label chosen)
    (before after : Nat → Prop) (kept : ∀ n, before n → before (n + 1) ∨ after (n + 1))
    (enabled : ∀ n, before n → m.step (state n) chosen ≠ none)
    (reaches : ∀ n, before n → label n = chosen → after (n + 1)) {n : Nat} (now : before n) :
    ∃ k, n ≤ k ∧ after k := by
  by_contra never
  have persists : ∀ d, before (n + d) := by
    intro d
    induction d with
    | zero => exact now
    | succ d ih => exact (kept (n + d) ih).resolve_right fun reached => never ⟨n + d + 1,by omega,reached⟩
  obtain ⟨k,later,taken⟩ := fair n
  have holds : before k := by
    have shifted := persists (k - n)
    rwa [Nat.add_sub_cancel' later] at shifted
  rcases taken with taken | disabled
  · exact never ⟨k + 1,by omega,reaches k holds taken⟩
  · exact enabled k holds disabled

/-- What the steps of a run show, in order. -/
def System.log {α : Type} (m : System σ ℓ) (observe : σ → ℓ → List α) : σ → List ℓ → List α
  | _, [] => []
  | s, label :: rest => observe s label ++ (m.step s label).elim [] fun next => System.log m observe next rest

theorem System.log_hom {α β : Type} {observe : σ → ℓ → List α} (f : List α → List β) (nil : f [] = [])
    (append : ∀ a b, f (a ++ b) = f a ++ f b) (s : σ) (trace : List ℓ) :
    f (m.log observe s trace) = m.log (fun s label => f (observe s label)) s trace := by
  induction trace generalizing s with
  | nil => exact nil
  | cons label rest ih =>
    simp only [System.log, append]
    cases m.step s label with
    | none => rw [Option.elim, Option.elim, nil]
    | some next => rw [Option.elim, Option.elim, ih]

/-- Steps that hand on what they take in, in order, do so over a run. -/
theorem System.log_conserved {α : Type} (contents : σ → List α) (input output : σ → ℓ → List α)
    (conserved : ∀ s label next, m.step s label = some next →
      contents s ++ input s label = output s label ++ contents next)
    {s final : σ} {trace : List ℓ} (run : m.run s trace = some final) :
    contents s ++ m.log input s trace = m.log output s trace ++ contents final := by
  induction trace generalizing s with
  | nil => cases run; simp [System.log]
  | cons label rest ih =>
    obtain ⟨next,step,later⟩ := System.run_cons.mp run
    simp only [System.log, step, Option.elim]
    rw [← List.append_assoc, conserved s label next step, List.append_assoc, ih later, List.append_assoc]

/-- The same in whatever order. -/
theorem System.log_perm {α : Type} (contents : σ → List α) (input output : σ → ℓ → List α)
    (conserved : ∀ s label next, m.step s label = some next →
      (contents s ++ input s label).Perm (output s label ++ contents next))
    {s final : σ} {trace : List ℓ} (run : m.run s trace = some final) :
    (contents s ++ m.log input s trace).Perm (m.log output s trace ++ contents final) := by
  induction trace generalizing s with
  | nil => cases run; simp [System.log]
  | cons label rest ih =>
    obtain ⟨next,step,later⟩ := System.run_cons.mp run
    simp only [System.log, step, Option.elim]
    rw [← List.append_assoc]
    refine ((conserved s label next step).append_right _).trans ?_
    rw [List.append_assoc, List.append_assoc]
    exact (ih later).append_left _

/-- Two ways to see the steps that a run can take. -/
theorem System.log_congr {α : Type} {first second : σ → ℓ → List α} (property : σ → Prop)
    (same : ∀ s label next, property s → m.step s label = some next →
      property next ∧ first s label = second s label)
    {s final : σ} {trace : List ℓ} (run : m.run s trace = some final) (initial : property s) :
    m.log first s trace = m.log second s trace := by
  induction trace generalizing s with
  | nil => rfl
  | cons label rest ih =>
    obtain ⟨next,step,later⟩ := System.run_cons.mp run
    obtain ⟨kept,now⟩ := same s label next initial step
    simp only [System.log, step, Option.elim, now, ih later kept]

/-- A potential that pays for everything the admitted steps show bounds it. -/
theorem System.log_bound {α : Type} {observe : σ → ℓ → List α} (admitted : ℓ → Prop) (potential : σ → Nat)
    (paid : ∀ s label next, admitted label → m.step s label = some next →
      potential next + (observe s label).length ≤ potential s)
    {s final : σ} {trace : List ℓ} (run : m.run s trace = some final) (all : ∀ label ∈ trace, admitted label) :
    potential final + (m.log observe s trace).length ≤ potential s := by
  induction trace generalizing s with
  | nil => cases run; exact Nat.le_refl _
  | cons label rest ih =>
    obtain ⟨next,step,later⟩ := System.run_cons.mp run
    have now := paid s label next (all label List.mem_cons_self) step
    have then_ := ih later fun label member => all label (List.mem_cons_of_mem _ member)
    simp only [System.log, step, Option.elim, List.length_append]
    omega

/-- What every step shows of the states that a run can reach. -/
theorem System.log_forall {α : Type} {observe : σ → ℓ → List α} (property : σ → Prop) (shown : α → Prop)
    (preserved : ∀ s label next, property s → m.step s label = some next →
      property next ∧ ∀ a ∈ observe s label, shown a)
    {s final : σ} {trace : List ℓ} (run : m.run s trace = some final) (initial : property s) :
    ∀ a ∈ m.log observe s trace, shown a := by
  induction trace generalizing s with
  | nil => intro a member; cases member
  | cons label rest ih =>
    obtain ⟨next,step,later⟩ := System.run_cons.mp run
    obtain ⟨kept,now⟩ := preserved s label next initial step
    simp only [System.log, step, Option.elim]
    intro a member
    rcases List.mem_append.mp member with first | second
    · exact now a first
    · exact ih later kept a second

/-- A system whose steps are runs of another one, none or several at a time, is simulated
by it. -/
theorem System.simulation {σ' ℓ' : Type} {n : System σ' ℓ'} (related : σ → σ' → Prop) (image : ℓ → List ℓ')
    (matched : ∀ s t label next, related s t → m.step s label = some next →
      ∃ after, n.run t (image label) = some after ∧ related next after)
    {s final : σ} {t : σ'} {trace : List ℓ} (run : m.run s trace = some final) (start : related s t) :
    ∃ after, n.run t (trace.flatMap image) = some after ∧ related final after := by
  induction trace generalizing s t with
  | nil => cases run; exact ⟨t,rfl,start⟩
  | cons label rest ih =>
    obtain ⟨next,step,later⟩ := System.run_cons.mp run
    obtain ⟨middle,first,kept⟩ := matched s t label next start step
    obtain ⟨after,second,end_⟩ := ih later kept
    refine ⟨after,?_,end_⟩
    rw [List.flatMap_cons, System.run_append, first]
    exact second

/-- The same where the steps of the other one depend on the state. -/
theorem System.log_run {σ' ℓ' : Type} {n : System σ' ℓ'} (image : σ → σ') (shown : σ → ℓ → List ℓ')
    (matched : ∀ s label next, m.step s label = some next → n.run (image s) (shown s label) = some (image next))
    {s final : σ} {trace : List ℓ} (run : m.run s trace = some final) :
    n.run (image s) (m.log shown s trace) = some (image final) := by
  induction trace generalizing s with
  | nil => cases run; rfl
  | cons label rest ih =>
    obtain ⟨next,step,later⟩ := System.run_cons.mp run
    rw [System.log, step, Option.elim, System.run_append, matched s label next step]
    exact ih later

/-- What holds along the run, holds along the run that it shows. -/
theorem System.log_along {σ' ℓ' : Type} {n : System σ' ℓ'} (image : σ → σ') (shown : σ → ℓ → List ℓ')
    (condition : σ → ℓ → Prop) (property : σ → Prop) (required : σ' → ℓ' → Prop)
    (matched : ∀ s label next, property s → condition s label → m.step s label = some next →
      property next ∧ n.run (image s) (shown s label) = some (image next) ∧ n.Along required (image s) (shown s label))
    {s final : σ} {trace : List ℓ} (run : m.run s trace = some final) (along : m.Along condition s trace)
    (initial : property s) : n.Along required (image s) (m.log shown s trace) := by
  induction trace generalizing s with
  | nil => trivial
  | cons label rest ih =>
    obtain ⟨next,step,later⟩ := System.run_cons.mp run
    obtain ⟨kept,first,holds⟩ := matched s label next initial along.1 step
    rw [System.log, step, Option.elim]
    exact holds.append first (ih later (along.2 next step) kept)

def total {ℓ : Type} (weight : ℓ → Nat) : List ℓ → Nat
  | [] => 0
  | label :: rest => weight label + total weight rest

section
variable {α : Type} (weight : α → Nat)

theorem total_append (first second : List α) :
    total weight (first ++ second) = total weight first + total weight second := by
  induction first with
  | nil => simp [total]
  | cons a rest ih => simp only [List.cons_append, total, ih, Nat.add_assoc]

theorem total_eraseIdx {l : List α} {i : Nat} {a : α} (at_ : l[i]? = some a) :
    total weight (l.eraseIdx i) + weight a = total weight l := by
  induction l generalizing i with
  | nil => simp at at_
  | cons b rest ih =>
    cases i with
    | zero =>
      cases at_
      exact Nat.add_comm _ _
    | succ i =>
      have later := ih at_
      simp only [List.eraseIdx_cons_succ, total]
      omega

theorem total_set {l : List α} {i : Nat} {a : α} (at_ : l[i]? = some a) (b : α) :
    total weight (l.set i b) + weight a = total weight l + weight b := by
  induction l generalizing i with
  | nil => simp at at_
  | cons c rest ih =>
    cases i with
    | zero =>
      cases at_
      simp only [List.set_cons_zero, total]
      omega
    | succ i =>
      have later := ih at_
      simp only [List.set_cons_succ, total]
      omega

theorem total_pair {l : List α} {i j : Nat} {a b : α} (first : l[i]? = some a) (second : l[j]? = some b)
    (apart : i ≠ j) : weight a + weight b ≤ total weight l := by
  have removed := total_eraseIdx weight first
  have remains : b ∈ l.eraseIdx i := List.mem_eraseIdx_iff_getElem?.mpr ⟨j,apart.symm,second⟩
  obtain ⟨k,at_⟩ := List.mem_iff_getElem?.mp remains
  have rest := total_eraseIdx weight at_
  omega

theorem total_add (first second : α → Nat) (l : List α) :
    total (fun a => first a + second a) l = total first l + total second l := by
  induction l with
  | nil => rfl
  | cons a rest ih =>
    simp only [total, ih]
    omega

theorem total_mono {first second : α → Nat} {l : List α} (le : ∀ a ∈ l, first a ≤ second a) :
    total first l ≤ total second l := by
  induction l with
  | nil => exact Nat.le_refl _
  | cons a rest ih =>
    obtain ⟨here,later⟩ := List.forall_mem_cons.mp le
    exact Nat.add_le_add here (ih later)

theorem total_eq_zero {l : List α} (none : ∀ a ∈ l, weight a = 0) : total weight l = 0 := by
  induction l with
  | nil => rfl
  | cons a rest ih =>
    obtain ⟨here,later⟩ := List.forall_mem_cons.mp none
    rw [total, here, ih later]

theorem total_const (n : Nat) (l : List α) : total (fun _ => n) l = l.length * n := by
  induction l with
  | nil => exact (Nat.zero_mul n).symm
  | cons a rest ih => rw [total, ih, List.length_cons, Nat.succ_mul, Nat.add_comm]

theorem weight_le_total {l : List α} {a : α} (member : a ∈ l) : weight a ≤ total weight l := by
  obtain ⟨i,at_⟩ := List.mem_iff_getElem?.mp member
  have rest := total_eraseIdx weight at_
  omega

theorem total_indicator (marked : α → Bool) (l : List α) :
    total (fun a => (marked a).toNat) l = (l.filter marked).length := by
  induction l with
  | nil => rfl
  | cons a rest ih =>
    rw [total, ih, List.filter_cons]
    cases marked a <;> simp [Nat.add_comm]

end

/-- Steps that pay what they cost out of a potential and their own credit keep the total
cost of a run within the initial potential and the total credit. -/
theorem System.account (condition : σ → ℓ → Prop) (property : σ → Prop) (potential : σ → Nat)
    (cost credit : ℓ → Nat)
    (paid : ∀ s label next, property s → condition s label → m.step s label = some next →
      property next ∧ potential next + cost label ≤ potential s + credit label)
    {s final : σ} {trace : List ℓ} (run : m.run s trace = some final)
    (along : m.Along condition s trace) (initial : property s) :
    potential final + total cost trace ≤ potential s + total credit trace := by
  induction trace generalizing s with
  | nil => cases run; exact Nat.le_refl _
  | cons label rest ih =>
    obtain ⟨next,first,later⟩ := System.run_cons.mp run
    obtain ⟨kept,covered⟩ := paid s label next initial along.1 first
    have remaining := ih later (along.2 next first) kept
    simp only [total]
    omega

/-- What the steps of a run come to, each weighed in the state that it is taken in. -/
def System.sum (m : System σ ℓ) (weigh : σ → ℓ → Nat) : σ → List ℓ → Nat
  | _, [] => 0
  | s, label :: rest => weigh s label + (m.step s label).elim 0 fun next => System.sum m weigh next rest

/-- The form of `account` for costs and credits that depend on the state. -/
theorem System.balance (condition : σ → ℓ → Prop) (property : σ → Prop) (potential : σ → Nat)
    (cost credit : σ → ℓ → Nat)
    (paid : ∀ s label next, property s → condition s label → m.step s label = some next →
      property next ∧ potential next + cost s label ≤ potential s + credit s label)
    {s final : σ} {trace : List ℓ} (run : m.run s trace = some final)
    (along : m.Along condition s trace) (initial : property s) :
    potential final + m.sum cost s trace ≤ potential s + m.sum credit s trace := by
  induction trace generalizing s with
  | nil => cases run; exact Nat.le_refl _
  | cons label rest ih =>
    obtain ⟨next,first,later⟩ := System.run_cons.mp run
    obtain ⟨kept,covered⟩ := paid s label next initial along.1 first
    have remaining := ih later (along.2 next first) kept
    simp only [System.sum, first, Option.elim]
    omega

theorem System.sum_labels (weight : ℓ → Nat) {s final : σ} {trace : List ℓ} (run : m.run s trace = some final) :
    m.sum (fun _ label => weight label) s trace = total weight trace := by
  induction trace generalizing s with
  | nil => rfl
  | cons label rest ih =>
    obtain ⟨next,first,later⟩ := System.run_cons.mp run
    simp only [System.sum, first, Option.elim, total, ih later]

/-- A run that comes to less has a step that does. -/
theorem System.exists_of_sum_lt {first second : σ → ℓ → Nat} {s : σ} {trace : List ℓ}
    (less : m.sum first s trace < m.sum second s trace) :
    ∃ earlier label later state, trace = earlier ++ label :: later ∧ m.run s earlier = some state ∧
      first state label < second state label := by
  induction trace generalizing s with
  | nil => exact absurd less (Nat.lt_irrefl 0)
  | cons label rest ih =>
    by_cases here : first s label < second s label
    · exact ⟨[],label,rest,s,rfl,rfl,here⟩
    · cases step : m.step s label with
      | none =>
        simp only [System.sum, step, Option.elim] at less
        omega
      | some next =>
        simp only [System.sum, step, Option.elim] at less
        have remaining : m.sum first next rest < m.sum second next rest := by omega
        obtain ⟨earlier,found,later,state,rfl,reached,below⟩ := ih remaining
        exact ⟨label :: earlier,found,later,state,rfl,System.run_cons.mpr ⟨next,step,reached⟩,below⟩

end

end Transition
