import Mathlib.Tactic.Common

/-! Loops that repeat a bounded step while it finds a full batch to work on. Each round
has its own number, so that a step may depend on the moment at which it runs. -/
namespace BatchLoop

variable {σ ε : Type}

/-- A loop whose rounds say whether they stop it, and why. `none` is a loop that is still
running after `fuel` rounds. -/
def untilStop (step : Nat → σ → σ × Option ε) : Nat → Nat → σ → Option (σ × ε)
  | 0, _, _ => none
  | fuel + 1, round, s =>
    match (step round s).2 with
    | some why => some ((step round s).1, why)
    | none => untilStop step fuel (round + 1) (step round s).1

/-- `none` is a loop that is still running after `fuel` rounds. -/
def untilShort (step : Nat → σ → σ × Nat) (batch : Nat) : Nat → Nat → σ → Option σ
  | 0, _, _ => none
  | fuel + 1, round, s =>
    if (step round s).2 < batch then some (step round s).1
    else untilShort step batch fuel (round + 1) (step round s).1

section
variable {step : Nat → σ → σ × Option ε}

/-- A loop ends if each round that goes on takes `batch` from a finite supply. -/
theorem untilStop_ends (size : σ → Nat) {batch : Nat}
    (consumes : ∀ round s, (step round s).2 = none → size (step round s).1 + batch ≤ size s)
    {fuel : Nat} (round : Nat) {s : σ} (enough : size s < fuel * batch) :
    ∃ final, untilStop step fuel round s = some final := by
  induction fuel generalizing round s with
  | zero => omega
  | succ fuel ih =>
    unfold untilStop
    split
    · exact ⟨_,rfl⟩
    · rename_i onward
      have less := consumes round s onward
      rw [Nat.succ_mul] at enough
      exact ih (round + 1) (by omega)

theorem untilStop_mono {fuel more round : Nat} {s : σ} {final : σ × ε} (within : fuel ≤ more)
    (ran : untilStop step fuel round s = some final) : untilStop step more round s = some final := by
  induction fuel generalizing more round s with
  | zero => cases ran
  | succ fuel ih =>
    obtain ⟨more,rfl⟩ : ∃ n, more = n + 1 := ⟨more - 1,by omega⟩
    unfold untilStop at ran ⊢
    split at ran
    · exact ran
    · exact ih (by omega) ran

/-- What every round keeps and the last round establishes. -/
theorem untilStop_spec (kept : Nat → σ → Prop) (reached : ε → σ → Prop)
    (keeps : ∀ round s, kept round s → kept (round + 1) (step round s).1)
    (reaches : ∀ round s why, kept round s → (step round s).2 = some why → reached why (step round s).1)
    {fuel round : Nat} {s : σ} {final : σ × ε} (ran : untilStop step fuel round s = some final)
    (initial : kept round s) : (∃ rounds ≤ fuel, kept (round + rounds) final.1) ∧ reached final.2 final.1 := by
  induction fuel generalizing round s with
  | zero => cases ran
  | succ fuel ih =>
    unfold untilStop at ran
    split at ran
    · rename_i stopped
      cases ran
      exact ⟨⟨1,by omega,keeps round s initial⟩,reaches round s _ initial stopped⟩
    · obtain ⟨⟨rounds,within,last⟩,reached⟩ := ih ran (keeps round s initial)
      exact ⟨⟨rounds + 1,by omega,by rwa [Nat.add_right_comm, Nat.add_assoc] at last⟩,reached⟩

end

variable {step : Nat → σ → σ × Nat} {batch : Nat}

/-- A round of `untilShort` as one that may stop the loop. -/
def stopShort (step : Nat → σ → σ × Nat) (batch round : Nat) (s : σ) : σ × Option Unit :=
  ((step round s).1, if (step round s).2 < batch then some () else none)

theorem stopShort_stops {round : Nat} {s : σ} {why : Unit} (stopped : (stopShort step batch round s).2 = some why) :
    (step round s).2 < batch := by
  unfold stopShort at stopped
  split at stopped
  · assumption
  · cases stopped

theorem stopShort_onward {round : Nat} {s : σ} (onward : (stopShort step batch round s).2 = none) :
    batch ≤ (step round s).2 := by
  unfold stopShort at onward
  split at onward
  · cases onward
  · omega

theorem untilShort_eq (fuel round : Nat) (s : σ) :
    untilShort step batch fuel round s = (untilStop (stopShort step batch) fuel round s).map Prod.fst := by
  induction fuel generalizing round s with
  | zero => rfl
  | succ fuel ih =>
    rw [untilShort, untilStop]
    by_cases short : (step round s).2 < batch
    · simp [stopShort, short]
    · simp only [if_neg short, ih, stopShort]

/-- A loop whose rounds consume what they count runs out of work. -/
theorem untilShort_ends (size : σ → Nat) (consumes : ∀ round s, size (step round s).1 + (step round s).2 ≤ size s)
    (positive : 0 < batch) {fuel : Nat} (round : Nat) {s : σ} (enough : size s < fuel) :
    ∃ final, untilShort step batch fuel round s = some final := by
  have ends : ∃ final, untilStop (stopShort step batch) fuel round s = some final := by
    refine untilStop_ends size (fun round s onward => ?_) round
      (Nat.lt_of_lt_of_le enough (Nat.le_mul_of_pos_right fuel positive))
    exact Nat.le_trans (Nat.add_le_add_left (stopShort_onward onward) _) (consumes round s)
  obtain ⟨final,ran⟩ := ends
  exact ⟨final.1,by rw [untilShort_eq, ran]; rfl⟩

/-- What every round keeps and the last round establishes. -/
theorem untilShort_spec (kept : σ → Prop) (reached : σ → Prop)
    (keeps : ∀ round s, kept s → kept (step round s).1)
    (reaches : ∀ round s, kept s → (step round s).2 < batch → reached (step round s).1)
    {fuel round : Nat} {s final : σ} (ran : untilShort step batch fuel round s = some final)
    (initial : kept s) : kept final ∧ reached final := by
  rw [untilShort_eq, Option.map_eq_some_iff] at ran
  obtain ⟨⟨_,_⟩,ran,rfl⟩ := ran
  obtain ⟨⟨_,_,last⟩,done⟩ := untilStop_spec (fun _ => kept) (fun _ => reached) keeps
    (fun round s _ before stopped => reaches round s before (stopShort_stops stopped)) ran initial
  exact ⟨last,done⟩

end BatchLoop
