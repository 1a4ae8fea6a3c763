import Tickr.Transition

/-! Leases with a fencing token. Slots are handed out under an attempt number and an
owner; whoever got one may report back once, arbitrarily late. A ledger watches every
claim ever handed out, so that a run can be asked which claim a late report belonged to
and what had become of it. -/
namespace Lease

structure Slot (ω : Type) where
  held : Bool
  attempt : Int
  owner : Option ω

structure Token (ω : Type) where
  attempt : Int
  owner : ω
  deriving DecidableEq, Repr

/-- The slot right after it was handed out under `t`. -/
def Token.slot (t : Token ω) : Slot ω := ⟨true, t.attempt, some t.owner⟩

def isHeld (slot : Option (Slot ω)) : Bool := slot.any Slot.held

inductive Cause where
  | plain
  | expiry
  | revival
  deriving DecidableEq, Repr

inductive Ending where
  | write
  | expiry
  | foreign
  deriving DecidableEq, Repr

/-- A claim and what has been seen of it: whether its write was issued, whether it is still
the most recent one of its key, whether its slot has been held ever since, whether the
key was revived since, and every transition that ended it. -/
structure Claim (κ ω : Type) where
  key : κ
  token : Token ω
  written : Bool
  latest : Bool
  kept : Bool
  revived : Bool
  ends : List Ending
  deriving DecidableEq, Repr

def Claim.opened (grant : κ × Token ω) : Claim κ ω := ⟨grant.1, grant.2, false, true, true, false, []⟩

/-- What one step looks like at one key. -/
structure Sight where
  cause : Cause
  changed : Bool
  before : Bool
  after : Bool
  granted : Bool

/-- One step in the life of a claim; `own` marks the step that issues its write. -/
def Claim.watch (own : Bool) (seen : Sight) (c : Claim κ ω) : Claim κ ω where
  key := c.key
  token := c.token
  written := c.written || own
  latest := c.latest && !seen.granted
  kept := c.kept && seen.after
  revived := c.revived || (seen.cause = .revival && seen.changed)
  ends := c.ends ++
    if own && seen.changed then [.write]
    else if c.latest && seen.before && !seen.after then
      [if seen.cause = .expiry then .expiry else .foreign]
    else []

@[simp] theorem Claim.watch_key (own : Bool) (seen : Sight) (c : Claim κ ω) :
    (c.watch own seen).key = c.key := rfl

/-! ### What a step may do to one slot -/

/-- A step other than a write. The last index is what it handed out. -/
inductive Acted : Cause → Bool → Option (Slot ω) → Option (Slot ω) → Option (Token ω) → Prop where
  | quiet : (changed = true → cause = .plain) → Acted cause changed slot slot none
  | grant (t : Token ω) : Acted .plain changed (some ⟨false, t.attempt - 1, before⟩) (some t.slot) (some t)
  | expire : Acted .expiry true (some ⟨true, a, before⟩) (some ⟨false, a, after⟩) none
  | revive : Acted .revival true (some ⟨false, a, before⟩) (some ⟨false, a', after⟩) none
  | create : Acted .plain changed none (some ⟨false, a, after⟩) none
  | remove : Acted .plain changed (some ⟨false, a, before⟩) none none

/-- A write under token `t`. It may be without effect on any slot, and it gives back at most
one attempt. -/
inductive Written (accepts : Token ω → Slot ω → Prop) (t : Token ω) :
    Bool → Option (Slot ω) → Option (Slot ω) → Prop where
  | missed : Written accepts t false slot slot
  | settled : accepts t ⟨true, a, before⟩ → a - 1 ≤ a' →
      Written accepts t true (some ⟨true, a, before⟩) (some ⟨false, a', after⟩)

section
variable {slot slot' : Slot ω} {changed : Bool}

theorem Acted.of_expiry (held : slot.held = true) (left : slot'.held = false)
    (same : slot'.attempt = slot.attempt) : Acted .expiry true (some slot) (some slot') none := by
  obtain ⟨_,_,_⟩ := slot
  obtain ⟨_,_,_⟩ := slot'
  cases held
  cases left
  cases same
  exact .expire

theorem Acted.of_revival (idle : slot.held = false) (after : slot'.held = false) :
    Acted .revival true (some slot) (some slot') none := by
  obtain ⟨_,_,_⟩ := slot
  obtain ⟨_,_,_⟩ := slot'
  cases idle
  cases after
  exact .revive

theorem Acted.of_creation (idle : slot.held = false) : Acted .plain changed none (some slot) none := by
  obtain ⟨_,_,_⟩ := slot
  cases idle
  exact .create

theorem Acted.of_removal (idle : slot.held = false) : Acted .plain changed (some slot) none none := by
  obtain ⟨_,_,_⟩ := slot
  cases idle
  exact .remove

theorem Acted.of_handout (t : Token ω) (idle : slot.held = false) (next : slot.attempt + 1 = t.attempt) :
    Acted .plain changed (some slot) (some t.slot) (some t) := by
  obtain ⟨_,attempt,_⟩ := slot
  obtain rfl : attempt = t.attempt - 1 := by simp only at next; omega
  cases idle
  exact .grant t

end

/-! ### One claim -/

def Claim.current (c : Claim κ ω) : Prop := c.latest = true ∧ c.kept = true

/-- Why a claim is safe to leave outstanding: either it is the one its slot is held under,
or its write, if still to come, will not be accepted. -/
structure Sound (accepts : Token ω → Slot ω → Prop) (slot : Option (Slot ω)) (c : Claim κ ω) : Prop where
  current : c.current → slot = some c.token.slot ∧ c.ends = []
  newest : c.latest = true → isHeld slot = true → c.kept = true
  once : c.ends = [] ∨ c.ends = [.write] ∨ c.ends = [.expiry]
  rejected : ¬c.current → c.written = false → ∀ s, slot = some s → s.held = true → ¬accepts c.token s
  behind : ¬c.current → c.written = false → c.revived = false → ∀ s, slot = some s →
    c.token.attempt ≤ s.attempt ∧ (s.held = true → c.token.attempt < s.attempt)

variable {accepts : Token ω → Slot ω → Prop} {slot slot' : Option (Slot ω)} {c : Claim κ ω}

theorem Sound.opened (grant : κ × Token ω) :
    Sound accepts (some grant.2.slot) (Claim.opened grant) where
  current _ := ⟨rfl,rfl⟩
  newest _ _ := rfl
  once := Or.inl rfl
  rejected stale := absurd ⟨rfl,rfl⟩ stale
  behind stale := absurd ⟨rfl,rfl⟩ stale

theorem Sound.not_current (sound : Sound accepts slot c) (idle : isHeld slot = false) : ¬c.current := by
  intro current
  rw [(sound.current current).1] at idle
  cases idle

/-- A report that is let through comes from the current claim. -/
theorem Sound.current_of_accepted (sound : Sound accepts slot c) (unwritten : c.written = false)
    {s : Slot ω} (at_ : slot = some s) (held : s.held = true) (accepted : accepts c.token s) : c.current := by
  by_contra stale
  exact sound.rejected stale unwritten s at_ held accepted

theorem Claim.ends_unmoved {own changed held granted : Bool} {cause : Cause}
    (silent : (own && changed) = false) :
    (c.watch own ⟨cause, changed, held, held, granted⟩).ends = c.ends := by
  cases held <;> simp [Claim.watch, silent]

/-- Watching a step that neither granted nor moved the slot. It may be a write of the claim
that was without effect. -/
theorem Sound.unmoved (sound : Sound accepts slot c) {cause : Cause} {own changed : Bool}
    (silent : (own && changed) = false) :
    Sound accepts slot (c.watch own ⟨cause, changed, isHeld slot, isHeld slot, false⟩) := by
  have ends : (c.watch own ⟨cause, changed, isHeld slot, isHeld slot, false⟩).ends = c.ends :=
    Claim.ends_unmoved silent
  have same : (c.watch own ⟨cause, changed, isHeld slot, isHeld slot, false⟩).current ↔ c.current := by
    simp only [Claim.current, Claim.watch, Bool.not_false, Bool.and_true, Bool.and_eq_true]
    refine ⟨fun h => ⟨h.1,h.2.1⟩,fun h => ⟨h.1,h.2,?_⟩⟩
    rw [(sound.current h).1]
    rfl
  constructor
  · intro current
    have old := sound.current (same.mp current)
    exact ⟨old.1,ends.trans old.2⟩
  · intro latest held
    have kept := sound.newest (by simpa [Claim.watch] using latest) held
    simp [Claim.watch, kept, held]
  · exact ends ▸ sound.once
  · intro stale unwritten
    simp only [Claim.watch, Bool.or_eq_false_iff] at unwritten
    exact sound.rejected (fun h => stale (same.mpr h)) unwritten.1
  · intro stale unwritten still
    simp only [Claim.watch, Bool.or_eq_false_iff] at unwritten still
    exact sound.behind (fun h => stale (same.mpr h)) unwritten.1 still.1

/-- Once the slot is free, only the counter matters. -/
theorem Sound.of_idle {d : Claim κ ω} (idle : isHeld slot' = false) (lost : d.kept = false)
    (once : d.ends = [] ∨ d.ends = [.write] ∨ d.ends = [.expiry])
    (behind : d.written = false → d.revived = false → ∀ s, slot' = some s →
      d.token.attempt ≤ s.attempt) : Sound accepts slot' d := by
  have free (s : Slot ω) (at_ : slot' = some s) : s.held = false := by simpa [isHeld, at_] using idle
  constructor
  · rintro ⟨_,kept⟩
    simp [lost] at kept
  · intro _ held
    simp [idle] at held
  · exact once
  · intro _ _ s at_ held
    simp [free s at_] at held
  · intro _ unwritten still s at_
    exact ⟨behind unwritten still s at_,by simp [free s at_]⟩

theorem Sound.acted (sound : Sound accepts slot c) {cause : Cause} {changed : Bool}
    {grant : Option (Token ω)} (acted : Acted cause changed slot slot' grant)
    (known : slot = none → slot' = none)
    (separate : ∀ t, grant = some t → c.written = false → ¬accepts c.token t.slot) :
    Sound accepts slot' (c.watch false ⟨cause, changed, isHeld slot, isHeld slot', grant.isSome⟩) := by
  cases acted with
  | quiet _ => exact sound.unmoved rfl
  | create => cases known rfl
  | grant t =>
    have stale := sound.not_current (show isHeld (some (⟨false, _, _⟩ : Slot ω)) = false from rfl)
    constructor
    · rintro ⟨latest,_⟩
      simp [Claim.watch] at latest
    · intro latest
      simp [Claim.watch] at latest
    · simpa [Claim.watch, isHeld] using sound.once
    · intro _ unwritten s at_ _
      cases at_
      exact separate t rfl (by simpa [Claim.watch] using unwritten)
    · intro _ unwritten still s at_
      cases at_
      simp only [Claim.watch, Bool.or_eq_false_iff] at unwritten still
      have low := (sound.behind stale unwritten.1 still.1 _ rfl).1
      simp only [Claim.watch, Token.slot] at low ⊢
      omega
  | @expire a before after =>
    have held : isHeld (some (⟨true, a, before⟩ : Slot ω)) = true := rfl
    refine .of_idle rfl (by simp [Claim.watch, isHeld]) ?_ ?_
    · cases latest : c.latest with
      | false => simpa [Claim.watch, latest] using sound.once
      | true =>
        have ends := (sound.current ⟨latest,sound.newest latest held⟩).2
        simp [Claim.watch, latest, ends, isHeld]
    · intro unwritten still s at_
      cases at_
      simp only [Claim.watch, Bool.or_eq_false_iff] at unwritten still ⊢
      by_cases current : c.current
      · have same := (sound.current current).1
        simp only [Token.slot, Option.some.injEq, Slot.mk.injEq] at same
        omega
      · exact (sound.behind current unwritten.1 still.1 _ rfl).1
  | revive =>
    refine .of_idle rfl (by simp [Claim.watch, isHeld]) (by simpa [Claim.watch, isHeld] using sound.once) ?_
    intro _ still
    simp [Claim.watch] at still
  | remove =>
    refine .of_idle rfl (by simp [Claim.watch, isHeld]) (by simpa [Claim.watch, isHeld] using sound.once) ?_
    intro _ _ s at_
    cases at_

/-- The claim that writes. -/
theorem Sound.wrote (sound : Sound accepts slot c) (unwritten : c.written = false) {changed : Bool}
    (wrote : Written accepts c.token changed slot slot') :
    Sound accepts slot' (c.watch true ⟨.plain, changed, isHeld slot, isHeld slot', false⟩) := by
  cases wrote with
  | missed => exact sound.unmoved (Bool.and_false true)
  | settled accepted _ =>
    have ends := (sound.current (sound.current_of_accepted unwritten rfl rfl accepted)).2
    refine .of_idle rfl (by simp [Claim.watch, isHeld]) (by simp [Claim.watch, ends]) ?_
    intro issued
    simp [Claim.watch] at issued

/-- The other claims of the key that is written. -/
theorem Sound.bystander (sound : Sound accepts slot c) {t : Token ω} {changed : Bool}
    (wrote : Written accepts t changed slot slot') (older : changed = true → c.latest = false) :
    Sound accepts slot' (c.watch false ⟨.plain, changed, isHeld slot, isHeld slot', false⟩) := by
  cases wrote with
  | missed => exact sound.unmoved rfl
  | settled accepted back =>
    have superseded := older rfl
    have stale : ¬c.current := fun current => Bool.false_ne_true (superseded.symm.trans current.1)
    refine .of_idle rfl (by simp [Claim.watch, isHeld]) (by simpa [Claim.watch, superseded] using sound.once) ?_
    intro unwritten still s at_
    cases at_
    simp only [Claim.watch, Bool.or_eq_false_iff] at unwritten still ⊢
    have low := (sound.behind stale unwritten.1 still.1 _ rfl).2 rfl
    simp only at low
    omega

/-- Claims from before a revival are kept out, whether or not they have written before. -/
def Barred (accepts : Token ω → Slot ω → Prop) (slot : Option (Slot ω)) (c : Claim κ ω) : Prop :=
  c.revived = true → ∀ s, slot = some s → s.held = true → ¬accepts c.token s

theorem Barred.of_idle (idle : isHeld slot = false) :
    Barred accepts slot c := by
  intro _ s at_ held
  simp [isHeld, at_, held] at idle

theorem Barred.acted (barred : Barred accepts slot c)
    {cause : Cause} {changed before after granted : Bool} {grant : Option (Token ω)}
    (acted : Acted cause changed slot slot' grant)
    (separate : ∀ t, grant = some t → c.revived = true → ¬accepts c.token t.slot) :
    Barred accepts slot' (c.watch false ⟨cause, changed, before, after, granted⟩) := by
  cases acted with
  | quiet plain =>
    intro revived
    simp only [Claim.watch, Bool.or_eq_true, Bool.and_eq_true, decide_eq_true_eq] at revived
    refine barred (revived.resolve_right ?_)
    rintro ⟨rfl,moved⟩
    cases plain moved
  | grant t =>
    intro revived s at_ _
    cases at_
    exact separate t rfl (by simpa [Claim.watch] using revived)
  | expire | revive | create | remove => exact .of_idle rfl

theorem Barred.written (barred : Barred accepts slot c) {own : Bool} {seen : Sight}
    (plain : seen.cause = .plain) (moved : slot' = slot ∨ isHeld slot' = false) :
    Barred accepts slot' (c.watch own seen) := by
  rcases moved with rfl | idle
  · intro revived
    exact barred (by simpa [Claim.watch, plain] using revived)
  · exact .of_idle idle

theorem Written.moved {t : Token ω} {changed : Bool} (wrote : Written accepts t changed slot slot') :
    slot' = slot ∨ isHeld slot' = false := by
  cases wrote with
  | missed => exact Or.inl rfl
  | settled _ _ => exact Or.inr rfl

/-! ### Renewals -/

/-- What makes a renewal under the owner's name tell whether the claim is current: the
slot of a current claim carries its token, and no other claim has put the same owner
there. -/
structure Renewable (slot : Option (Slot ω)) (c : Claim κ ω) : Prop where
  carried : c.current → slot = some c.token.slot
  sole : ∀ s, slot = some s → s.held = true → s.owner = some c.token.owner → c.current

theorem Renewable.opened (grant : κ × Token ω) : Renewable (some grant.2.slot) (Claim.opened grant) :=
  ⟨fun _ => rfl,fun _ _ _ _ => ⟨rfl,rfl⟩⟩

theorem Renewable.of_idle (idle : isHeld slot = false) (lost : c.kept = false) : Renewable slot c := by
  constructor
  · rintro ⟨_,kept⟩
    rw [lost] at kept
    cases kept
  · intro s at_ held
    simp [isHeld, at_, held] at idle

theorem Renewable.unmoved (renewable : Renewable slot c) {own changed : Bool} {cause : Cause} :
    Renewable slot (c.watch own ⟨cause, changed, isHeld slot, isHeld slot, false⟩) := by
  have same : (c.watch own ⟨cause, changed, isHeld slot, isHeld slot, false⟩).current ↔ c.current := by
    simp only [Claim.current, Claim.watch, Bool.not_false, Bool.and_true, Bool.and_eq_true]
    refine ⟨fun h => ⟨h.1,h.2.1⟩,fun h => ⟨h.1,h.2,?_⟩⟩
    rw [renewable.carried h]
    rfl
  refine ⟨fun current => renewable.carried (same.mp current),?_⟩
  intro s at_ held owner
  exact same.mpr (renewable.sole s at_ held owner)

theorem Renewable.acted (renewable : Renewable slot c) {cause : Cause} {changed : Bool}
    {grant : Option (Token ω)} (acted : Acted cause changed slot slot' grant)
    (other : ∀ t, grant = some t → t.owner ≠ c.token.owner) :
    Renewable slot' (c.watch false ⟨cause, changed, isHeld slot, isHeld slot', grant.isSome⟩) := by
  cases acted with
  | quiet _ => exact renewable.unmoved
  | grant t =>
    constructor
    · rintro ⟨latest,_⟩
      simp [Claim.watch] at latest
    · intro s at_ _ owner
      cases at_
      exact absurd (Option.some.inj owner) (other t rfl)
  | expire | revive | create => exact .of_idle rfl (by simp [Claim.watch, isHeld])
  | remove => exact .of_idle rfl (by simp [Claim.watch, isHeld])

theorem Renewable.written (renewable : Renewable slot c) {t : Token ω} {own changed : Bool}
    (wrote : Written accepts t changed slot slot') :
    Renewable slot' (c.watch own ⟨.plain, changed, isHeld slot, isHeld slot', false⟩) := by
  cases wrote with
  | missed => exact renewable.unmoved
  | settled _ _ => exact .of_idle rfl (by simp [Claim.watch, isHeld])

/-! ### The watched system -/

/-- A store of leased rows: what an act and a write do to it, what an act hands out, and
the keys under which it may insert. -/
structure Protocol (σ κ ω ρ α β : Type) where
  row : σ → κ → Option ρ
  slot : ρ → Slot ω
  act : σ → α → σ
  cause : α → Cause
  grants : σ → α → List (κ × Token ω)
  mints : α → List κ
  settle : σ → κ → Token ω → β → σ

inductive Label (α β : Type) where
  | act (a : α)
  | write (claim : Nat) (w : β)

structure Watched (σ κ ω : Type) where
  store : σ
  ledger : List (Claim κ ω)

section
variable {σ κ ω ρ α β : Type} (P : Protocol σ κ ω ρ α β)

def Protocol.slotAt (s : σ) (k : κ) : Option (Slot ω) := (P.row s k).map P.slot

theorem Protocol.slotAt_eq_none {P : Protocol σ κ ω ρ α β} {s : σ} {k : κ} : P.slotAt s k = none ↔ P.row s k = none := by
  simp [Protocol.slotAt]

theorem Protocol.slotAt_eq {P : Protocol σ κ ω ρ α β} {s : σ} {k : κ} {row : Option ρ} (found : P.row s k = row) :
    P.slotAt s k = row.map P.slot := by
  rw [Protocol.slotAt, found]

/-- Among the claims of one key only the last one in the ledger is the most recent. -/
def Newest (ledger : List (Claim κ ω)) : Prop :=
  ledger.Pairwise fun c d => c.key = d.key → c.latest = false

theorem Newest.older {ledger : List (Claim κ ω)} (newest : Newest ledger) {i n : Nat} {c d : Claim κ ω}
    (first : ledger[i]? = some c) (second : ledger[n]? = some d) (apart : n ≠ i) (same : c.key = d.key)
    (latest : d.latest = true) : c.latest = false := by
  obtain ⟨hi,rfl⟩ := List.getElem?_eq_some_iff.mp first
  obtain ⟨hn,rfl⟩ := List.getElem?_eq_some_iff.mp second
  have order := List.pairwise_iff_getElem.mp newest
  rcases Nat.lt_or_gt_of_ne apart with later | earlier
  · simp [order n i hn hi later same.symm] at latest
  · exact order i n hi hn earlier same

structure Inv (accepts : Token ω → Slot ω → Prop) (m : Watched σ κ ω) : Prop where
  sound : ∀ c ∈ m.ledger, Sound accepts (P.slotAt m.store c.key) c
  newest : Newest m.ledger

theorem Inv.start {accepts : Token ω → Slot ω → Prop} (s : σ) : Inv P accepts ⟨s, []⟩ := ⟨by simp,List.Pairwise.nil⟩

/-- Nothing is inserted under the key of an earlier claim. -/
def Fresh (m : Watched σ κ ω) : Label α β → Prop
  | .act a => ∀ k ∈ P.mints a, ∀ c ∈ m.ledger, c.key ≠ k
  | .write _ _ => True

/-- No claim writes twice. -/
def FirstWrite (m : Watched σ κ ω) : Label α β → Prop
  | .act _ => True
  | .write n _ => ∀ c ∈ m.ledger[n]?, c.written = false

/-- Nothing is handed out that clashes with a claim whose write is still to come. -/
def Separate (clash : Claim κ ω → Token ω → Prop) (m : Watched σ κ ω) :
    Label α β → Prop
  | .act a => ∀ g ∈ P.grants m.store a, ∀ c ∈ m.ledger, c.key = g.1 → c.written = false → ¬clash c g.2
  | .write _ _ => True

/-- Nothing is handed out that clashes with any claim at all. -/
def NoClash (clash : Claim κ ω → Token ω → Prop) (m : Watched σ κ ω) :
    Label α β → Prop
  | .act a => ∀ g ∈ P.grants m.store a, ∀ c ∈ m.ledger, c.key = g.1 → ¬clash c g.2
  | .write _ _ => True

instance [DecidableEq κ] (m : Watched σ κ ω) : ∀ label : Label α β, Decidable (Fresh P m label)
  | .act a => inferInstanceAs (Decidable (∀ k ∈ P.mints a, ∀ c ∈ m.ledger, c.key ≠ k))
  | .write _ _ => inferInstanceAs (Decidable True)

instance (m : Watched σ κ ω) : ∀ label : Label α β, Decidable (FirstWrite m label)
  | .act _ => inferInstanceAs (Decidable True)
  | .write n _ => inferInstanceAs (Decidable (∀ c ∈ m.ledger[n]?, c.written = false))

instance [DecidableEq κ] (clash : Claim κ ω → Token ω → Prop) [∀ c t, Decidable (clash c t)]
    (m : Watched σ κ ω) : ∀ label : Label α β, Decidable (Separate P clash m label)
  | .act a => inferInstanceAs (Decidable (∀ g ∈ P.grants m.store a, ∀ c ∈ m.ledger,
      c.key = g.1 → c.written = false → ¬clash c g.2))
  | .write _ _ => inferInstanceAs (Decidable True)

instance [DecidableEq κ] (clash : Claim κ ω → Token ω → Prop) [∀ c t, Decidable (clash c t)]
    (m : Watched σ κ ω) : ∀ label : Label α β, Decidable (NoClash P clash m label)
  | .act a => inferInstanceAs (Decidable (∀ g ∈ P.grants m.store a, ∀ c ∈ m.ledger, c.key = g.1 → ¬clash c g.2))
  | .write _ _ => inferInstanceAs (Decidable True)

/-- The clash that a test for acceptance would notice. -/
def accepted (accepts : Token ω → Slot ω → Prop) (c : Claim κ ω) (t : Token ω) : Prop :=
  accepts c.token t.slot

variable [DecidableEq κ] [DecidableEq ρ]

def Protocol.changed (s s' : σ) (k : κ) : Bool := P.row s k ≠ P.row s' k

omit [DecidableEq κ] in
theorem Protocol.changed_of_eq {P : Protocol σ κ ω ρ α β} {s s' : σ} {k : κ} (same : P.row s' k = P.row s k) :
    P.changed s s' k = false := by
  simp [Protocol.changed, same]

omit [DecidableEq κ] in
theorem Protocol.changed_of_ne {P : Protocol σ κ ω ρ α β} {s s' : σ} {k : κ} (moved : P.row s' k ≠ P.row s k) :
    P.changed s s' k = true := by
  simpa [Protocol.changed] using moved.symm

def Protocol.sight (s s' : σ) (cause : Cause) (grants : List (κ × Token ω)) (k : κ) : Sight :=
  ⟨cause, P.changed s s' k, isHeld (P.slotAt s k), isHeld (P.slotAt s' k), grants.any fun g => g.1 = k⟩

def Protocol.observe (s s' : σ) (writer : Option Nat) (cause : Cause) (grants : List (κ × Token ω))
    (ledger : List (Claim κ ω)) : List (Claim κ ω) :=
  ledger.mapIdx (fun n c => c.watch (writer = some n) (P.sight s s' cause grants c.key)) ++
    grants.map Claim.opened

def Protocol.step (m : Watched σ κ ω) : Label α β → Option (Watched σ κ ω)
  | .act a =>
    let after := P.act m.store a
    some ⟨after, P.observe m.store after none (P.cause a) (P.grants m.store a) m.ledger⟩
  | .write n w =>
    m.ledger[n]?.map fun c =>
      let after := P.settle m.store c.key c.token w
      ⟨after, P.observe m.store after (some n) .plain [] m.ledger⟩

def Protocol.system : Transition.System (Watched σ κ ω) (Label α β) := ⟨P.step⟩

/-- The store seen one row at a time. -/
structure Lawful (accepts : Token ω → Slot ω → Prop) : Prop where
  acted : ∀ s a k, ∃ grant, Acted (P.cause a) (P.changed s (P.act s a) k) (P.slotAt s k)
    (P.slotAt (P.act s a) k) grant ∧ ∀ t, (k,t) ∈ P.grants s a ↔ grant = some t
  distinct : ∀ s a, ((P.grants s a).map Prod.fst).Nodup
  minted : ∀ s a k, P.row s k = none → P.row (P.act s a) k ≠ none → k ∈ P.mints a
  written : ∀ s k t w, Written accepts t (P.changed s (P.settle s k t w) k) (P.slotAt s k)
    (P.slotAt (P.settle s k t w) k)
  framed : ∀ s k t w k', k' ≠ k → P.row (P.settle s k t w) k' = P.row s k'

/-! ### Runs -/

variable {P} {accepts : Token ω → Slot ω → Prop} {m next : Watched σ κ ω}

theorem Acted.of_grant {cause : Cause} {changed : Bool} {slot slot' : Option (Slot ω)} {t : Token ω}
    (acted : Acted cause changed slot slot' (some t)) :
    slot' = some t.slot ∧ ∃ before, slot = some ⟨false, t.attempt - 1, before⟩ := by
  cases acted with
  | grant => exact ⟨rfl,_,rfl⟩

theorem Written.of_changed {t : Token ω} {slot slot' : Option (Slot ω)}
    (wrote : Written accepts t true slot slot') : ∃ s, slot = some s ∧ s.held = true ∧ accepts t s := by
  cases wrote with
  | settled accepted _ => exact ⟨_,rfl,rfl,accepted⟩

theorem Written.of_slots {t : Token ω} {s s' : Slot ω} (held : s.held = true) (accepted : accepts t s)
    (left : s'.held = false) (back : s.attempt - 1 ≤ s'.attempt) :
    Written accepts t true (some s) (some s') := by
  obtain ⟨_,_,_⟩ := s
  obtain ⟨_,_,_⟩ := s'
  cases held
  cases left
  exact .settled accepted back

omit [DecidableEq κ] in
/-- A write that is one guarded update of its row. -/
theorem Protocol.written_of_update {s s' : σ} {k : κ} {t : Token ω} {guard : ρ → Bool} {set : ρ → ρ}
    (row : P.row s' k = (P.row s k).map fun r => if guard r then set r else r)
    (fires : ∀ r, guard r = true → (P.slot r).held = true ∧ accepts t (P.slot r) ∧
      (P.slot (set r)).held = false ∧ (P.slot r).attempt - 1 ≤ (P.slot (set r)).attempt) :
    Written accepts t (P.changed s s' k) (P.slotAt s k) (P.slotAt s' k) := by
  have missed (same : P.row s' k = P.row s k) :
      Written accepts t (P.changed s s' k) (P.slotAt s k) (P.slotAt s' k) := by
    rw [Protocol.changed_of_eq same, Protocol.slotAt_eq same]
    exact .missed
  cases before : P.row s k with
  | none =>
    rw [before] at row
    exact missed (row.trans before.symm)
  | some r =>
    rw [before, Option.map_some] at row
    by_cases on : guard r = true
    · rw [if_pos on] at row
      obtain ⟨held,accepted,left,back⟩ := fires r on
      have moved : P.row s' k ≠ P.row s k := by
        rw [row, before]
        intro eq
        rw [Option.some.inj eq, held] at left
        cases left
      rw [Protocol.changed_of_ne moved, Protocol.slotAt_eq before, Protocol.slotAt_eq row]
      exact .of_slots held accepted left back
    · rw [if_neg on] at row
      exact missed (row.trans before.symm)

theorem Protocol.mem_observe {s s' : σ} {writer : Option Nat} {cause : Cause}
    {grants : List (κ × Token ω)} {ledger : List (Claim κ ω)} {d : Claim κ ω} :
    d ∈ P.observe s s' writer cause grants ledger ↔
      (∃ n, ∃ c : Claim κ ω, ledger[n]? = some c ∧ d = c.watch (writer = some n) (P.sight s s' cause grants c.key)) ∨
      ∃ g ∈ grants, d = Claim.opened g := by
  simp only [Protocol.observe, List.mem_append, List.mem_mapIdx, List.mem_map]
  constructor
  · rintro (⟨n,bound,rfl⟩ | ⟨g,member,rfl⟩)
    · exact Or.inl ⟨n,ledger[n],List.getElem?_eq_getElem bound,rfl⟩
    · exact Or.inr ⟨g,member,rfl⟩
  · rintro (⟨n,c,at_,rfl⟩ | ⟨g,member,rfl⟩)
    · obtain ⟨bound,rfl⟩ := List.getElem?_eq_some_iff.mp at_
      exact Or.inl ⟨n,bound,rfl⟩
    · exact Or.inr ⟨g,member,rfl⟩

theorem Newest.observe {s s' : σ} {writer : Option Nat} {cause : Cause} {grants : List (κ × Token ω)}
    {ledger : List (Claim κ ω)} (newest : Newest ledger) (distinct : (grants.map Prod.fst).Nodup) :
    Newest (P.observe s s' writer cause grants ledger) := by
  refine List.pairwise_append.mpr ⟨?_,?_,?_⟩
  · rw [List.pairwise_iff_getElem]
    intro i j hi hj less same
    simp only [List.length_mapIdx] at hi hj
    simp only [List.getElem_mapIdx, Claim.watch] at same ⊢
    have old : ledger[i].latest = false := List.pairwise_iff_getElem.mp newest i j hi hj less same
    simp [old]
  · rw [List.pairwise_map]
    exact (List.pairwise_map.mp distinct).imp fun other same => absurd same other
  · intro c older d opened same
    obtain ⟨n,bound,rfl⟩ := List.mem_mapIdx.mp older
    obtain ⟨g,member,rfl⟩ := List.mem_map.mp opened
    have granted : (grants.any fun g => g.1 = ledger[n].key) = true :=
      List.any_eq_true.mpr ⟨g,member,decide_eq_true same.symm⟩
    simp [Claim.watch, Protocol.sight, granted]

theorem Protocol.sight_granted {s s' : σ} {cause : Cause} {grants : List (κ × Token ω)} {k : κ}
    {grant : Option (Token ω)} (granted : ∀ t, (k,t) ∈ grants ↔ grant = some t) :
    P.sight s s' cause grants k =
      ⟨cause, P.changed s s' k, isHeld (P.slotAt s k), isHeld (P.slotAt s' k), grant.isSome⟩ := by
  have any : (grants.any fun g => g.1 = k) = grant.isSome := by
    rw [Bool.eq_iff_iff, List.any_eq_true, Option.isSome_iff_exists]
    constructor
    · rintro ⟨⟨k',t⟩,handed,same⟩
      obtain rfl : k' = k := of_decide_eq_true same
      exact ⟨t,(granted t).mp handed⟩
    · rintro ⟨t,rfl⟩
      exact ⟨(k,t),(granted t).mpr rfl,decide_eq_true rfl⟩
  rw [Protocol.sight, any]

theorem Inv.act (law : Lawful P accepts) (inv : Inv P accepts m) {a : α}
    (fresh : Fresh P m (.act a : Label α β))
    (separate : Separate P (accepted accepts) m (.act a : Label α β)) :
    Inv P accepts ⟨P.act m.store a,
      P.observe m.store (P.act m.store a) none (P.cause a) (P.grants m.store a) m.ledger⟩ := by
  refine ⟨?_,inv.newest.observe (law.distinct m.store a)⟩
  intro d member
  rcases Protocol.mem_observe.mp member with ⟨n,c,at_,rfl⟩ | ⟨g,handed,rfl⟩
  · have member : c ∈ m.ledger := List.mem_of_getElem? at_
    obtain ⟨grant,acted,granted⟩ := law.acted m.store a c.key
    have known (absent : P.slotAt m.store c.key = none) : P.slotAt (P.act m.store a) c.key = none := by
      rw [Protocol.slotAt_eq_none] at absent ⊢
      by_contra present
      exact fresh c.key (law.minted m.store a c.key absent present) c member rfl
    have kept := (inv.sound c member).acted acted known fun t eq unwritten =>
      separate (c.key,t) ((granted t).mpr eq) c member rfl unwritten
    rw [Protocol.sight_granted granted]
    simpa using kept
  · obtain ⟨grant,acted,granted⟩ := law.acted m.store a g.1
    obtain rfl := (granted g.2).mp handed
    have opened : Sound accepts (some g.2.slot) (Claim.opened g) := Sound.opened g
    rwa [← acted.of_grant.1] at opened

/-- A write that changes anything changes the row of its own claim, and that claim is the
most recent one of its key and has been held ever since. -/
theorem Inv.effective (law : Lawful P accepts) (inv : Inv P accepts m) {c : Claim κ ω}
    (member : c ∈ m.ledger) (unwritten : c.written = false) {w : β} {k : κ}
    (effective : P.row (P.settle m.store c.key c.token w) k ≠ P.row m.store k) :
    k = c.key ∧ c.latest = true ∧ c.kept = true := by
  obtain rfl : k = c.key := by
    by_contra other
    exact effective (law.framed m.store c.key c.token w k other)
  have changed : P.changed m.store (P.settle m.store c.key c.token w) c.key = true :=
    decide_eq_true effective.symm
  obtain ⟨s,at_,held,accepted⟩ := (changed ▸ law.written m.store c.key c.token w).of_changed
  exact ⟨rfl,(inv.sound c member).current_of_accepted unwritten at_ held accepted⟩

theorem Inv.write (law : Lawful P accepts) (inv : Inv P accepts m) {n : Nat} {w : β} {writer : Claim κ ω}
    (at_ : m.ledger[n]? = some writer) (unwritten : writer.written = false) :
    Inv P accepts ⟨P.settle m.store writer.key writer.token w,
      P.observe m.store (P.settle m.store writer.key writer.token w) (some n) .plain [] m.ledger⟩ := by
  have listed : writer ∈ m.ledger := List.mem_of_getElem? at_
  refine ⟨?_,inv.newest.observe List.nodup_nil⟩
  intro d member
  rcases Protocol.mem_observe.mp member with ⟨i,c,found,rfl⟩ | ⟨g,handed,_⟩
  · have sound := inv.sound c (List.mem_of_getElem? found)
    by_cases own : n = i
    · obtain rfl : writer = c := Option.some.inj (at_.symm.trans (own ▸ found))
      simpa [own, Protocol.sight] using sound.wrote unwritten (law.written m.store writer.key writer.token w)
    · by_cases same : c.key = writer.key
      · have older (changed : P.changed m.store (P.settle m.store writer.key writer.token w) c.key = true) :
            c.latest = false := by
          obtain ⟨_,latest,_⟩ := inv.effective law listed unwritten (of_decide_eq_true changed).symm
          exact inv.newest.older found at_ own same latest
        have wrote := law.written m.store writer.key writer.token w
        rw [← same] at wrote older
        simpa [own, Protocol.sight, same] using sound.bystander wrote older
      · have still := law.framed m.store writer.key writer.token w c.key same
        have slot : P.slotAt (P.settle m.store writer.key writer.token w) c.key = P.slotAt m.store c.key := by
          simp only [Protocol.slotAt, still]
        simpa [own, Protocol.sight, slot] using
          @Sound.unmoved _ _ _ _ _ sound .plain false _ (Bool.false_and _)
  · cases handed

omit [DecidableEq κ] in
theorem Inv.behind_grant (law : Lawful P accepts) (inv : Inv P accepts m) {a : α} {g : κ × Token ω}
    {c : Claim κ ω} (handed : g ∈ P.grants m.store a) (member : c ∈ m.ledger) (same : c.key = g.1)
    (unwritten : c.written = false) (still : c.revived = false) : c.token.attempt < g.2.attempt := by
  obtain ⟨grant,acted,granted⟩ := law.acted m.store a g.1
  obtain rfl := (granted g.2).mp handed
  obtain ⟨before,slot⟩ := acted.of_grant.2
  have sound := inv.sound c member
  rw [same, slot] at sound
  have low := (sound.behind (sound.not_current rfl) unwritten still _ rfl).1
  simp only at low
  omega

/-- No key is revived. -/
def Steady (P : Protocol σ κ ω ρ α β) : Label α β → Prop
  | .act a => P.cause a ≠ .revival
  | .write _ _ => True

instance : ∀ label : Label α β, Decidable (Steady P label)
  | .act a => inferInstanceAs (Decidable (P.cause a ≠ .revival))
  | .write _ _ => inferInstanceAs (Decidable True)

/-- No revival, no key inserted again, and at most one write for each claim. -/
def Orderly (P : Protocol σ κ ω ρ α β) (m : Watched σ κ ω) (label : Label α β) : Prop :=
  Steady P label ∧ Fresh P m label ∧ FirstWrite m label

instance (m : Watched σ κ ω) (label : Label α β) : Decidable (Orderly P m label) :=
  inferInstanceAs (Decidable (_ ∧ _ ∧ _))

def Unrevived (m : Watched σ κ ω) : Prop := ∀ c ∈ m.ledger, c.revived = false

theorem Unrevived.step {label : Label α β} (still : Unrevived m) (steady : Steady P label)
    (step : P.step m label = some next) : Unrevived next := by
  have kept {s s' : σ} {writer : Option Nat} {cause : Cause} {grants : List (κ × Token ω)}
      (plain : cause ≠ .revival) : ∀ d ∈ P.observe s s' writer cause grants m.ledger, d.revived = false := by
    intro d member
    rcases Protocol.mem_observe.mp member with ⟨n,c,at_,rfl⟩ | ⟨g,_,rfl⟩
    · simp [Claim.watch, still c (List.mem_of_getElem? at_), Protocol.sight, plain]
    · rfl
  cases label with
  | act a =>
    cases step
    exact kept steady
  | write n w =>
    obtain ⟨c,_,rfl⟩ := Option.map_eq_some_iff.mp step
    exact kept (by decide)

/-- Without revivals the counter tells claims apart; what else acceptance looks at must be
kept from clashing when a slot is handed out. -/
theorem Lawful.fenced (law : Lawful P accepts) (clash : Claim κ ω → Token ω → Prop)
    (tells : ∀ c t, accepts c.token t.slot → c.token.attempt = t.attempt ∨ clash c t)
    {s : σ} {trace : List (Label α β)} {final : Watched σ κ ω}
    (run : P.system.run ⟨s, []⟩ trace = some final)
    (along : P.system.Along (fun m label => Orderly P m label ∧ Separate P clash m label) ⟨s, []⟩ trace) :
    Inv P accepts final := by
  refine (Transition.System.invariant _ (fun m => Inv P accepts m ∧ Unrevived m) ?_ run along
    ⟨Inv.start P s,by simp [Unrevived]⟩).1
  rintro m label next ⟨inv,still⟩ ⟨⟨steady,fresh,first⟩,separate⟩ step
  refine ⟨?_,still.step steady step⟩
  cases label with
  | act a =>
    cases step
    refine inv.act law fresh fun g handed c member same unwritten accepted => ?_
    have low := inv.behind_grant law handed member same unwritten (still c member)
    rcases tells c g.2 accepted with equal | clashes
    · omega
    · exact separate g handed c member same unwritten clashes
  | write n w =>
    obtain ⟨c,at_,rfl⟩ := Option.map_eq_some_iff.mp step
    exact inv.write law at_ (first c at_)

/-! ### Revivals -/

/-- Handing nothing out that would accept a write of a claim from before a revival is enough
to keep all such writes without effect, the repeated ones included. -/
theorem Lawful.barred (law : Lawful P accepts) {s : σ} {trace : List (Label α β)} {final : Watched σ κ ω}
    (run : P.system.run ⟨s, []⟩ trace = some final)
    (along : P.system.Along (NoClash P fun c t => c.revived = true ∧ accepts c.token t.slot) ⟨s, []⟩ trace) :
    ∀ c ∈ final.ledger, Barred accepts (P.slotAt final.store c.key) c := by
  refine Transition.System.invariant _ (fun m => ∀ c ∈ m.ledger, Barred accepts (P.slotAt m.store c.key) c)
    ?_ run along (by simp)
  intro m label next barred unrepeated step
  cases label with
  | act a =>
    cases step
    intro d member
    rcases Protocol.mem_observe.mp member with ⟨n,c,at_,rfl⟩ | ⟨g,_,rfl⟩
    · have member := List.mem_of_getElem? at_
      obtain ⟨grant,acted,granted⟩ := law.acted m.store a c.key
      simpa [Protocol.sight] using (barred c member).acted acted fun t eq revived accepted =>
        unrepeated (c.key,t) ((granted t).mpr eq) c member rfl ⟨revived,accepted⟩
    · intro revived
      cases revived
  | write n w =>
    obtain ⟨writer,_,rfl⟩ := Option.map_eq_some_iff.mp step
    intro d member
    rcases Protocol.mem_observe.mp member with ⟨i,c,at_,rfl⟩ | ⟨g,handed,_⟩
    · refine (barred c (List.mem_of_getElem? at_)).written rfl ?_
      by_cases same : c.key = writer.key
      · rw [Claim.watch_key, same]
        exact (law.written m.store writer.key writer.token w).moved
      · left
        simp only [Claim.watch_key, Protocol.slotAt, law.framed m.store writer.key writer.token w c.key same]
    · cases handed

/-- A write that is not accepted leaves every row alone. -/
theorem Lawful.ignored (law : Lawful P accepts) {s : σ} {k : κ} {t : Token ω} {w : β}
    (rejected : ∀ slot, P.slotAt s k = some slot → slot.held = true → ¬accepts t slot) (k' : κ) :
    P.row (P.settle s k t w) k' = P.row s k' := by
  by_cases same : k' = k
  · subst same
    by_contra moved
    have changed : P.changed s (P.settle s k' t w) k' = true := decide_eq_true fun eq => moved eq.symm
    obtain ⟨slot,at_,held,accepted⟩ := (changed ▸ law.written s k' t w).of_changed
    exact rejected slot at_ held accepted
  · exact law.framed s k t w k' same

/-! ### Renewals in a run -/

theorem Lawful.renewable_act (law : Lawful P accepts) {a : α} {c : Claim κ ω}
    (renewable : Renewable (P.slotAt m.store c.key) c)
    (other : ∀ g ∈ P.grants m.store a, g.1 = c.key → g.2.owner ≠ c.token.owner) :
    Renewable (P.slotAt (P.act m.store a) c.key) (c.watch false
      (P.sight m.store (P.act m.store a) (P.cause a) (P.grants m.store a) c.key)) := by
  obtain ⟨grant,acted,granted⟩ := law.acted m.store a c.key
  rw [Protocol.sight_granted granted]
  exact renewable.acted acted fun t eq => other (c.key,t) ((granted t).mpr eq) rfl

theorem Lawful.renewable_write (law : Lawful P accepts) {k : κ} {t : Token ω} {w : β} {own : Bool}
    {c : Claim κ ω} (renewable : Renewable (P.slotAt m.store c.key) c) :
    Renewable (P.slotAt (P.settle m.store k t w) c.key)
      (c.watch own (P.sight m.store (P.settle m.store k t w) .plain [] c.key)) := by
  by_cases same : c.key = k
  · subst same
    exact renewable.written (law.written m.store c.key t w)
  · have still : P.slotAt (P.settle m.store k t w) c.key = P.slotAt m.store c.key := by
      simp only [Protocol.slotAt, law.framed m.store k t w c.key same]
    simp only [Protocol.sight, still]
    exact renewable.unmoved

theorem Protocol.observe_getElem? {s s' : σ} {writer : Option Nat} {cause : Cause}
    {grants : List (κ × Token ω)} {ledger : List (Claim κ ω)} {n : Nat} {d : Claim κ ω}
    (at_ : (P.observe s s' writer cause grants ledger)[n]? = some d) :
    (∃ c, ledger[n]? = some c ∧ d = c.watch (writer = some n) (P.sight s s' cause grants c.key)) ∨
      ledger.length ≤ n ∧ ∃ g ∈ grants, d = Claim.opened g := by
  by_cases old : n < ledger.length
  · rw [Protocol.observe, List.getElem?_append_left (by simpa using old), List.getElem?_mapIdx] at at_
    obtain ⟨c,found,rfl⟩ := Option.map_eq_some_iff.mp at_
    exact Or.inl ⟨c,found,rfl⟩
  · have new : ledger.length ≤ n := by omega
    rw [Protocol.observe, List.getElem?_append_right (by simpa using new), List.getElem?_map] at at_
    obtain ⟨g,found,rfl⟩ := Option.map_eq_some_iff.mp at_
    exact Or.inr ⟨new,g,List.mem_of_getElem? found,rfl⟩

/-- All these claims are renewable. -/
def Renewing (P : Protocol σ κ ω ρ α β) (m : Watched σ κ ω) (hands : List Nat) : Prop :=
  ∀ n ∈ hands, ∀ c, m.ledger[n]? = some c → Renewable (P.slotAt m.store c.key) c

def Protocol.granted (P : Protocol σ κ ω ρ α β) (m : Watched σ κ ω) : Label α β → List (κ × Token ω)
  | .act a => P.grants m.store a
  | .write _ _ => []

/-- Claims stay renewable, and so do the new ones, as long as nothing is handed to an
owner who still has a claim of the same key among them. -/
theorem Lawful.renewing_step (law : Lawful P accepts) {hands : List Nat} (renewing : Renewing P m hands)
    {label : Label α β} (step : P.step m label = some next)
    (other : ∀ g ∈ P.granted m label, ∀ n ∈ hands, ∀ c, m.ledger[n]? = some c → c.key = g.1 →
      c.token.owner ≠ g.2.owner) :
    Renewing P next (hands ++ List.range' m.ledger.length (next.ledger.length - m.ledger.length)) := by
  -- a claim that the ledger had already is in one of the hands, and not among the new numbers
  have old {n : Nat} {c : Claim κ ω} (found : m.ledger[n]? = some c)
      (listed : n ∈ hands ++ List.range' m.ledger.length (next.ledger.length - m.ledger.length)) :
      n ∈ hands := by
    rcases List.mem_append.mp listed with held | new
    · exact held
    · have present := (List.getElem?_eq_some_iff.mp found).1
      have range := List.mem_range'_1.mp new
      omega
  intro n listed d at_
  cases label with
  | act a =>
    cases step
    rcases Protocol.observe_getElem? at_ with ⟨c,found,rfl⟩ | ⟨_,g,handed,rfl⟩
    · have held := old found listed
      have kept := law.renewable_act (renewing n held c found)
        fun g handed same => (other g handed n held c found same.symm).symm
      simpa using kept
    · obtain ⟨grant,acted,granted⟩ := law.acted m.store a g.1
      obtain rfl := (granted g.2).mp handed
      have opened : Renewable (some g.2.slot) (Claim.opened g) := Renewable.opened g
      rwa [← acted.of_grant.1] at opened
  | write i w =>
    obtain ⟨writer,_,rfl⟩ := Option.map_eq_some_iff.mp step
    rcases Protocol.observe_getElem? at_ with ⟨c,found,rfl⟩ | ⟨_,g,handed,_⟩
    · exact law.renewable_write (renewing n (old found listed) c found)
    · cases handed

end

end Lease
