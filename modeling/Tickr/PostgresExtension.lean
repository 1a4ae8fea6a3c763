import Tickr.PostgresFencing

/-! Lease extension. A worker has a claim in hand from the reply of Claim to the end of
its attempt. While the attempt runs, its extender renews the lease; a renewal names the
message and the worker, and one that finds no row cancels the attempt's context. -/
namespace Tickr.Postgres

open KeyedTable Lease

variable {cfg : Config}

inductive Extender where
  | running
  | ended
  | cancelled
  deriving DecidableEq, Repr

/-- A handler goroutine with its extender. Claims are numbered as in the ledger; a batch
handler has several. -/
structure Attempt where
  claims : List Nat
  extender : Extender
  deriving DecidableEq, Repr

structure Renewals (cfg : Config) where
  watched : Watched (Store cfg) Uuid String
  queued : List Nat
  attempts : List Attempt

def Renewals.start (s : Store cfg) : Renewals cfg := ⟨⟨s, []⟩, [], []⟩

/-- What becomes of a call of Extend. An error leaves open whether its statement ran. -/
inductive Trip where
  | answered
  | unanswered
  | unsent
  deriving DecidableEq, Repr

inductive RenewalLabel where
  | call (label : StorageLabel)
  | launch (claims : List Nat)
  | discard (claims : List Nat)
  | extend (attempt claim : Nat) (env : Env) (until_ : Time) (trip : Trip)
  | finish (attempt : Nat)

/-- What `extendLoop` does with the reply to one call, and `extendBatchLoop` likewise. -/
def extendLoop (trip : Trip) (reply : Except StoreError Bool) : Extender :=
  match trip, reply with
  | .answered, .ok false => .cancelled
  | _, _ => .running

/-- The claims that a step opens are queued for their handlers. -/
def Renewals.follow (st : Renewals cfg) (next : Watched (Store cfg) Uuid String) : Renewals cfg :=
  { st with
    watched := next
    queued := st.queued ++
      List.range' st.watched.ledger.length (next.ledger.length - st.watched.ledger.length) }

def Renewals.step (st : Renewals cfg) : RenewalLabel → Option (Renewals cfg)
  | .call label => ((leases cfg).step st.watched label).map st.follow
  | .launch claims =>
    if ∀ n ∈ claims, n ∈ st.queued then
      some { st with
        queued := st.queued.filter fun n => n ∉ claims
        attempts := st.attempts ++ [⟨claims, .running⟩] }
    else none
  | .discard claims => some { st with queued := st.queued.filter fun n => n ∉ claims }
  | .extend i j env until_ trip => do
    let attempt ← st.attempts[i]?
    let n ← attempt.claims[j]?
    let c ← st.watched.ledger[n]?
    if attempt.extender = .running then
      if trip = .unsent then some st
      else
        let reply := (Postgres.extend st.watched.store env (.uuid c.key) c.token.owner until_).2
        let next ← (leases cfg).step st.watched (.act (env, .extend (.uuid c.key) c.token.owner until_))
        some { st.follow next with
          attempts := st.attempts.set i { attempt with extender := extendLoop trip reply } }
    else none
  | .finish i => do
    let attempt ← st.attempts[i]?
    if attempt.extender = .running then
      some { st with attempts := st.attempts.set i { attempt with extender := .ended } }
    else none

def renewals (cfg : Config) : Transition.System (Renewals cfg) RenewalLabel := ⟨Renewals.step⟩

/-- The claims in hand: queued, or with a running extender. -/
def Renewals.hands (st : Renewals cfg) : List Nat :=
  st.queued ++ (st.attempts.filter fun a => a.extender = .running).flatMap Attempt.claims

def Renewals.granted (st : Renewals cfg) : RenewalLabel → List (Uuid × Token String)
  | .call label => (leases cfg).granted st.watched label
  | _ => []

/-- No worker is handed a message of which it has an earlier claim in hand. -/
def Unrivalled (st : Renewals cfg) (label : RenewalLabel) : Prop :=
  ∀ g ∈ st.granted label, ∀ n ∈ st.hands, ∀ c ∈ st.watched.ledger[n]?, c.key = g.1 →
    c.token.owner ≠ g.2.owner

instance (st : Renewals cfg) (label : RenewalLabel) : Decidable (Unrivalled st label) :=
  inferInstanceAs (Decidable (∀ g ∈ _, ∀ n ∈ _, ∀ c ∈ _, _ → _))

/-! ### What one Extend says -/

theorem extend_reply {s : Store cfg} {env : Env} {id : Uuid} {workerID : String} {until_ : Time} :
    (extend s env (.uuid id) workerID until_).2 = .ok true ↔
      ∃ r, s.row id = some r ∧ r.status = .handling ∧ r.claimedBy = some workerID := by
  simp only [extend, MessageID.parse, Except.ok.injEq, List.any_eq_true]
  constructor
  · rintro ⟨r,member,on⟩
    obtain ⟨named,handling,owner⟩ := owns_iff.mp on
    exact ⟨r,named ▸ Store.row_of_mem member,handling,owner⟩
  · rintro ⟨r,found,handling,owner⟩
    exact ⟨r,Store.row_mem found,owns_iff.mpr ⟨Store.row_id found,handling,owner⟩⟩

theorem extend_row {s : Store cfg} {env : Env} {id : Uuid} {workerID : String} {until_ : Time} (k : Uuid) :
    (extend s env (.uuid id) workerID until_).1.row k =
      (s.row k).map (when (owns id workerID) (extendSet (env.now 0) until_)) :=
  extendSQL_row s.messages (env.now 0) id workerID until_ k

/-- A renewal changes a row only if it reports so, and then the row of its message. -/
theorem extend_effective {s : Store cfg} {env : Env} {id : Uuid} {workerID : String} {until_ : Time} {k : Uuid}
    (moved : (extend s env (.uuid id) workerID until_).1.row k ≠ s.row k) :
    k = id ∧ (extend s env (.uuid id) workerID until_).2 = .ok true := by
  rw [extend_row] at moved
  by_contra idle
  refine moved (map_when_same fun r found => Bool.eq_false_iff.mpr fun on => idle ?_)
  obtain ⟨named,handling,owner⟩ := owns_iff.mp on
  have same : k = id := (Store.row_id found).symm.trans named
  exact ⟨same,extend_reply.mpr ⟨r,same ▸ found,handling,owner⟩⟩

section
variable {s : Store cfg} {c : Claim Uuid String}

/-- For a renewable claim the reply says whether it is the current one. -/
theorem extend_current (renewable : Renewable ((leases cfg).slotAt s c.key) c) (env : Env) (until_ : Time) :
    (extend s env (.uuid c.key) c.token.owner until_).2 = .ok true ↔ c.latest = true ∧ c.kept = true := by
  rw [extend_reply]
  constructor
  · rintro ⟨r,found,handling,owner⟩
    exact renewable.sole (leaseSlot r) (Protocol.slotAt_eq (P := leases cfg) found) (leaseSlot_held handling) owner
  · intro current
    obtain ⟨r,found,slot⟩ := Option.map_eq_some_iff.mp (renewable.carried current)
    simp only [leases, leaseSlot, Token.slot, Slot.mk.injEq, decide_eq_true_eq] at slot
    exact ⟨r,found,slot.1,slot.2.2⟩

theorem extendLoop_current (renewable : Renewable ((leases cfg).slotAt s c.key) c) (env : Env) (until_ : Time) :
    extendLoop .answered (extend s env (.uuid c.key) c.token.owner until_).2 =
      if c.latest && c.kept then .running else .cancelled := by
  have current := extend_current renewable env until_
  simp only [extend, MessageID.parse, Except.ok.injEq] at current ⊢
  cases reply : s.messages.rows.any (owns c.key c.token.owner) with
  | false =>
    have lost : (c.latest && c.kept) = false := by
      rw [reply] at current
      simpa using current
    simp [extendLoop, lost]
  | true =>
    have kept := current.mp reply
    simp [extendLoop, kept.1, kept.2]

end

/-! ### Runs -/

variable {st next : Renewals cfg}

theorem mem_hands {n : Nat} : n ∈ st.hands ↔
    n ∈ st.queued ∨ ∃ a ∈ st.attempts, a.extender = .running ∧ n ∈ a.claims := by
  simp [Renewals.hands, and_assoc]

/-- What one renewal can do. -/
theorem step_extend {i j : Nat} {env : Env} {until_ : Time} {trip : Trip}
    (step : st.step (.extend i j env until_ trip) = some next) :
    ∃ attempt n c, st.attempts[i]? = some attempt ∧ attempt.claims[j]? = some n ∧
      st.watched.ledger[n]? = some c ∧ attempt.extender = .running ∧
      (trip = .unsent ∧ next = st ∨ trip ≠ .unsent ∧ ∃ watched, (leases cfg).step st.watched
          (.act (env, .extend (.uuid c.key) c.token.owner until_)) = some watched ∧
        next = { st.follow watched with attempts := st.attempts.set i { attempt with
          extender := extendLoop trip (extend st.watched.store env (.uuid c.key) c.token.owner until_).2 } }) := by
  simp only [Renewals.step, Option.bind_eq_bind, Option.bind_eq_some_iff] at step
  obtain ⟨attempt,listed,n,named,c,found,step⟩ := step
  refine ⟨attempt,n,c,listed,named,found,?_⟩
  split at step
  · rename_i running
    refine ⟨running,?_⟩
    split at step
    · rename_i unsent
      exact Or.inl ⟨unsent,(Option.some.inj step).symm⟩
    · rename_i sent
      obtain ⟨watched,act,eq⟩ := Option.bind_eq_some_iff.mp step
      exact Or.inr ⟨sent,watched,act,(Option.some.inj eq).symm⟩
  · cases step

/-- Replacing the extender of a running attempt puts no claim in hand. -/
theorem set_extender {attempts : List Attempt} {i : Nat} {attempt a : Attempt} {extender : Extender}
    (listed : attempts[i]? = some attempt) (running : attempt.extender = .running)
    (member : a ∈ attempts.set i { attempt with extender }) (live : a.extender = .running) :
    ∃ b ∈ attempts, b.extender = .running ∧ b.claims = a.claims := by
  rcases List.mem_or_eq_of_mem_set member with old | rfl
  · exact ⟨a,old,live,rfl⟩
  · exact ⟨attempt,List.mem_of_getElem? listed,running,rfl⟩

/-- The claims in hand stay renewable. -/
theorem step_renewing {label : RenewalLabel} (renewing : Renewing (leases cfg) st.watched st.hands)
    (unrivalled : Unrivalled st label) (step : st.step label = some next) :
    Renewing (leases cfg) next.watched next.hands := by
  cases label with
  | call label =>
    obtain ⟨watched,act,rfl⟩ := Option.map_eq_some_iff.mp step
    have grown := leases_lawful.renewing_step renewing act unrivalled
    intro n held
    refine grown n ?_
    simp only [mem_hands, Renewals.follow, List.mem_append] at held ⊢
    rcases held with (queued | new) | running
    · exact Or.inl (Or.inl queued)
    · exact Or.inr new
    · exact Or.inl (Or.inr running)
  | launch claims =>
    simp only [Renewals.step] at step
    split at step
    · rename_i waiting
      cases step
      intro n held
      refine renewing n ?_
      simp only [mem_hands, List.mem_append, List.mem_singleton, List.mem_filter] at held ⊢
      rcases held with queued | ⟨a,old | rfl,running,claimed⟩
      · exact Or.inl queued.1
      · exact Or.inr ⟨a,old,running,claimed⟩
      · exact Or.inl (waiting n claimed)
    · cases step
  | discard claims =>
    cases step
    intro n held
    refine renewing n ?_
    simp only [mem_hands, List.mem_filter] at held ⊢
    exact held.imp_left And.left
  | extend i j env until_ trip =>
    obtain ⟨attempt,n,c,listed,_,_,running,⟨_,rfl⟩ | ⟨_,watched,act,rfl⟩⟩ := step_extend step
    · exact renewing
    · have grown := leases_lawful.renewing_step renewing act (fun g handed => by cases handed)
      intro n held
      refine grown n ?_
      simp only [mem_hands, Renewals.follow, List.mem_append] at held ⊢
      rcases held with (queued | new) | ⟨a,member,live,claimed⟩
      · exact Or.inl (Or.inl queued)
      · exact Or.inr new
      · obtain ⟨b,old,was,same⟩ := set_extender listed running member live
        exact Or.inl (Or.inr ⟨b,old,was,same ▸ claimed⟩)
  | finish i =>
    simp only [Renewals.step, Option.bind_eq_bind, Option.bind_eq_some_iff] at step
    obtain ⟨attempt,listed,step⟩ := step
    split at step
    · rename_i running
      cases step
      intro n held
      refine renewing n ?_
      simp only [mem_hands] at held ⊢
      refine held.imp_right ?_
      rintro ⟨a,member,live,claimed⟩
      obtain ⟨b,old,was,same⟩ := set_extender listed running member live
      exact ⟨b,old,was,same ▸ claimed⟩
    · cases step

theorem run_renewing {s : Store cfg} {trace : List RenewalLabel}
    (run : (renewals cfg).run (Renewals.start s) trace = some st)
    (unrivalled : (renewals cfg).Along Unrivalled (Renewals.start s) trace) :
    Renewing (leases cfg) st.watched st.hands := by
  refine Transition.System.invariant Unrivalled
    (fun st : Renewals cfg => Renewing (leases cfg) st.watched st.hands) ?_ run unrivalled ?_
  · intro st label next renewing condition step
    exact step_renewing renewing condition step
  · intro n held
    cases held

/-- A Claim that hands a worker a message of which it has another claim in hand makes the
renewals of that claim succeed under the new one. -/
theorem rival_renewed {env : Env} {p : ClaimParams}
    (rivalled : ¬Unrivalled st (.call (.act (env, .claim p)))) :
    ∃ n ∈ st.hands, ∃ c, st.watched.ledger[n]? = some c ∧
      ∀ next, st.step (.call (.act (env, .claim p))) = some next →
        (∃ later, next.watched.ledger[n]? = some later ∧ later.token = c.token ∧ later.latest = false) ∧
        ∀ env' until_, (extend next.watched.store env' (.uuid c.key) c.token.owner until_).2 = .ok true ∧
          ((extend next.watched.store env' (.uuid c.key) c.token.owner until_).1.row c.key).map Row.claimedUntil =
            some (some until_) := by
  simp only [Unrivalled, not_forall, not_not] at rivalled
  obtain ⟨g,handed,n,held,c,found,same,owner⟩ := rivalled
  refine ⟨n,held,c,found,?_⟩
  intro next step
  cases step
  obtain ⟨grant,acted,granted⟩ := claim_acted st.watched.store env p g.1
  have handed' : (g.1,g.2) ∈ handedOut p.workerID (claim st.watched.store env p).2 := handed
  obtain rfl := (granted g.2).mp handed'
  obtain ⟨r,row,slot⟩ := Option.map_eq_some_iff.mp acted.of_grant.1
  simp only [leases, leaseSlot, Token.slot, Slot.mk.injEq, decide_eq_true_eq] at slot
  have holder : r.claimedBy = some c.token.owner := slot.2.2.trans (congrArg some owner.symm)
  constructor
  · have present := (List.getElem?_eq_some_iff.mp found).1
    have any : ((leases cfg).grants st.watched.store (env, .claim p)).any (fun g => g.1 = c.key) = true :=
      List.any_eq_true.mpr ⟨g,handed,decide_eq_true same.symm⟩
    refine ⟨c.watch false ((leases cfg).sight st.watched.store (claim st.watched.store env p).1 .plain
      ((leases cfg).grants st.watched.store (env, .claim p)) c.key),?_,rfl,?_⟩
    · simp only [Renewals.follow, Protocol.observe]
      rw [List.getElem?_append_left (by simpa using present), List.getElem?_mapIdx, found]
      rfl
    · simp [Claim.watch, Protocol.sight, any]
  · intro env' until_
    have on : owns c.key c.token.owner r = true :=
      owns_iff.mpr ⟨(Store.row_id row).trans same.symm,slot.1,holder⟩
    refine ⟨extend_reply.mpr ⟨r,same ▸ row,slot.1,holder⟩,?_⟩
    have after : (claim st.watched.store env p).1.row c.key = some r := same ▸ row
    simp only [Renewals.follow]
    rw [extend_row]
    have stored : ((leases cfg).act st.watched.store (env, .claim p)).row c.key = some r := after
    rw [stored, Option.map_some, when, if_pos on]
    rfl

/-- In every run in which no worker is handed a message that it has in hand already, an
Extend for a claim in hand succeeds, and changes a row, exactly while that claim is the
current one of its message; so the first answered renewal after it was superseded cancels
the attempt. A Claim that breaks the condition lets a superseded claim be renewed. -/
theorem lost_lease_detected (s : Store cfg) (trace : List RenewalLabel) (st : Renewals cfg)
    (run : (renewals cfg).run (Renewals.start s) trace = some st)
    (unrivalled : (renewals cfg).Along Unrivalled (Renewals.start s) trace) :
    (∀ n ∈ st.hands, ∀ c, st.watched.ledger[n]? = some c → ∀ env until_,
      ((extend st.watched.store env (.uuid c.key) c.token.owner until_).2 = .ok true ↔
        c.latest = true ∧ c.kept = true) ∧
      ∀ k, (extend st.watched.store env (.uuid c.key) c.token.owner until_).1.row k ≠ st.watched.store.row k →
        k = c.key ∧ c.latest = true ∧ c.kept = true) ∧
    (∀ i j env until_ next, st.step (.extend i j env until_ .answered) = some next →
      ∃ attempt n c, st.attempts[i]? = some attempt ∧ attempt.claims[j]? = some n ∧
        st.watched.ledger[n]? = some c ∧ next.attempts[i]? =
          some { attempt with extender := if c.latest && c.kept then .running else .cancelled }) ∧
    ∀ env p, ¬Unrivalled st (.call (.act (env, .claim p))) → ∃ n ∈ st.hands, ∃ c,
      st.watched.ledger[n]? = some c ∧ ∀ next, st.step (.call (.act (env, .claim p))) = some next →
        (∃ later, next.watched.ledger[n]? = some later ∧ later.token = c.token ∧ later.latest = false) ∧
        ∀ env' until_, (extend next.watched.store env' (.uuid c.key) c.token.owner until_).2 = .ok true ∧
          ((extend next.watched.store env' (.uuid c.key) c.token.owner until_).1.row c.key).map Row.claimedUntil =
            some (some until_) := by
  have renewing := run_renewing run unrivalled
  refine ⟨?_,?_,fun env p rivalled => rival_renewed rivalled⟩
  · intro n held c found env until_
    have current := extend_current (renewing n held c found) env until_
    refine ⟨current,?_⟩
    intro k moved
    obtain ⟨same,reported⟩ := extend_effective moved
    exact ⟨same,current.mp reported⟩
  · intro i j env until_ next step
    obtain ⟨attempt,n,c,listed,named,found,running,⟨impossible,_⟩ | ⟨_,watched,_,rfl⟩⟩ := step_extend step
    · cases impossible
    · have held : n ∈ st.hands :=
        mem_hands.mpr (Or.inr ⟨attempt,List.mem_of_getElem? listed,running,List.mem_of_getElem? named⟩)
      refine ⟨attempt,n,c,listed,named,found,?_⟩
      have bound := (List.getElem?_eq_some_iff.mp listed).1
      rw [List.getElem?_set_self bound, extendLoop_current (renewing n held c found)]

/-- A stalls on its claim with its extender cut off, and loses the lease. -/
def stalledTrace (next : String) : List RenewalLabel :=
  [.call (.act (Env.quiet 5 7, .enqueue (plainParams "mail" 3))),
    .call (.act (Env.quiet 6 0, .claim ⟨"a", 10, 30 * Duration.second, []⟩)),
    .launch [0],
    .extend 0 0 (Env.quiet (20 * Duration.second) 0) (50 * Duration.second) .unsent,
    .call (.act (Env.quiet (40 * Duration.second) 0, .reclaimExpired 500)),
    .call (.act (Env.quiet (41 * Duration.second) 0, .claim ⟨next, 10, 30 * Duration.second, []⟩))]

def renewalTick : RenewalLabel :=
  .extend 0 0 (Env.quiet (42 * Duration.second) 0) (72 * Duration.second) .answered

/-- When A itself has claimed the message again, the extender of its first attempt renews
the lease of the second and goes on. -/
theorem lost_lease_renewed :
    ∃ st next, (renewals ⟨false, .full⟩).run (Renewals.start Store.empty) (stalledTrace "a") = some st ∧
      st.step renewalTick = some next ∧
      st.watched.ledger.map (fun c => (c.token, c.latest)) = [(⟨1, "a"⟩, false), (⟨2, "a"⟩, true)] ∧
      st.watched.store.messages.rows.map Row.claimedUntil = [some (71 * Duration.second)] ∧
      next.watched.store.messages.rows.map Row.claimedUntil = [some (72 * Duration.second)] ∧
      next.attempts = [⟨[0], .running⟩] :=
  ⟨_,_,rfl,rfl,by decide +kernel,by decide +kernel,by decide +kernel,by decide +kernel⟩

theorem lost_lease_detected_other :
    ∃ st next, (renewals ⟨false, .full⟩).run (Renewals.start Store.empty) (stalledTrace "b") = some st ∧
      (renewals ⟨false, .full⟩).Along Unrivalled (Renewals.start Store.empty) (stalledTrace "b") ∧
      st.step renewalTick = some next ∧ next.attempts = [⟨[0], .cancelled⟩] ∧
      ∃ attempt n c, st.attempts[0]? = some attempt ∧ attempt.claims[0]? = some n ∧
        st.watched.ledger[n]? = some c ∧ next.attempts[0]? =
          some { attempt with extender := if c.latest && c.kept then .running else .cancelled } :=
  ⟨_,_,rfl,by decide +kernel,rfl,by decide +kernel,
    (lost_lease_detected Store.empty (stalledTrace "b") _ rfl (by decide +kernel)).2.1 _ _ _ _ _ rfl⟩

end Tickr.Postgres
