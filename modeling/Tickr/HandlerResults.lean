import Tickr.Engine

/-! From what a handler did to the write that ends its attempt. The documented rules speak of
markers anywhere in the error; the code looks for them in two functions, and it asks for a
skip and for a shutdown before it asks for a dead letter. -/
namespace Tickr

/-! ### The tree of an error -/

/-- The errors that `errors.Is` and `errors.As` come by, in their order. -/
def GoError.tree : GoError → List GoError
  | .deadLetter cause => .deadLetter cause :: cause.tree
  | .retryAfter delay cause => .retryAfter delay cause :: cause.tree
  | .wrap before cause after => .wrap before cause after :: cause.tree
  | .join left between right => .join left between right :: (left.tree ++ right.tree)
  | leaf => [leaf]

def GoError.delay? : GoError → Option Duration
  | .retryAfter delay _ => some delay
  | _ => none

def GoError.Skips (err : GoError) : Prop := ∃ reason, .skip reason ∈ err.tree

def GoError.DeadLetters (err : GoError) : Prop := ∃ cause, .deadLetter cause ∈ err.tree

theorem isSkip_iff {err : GoError} : isSkip err = true ↔ err.Skips := by
  unfold GoError.Skips
  induction err with
  | deadLetter cause ih | retryAfter delay cause ih | wrap before cause after ih => simp [isSkip, GoError.tree, ih]
  | join left between right first second => simp [isSkip, GoError.tree, first, second, exists_or]
  | text | canceled | deadlineExceeded | skip => simp [isSkip, GoError.tree]

theorem isDeadLetter_iff {err : GoError} : isDeadLetter err = true ↔ err.DeadLetters := by
  unfold GoError.DeadLetters
  induction err with
  | deadLetter cause => simp [isDeadLetter, GoError.tree]
  | retryAfter delay cause ih | wrap before cause after ih => simp [isDeadLetter, GoError.tree, ih]
  | join left between right first second => simp [isDeadLetter, GoError.tree, first, second, exists_or]
  | text | canceled | deadlineExceeded | skip => simp [isDeadLetter, GoError.tree]

theorem isCanceled_iff {err : GoError} : err.isCanceled = true ↔ .canceled ∈ err.tree := by
  induction err with
  | deadLetter cause ih | retryAfter delay cause ih | wrap before cause after ih =>
    simp [GoError.isCanceled, GoError.tree, ih]
  | join left between right first second => simp [GoError.isCanceled, GoError.tree, first, second]
  | text | canceled | deadlineExceeded | skip => simp [GoError.isCanceled, GoError.tree]

/-- The outermost delay counts, and of a join the left one. -/
theorem extractRetryAfter_eq (err : GoError) : extractRetryAfter err = err.tree.findSome? GoError.delay? := by
  induction err with
  | deadLetter cause ih | wrap before cause after ih => exact ih
  | join left between right first second =>
    rw [extractRetryAfter, first, second, ← List.findSome?_append]
    rfl
  | text | canceled | deadlineExceeded | skip | retryAfter => rfl

/-! ### One attempt -/

def Behaviour.panics : Behaviour → Bool
  | .returns _ => false
  | .panicsError _ | .panicsValue _ => true

/-- The write that ends an attempt: `ctxDone` and `stopping` are what `resolveOutcome` reads,
`clock` and `nextDelay` what `commitOutcome` reads. -/
def Job.concludes (job : Job) (batchAcker : Bool) (workerID : String) (ctxDone stopping : Bool)
    (behaviour : Behaviour) (m : InboundMessage) (clock : Time) (nextDelay : Duration) : Option Commit :=
  commitOutcome batchAcker workerID m job.reg.cfg (job.invoke behaviour) clock nextDelay
    (resolveOutcome ctxDone stopping (job.invoke behaviour))

def Commit.acknowledges : Commit → Bool
  | .ack _ | .call (.succeed _ _ _) => true
  | _ => false

/-- A Fail of the attempt at `m`. -/
def Commit.Fails (m : InboundMessage) (c : Commit) (p : FailParams) : Prop :=
  c = .call (.fail p) ∧ p.messageID = m.id ∧ p.attempt = m.attempt

/-- The attempt has reached its limit, or the registration's predicate gives it up. -/
def Exhausted (m : InboundMessage) (cfg : HandlerConfig) (err : GoError) : Prop :=
  effectiveMaxAttempts m cfg ≤ m.attempt ∨ ∃ pred, cfg.deadLetterIf = some pred ∧ pred err = true

/-- The rules of the handler documentation for a write of an attempt at `m` that came back
with `err`. -/
structure Documented (m : InboundMessage) (cfg : HandlerConfig) (panicked shutdown : Bool) (clock : Time)
    (nextDelay : Duration) (err : Option GoError) (write : Option Commit) : Prop where
  deadLetter : ∀ e, err = some e → e.DeadLetters → ∃ c p, write = some c ∧ c.Fails m p ∧ p.dead = true
  panic : panicked = true → ∀ c, write = some c → c.acknowledges = false
  success : panicked = false → (∀ e, err = some e → e.Skips ∧ ¬e.DeadLetters) →
    ∃ c, write = some c ∧ c.acknowledges = true
  failure : ∀ e, err = some e → ¬e.DeadLetters → (panicked = true ∨ ¬e.Skips) → shutdown = false →
    ∃ c p, write = some c ∧ c.Fails m p ∧ (p.dead = true ↔ Exhausted m cfg e) ∧
      (p.dead = false → p.nextRetryAt = clock + (e.tree.findSome? GoError.delay?).getD nextDelay)

/-- Nothing in the error is looked at before the marker that decides: no dead letter comes
with a skip or, in a shutdown, with a cancellation, and no panic with a skip. -/
def Unmixed (panicked shutdown : Bool) (err : GoError) : Prop :=
  (err.DeadLetters → ¬err.Skips ∧ ¬(shutdown = true ∧ .canceled ∈ err.tree)) ∧ (panicked = true → ¬err.Skips)

/-! ### The three ways that an attempt ends -/

/-- A panic always comes back as an error. -/
theorem invoke_panic {job : Job} {behaviour : Behaviour} (panicked : behaviour.panics = true) :
    ∃ err, job.invoke behaviour = some err := by
  unfold Job.invoke
  cases behaviour with
  | returns => cases panicked
  | panicsError | panicsValue => split <;> exact ⟨_,rfl⟩

theorem deadAfter_iff {m : InboundMessage} {cfg : HandlerConfig} {err : GoError} :
    deadAfter m cfg err .retry = true ↔ err.DeadLetters ∨ Exhausted m cfg err := by
  simp only [deadAfter, Exhausted, reduceCtorEq, decide_false, Bool.false_or, Bool.or_eq_true, isDeadLetter_iff,
    Option.any_eq_true, decide_eq_true_eq, or_assoc]
  exact or_congr_right or_comm

theorem resolveOutcome_skipped {ctxDone stopping : Bool} {result : Option GoError}
    (skipped : ∀ e, result = some e → e.Skips) : resolveOutcome ctxDone stopping result = .success :=
  resolveOutcome_success.mpr fun e came => isSkip_iff.mpr (skipped e came)

theorem resolveOutcome_retry {ctxDone stopping : Bool} {err : GoError} (unskipped : ¬err.Skips)
    (undisturbed : ¬((ctxDone && stopping) = true ∧ .canceled ∈ err.tree)) :
    resolveOutcome ctxDone stopping (some err) = .retry := by
  rw [← isCanceled_iff, Bool.and_eq_true] at undisturbed
  rw [← isSkip_iff] at unskipped
  rw [resolveOutcome, if_neg unskipped, if_neg]
  simp only [Bool.and_eq_true]
  tauto

section
variable {job : Job} {batchAcker ctxDone stopping : Bool} {workerID : String} {behaviour : Behaviour}
  {m : InboundMessage} {clock : Time} {nextDelay : Duration} {err : GoError}

theorem concludes_success (skipped : ∀ e, job.invoke behaviour = some e → e.Skips) :
    ∃ c, job.concludes batchAcker workerID ctxDone stopping behaviour m clock nextDelay = some c ∧
      c.acknowledges = true := by
  rw [Job.concludes, resolveOutcome_skipped skipped]
  cases batchAcker with
  | true => exact ⟨_,rfl,rfl⟩
  | false => exact ⟨_,rfl,rfl⟩

theorem concludes_release (came : job.invoke behaviour = some err) (unskipped : ¬err.Skips)
    (canceled : .canceled ∈ err.tree) (shutdown : (ctxDone && stopping) = true) :
    job.concludes batchAcker workerID ctxDone stopping behaviour m clock nextDelay =
      some (.call (.releaseShutdown m.id m.attempt workerID "worker shutdown")) := by
  rw [Bool.and_eq_true] at shutdown
  have resolved : resolveOutcome ctxDone stopping (some err) = .canceled :=
    resolveOutcome_canceled.mpr ⟨err,rfl,Bool.eq_false_iff.mpr (mt isSkip_iff.mp unskipped),isCanceled_iff.mpr canceled,
      shutdown⟩
  rw [Job.concludes, came, resolved]
  rfl

theorem concludes_fail (came : job.invoke behaviour = some err) (unskipped : ¬err.Skips)
    (undisturbed : ¬((ctxDone && stopping) = true ∧ .canceled ∈ err.tree)) :
    job.concludes batchAcker workerID ctxDone stopping behaviour m clock nextDelay =
      some (.call (.fail (failParams workerID m job.reg.cfg err .retry clock nextDelay))) := by
  rw [Job.concludes, came, resolveOutcome_retry unskipped undisturbed]
  rfl

end

/-! ### The rules -/

/-- The write of an attempt follows the documented rules exactly when the error that came
back is unmixed. -/
theorem results_documented_iff (job : Job) (batchAcker ctxDone stopping : Bool) (workerID : String)
    (behaviour : Behaviour) (m : InboundMessage) (clock : Time) (nextDelay : Duration) :
    Documented m job.reg.cfg behaviour.panics (ctxDone && stopping) clock nextDelay (job.invoke behaviour)
        (job.concludes batchAcker workerID ctxDone stopping behaviour m clock nextDelay) ↔
      ∀ err, job.invoke behaviour = some err → Unmixed behaviour.panics (ctxDone && stopping) err := by
  constructor
  · intro documented err came
    have acknowledged (skips : err.Skips) := @concludes_success job batchAcker ctxDone stopping workerID behaviour m
      clock nextDelay fun e same => Option.some.inj (came.symm.trans same) ▸ skips
    have unskipped (dead : err.DeadLetters) : ¬err.Skips := by
      intro skips
      obtain ⟨c,p,written,⟨rfl,_⟩,_⟩ := documented.deadLetter err came dead
      obtain ⟨c,same,acks⟩ := acknowledged skips
      cases written.symm.trans same
      cases acks
    refine ⟨fun dead => ⟨unskipped dead,?_⟩,?_⟩
    · rintro ⟨shutdown,canceled⟩
      obtain ⟨c,p,written,⟨rfl,_⟩,_⟩ := documented.deadLetter err came dead
      cases written.symm.trans (concludes_release came (unskipped dead) canceled shutdown)
    · intro panicked skips
      obtain ⟨c,written,acks⟩ := acknowledged skips
      rw [documented.panic panicked c written] at acks
      cases acks
  · intro unmixed
    refine ⟨fun err came dead => ?_,fun panicked c written => ?_,fun _ skipped => ?_,
      fun err came alive unskipped outside => ?_⟩
    · obtain ⟨unskipped,undisturbed⟩ := (unmixed err came).1 dead
      exact ⟨_,_,concludes_fail came unskipped undisturbed,⟨rfl,rfl,rfl⟩,deadAfter_iff.mpr (Or.inl dead)⟩
    · obtain ⟨err,came⟩ := invoke_panic panicked
      have unskipped := (unmixed err came).2 panicked
      by_cases disturbed : (ctxDone && stopping) = true ∧ .canceled ∈ err.tree
      · cases written.symm.trans (concludes_release came unskipped disturbed.2 disturbed.1)
        rfl
      · cases written.symm.trans (concludes_fail came unskipped disturbed)
        rfl
    · exact concludes_success fun err came => (skipped err came).1
    · have noSkip : ¬err.Skips := unskipped.elim (unmixed err came).2 id
      refine ⟨_,_,concludes_fail came noSkip ?_,⟨rfl,rfl,rfl⟩,?_,?_⟩
      · rw [outside]
        exact fun disturbed => Bool.false_ne_true disturbed.1
      · exact deadAfter_iff.trans (or_iff_right alive)
      · intro survives
        rw [← extractRetryAfter_eq]
        exact if_neg (Bool.eq_false_iff.mp survives)

/-! ### Three attempts that end otherwise -/

/-- A job with one message on the first of three attempts. -/
def firstOfThree : Job :=
  ⟨"mail", ⟨false, ⟨3, 0, 0, none⟩⟩, [⟨.uuid 7, "mail", [], [], "", 1, 0, 0, 0, "", none⟩]⟩

/-- A handler that panics with a skip is acknowledged, one that returns a skip beside a dead
letter is too, and a dead letter for a cancelled call goes back to the queue when the worker
stops. -/
theorem results_undocumented : ∃ m ∈ firstOfThree.msgs,
    ¬Documented m firstOfThree.reg.cfg true false 5 1 (firstOfThree.invoke (.panicsError (skip "done")))
      (firstOfThree.concludes true "w" false false (.panicsError (skip "done")) m 5 1) ∧
    ¬Documented m firstOfThree.reg.cfg false false 5 1
      (firstOfThree.invoke (.returns (some (join (deadLetter none) (skip "done")))))
      (firstOfThree.concludes true "w" false false (.returns (some (join (deadLetter none) (skip "done")))) m 5 1) ∧
    ¬Documented m firstOfThree.reg.cfg false true 5 1
      (firstOfThree.invoke (.returns (some (deadLetter (some .canceled)))))
      (firstOfThree.concludes true "w" true true (.returns (some (deadLetter (some .canceled)))) m 5 1) := by
  refine ⟨_,List.mem_singleton_self _,fun documented => ?_,fun documented => ?_,fun documented => ?_⟩
  · cases documented.panic rfl _ rfl
  · obtain ⟨c,p,written,⟨rfl,_⟩,_⟩ := documented.deadLetter _ rfl (isDeadLetter_iff.mp rfl)
    cases written
  · obtain ⟨c,p,written,⟨rfl,_⟩,_⟩ := documented.deadLetter _ rfl (isDeadLetter_iff.mp rfl)
    cases written

end Tickr
