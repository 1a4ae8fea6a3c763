import Tickr.EnginePlan
import Tickr.HandlerResults

/-! Handlers whose payloads are decoded before they run. A payload that does not decode never
will, so the typed registrations turn it into a dead letter; a batch handler does so for the
whole chunk that the payload came with. -/
namespace Tickr

/-- Decoding for one type of bodies. No error of it, nor of the UnmarshalJSON methods that it
calls, is a skip. -/
structure BodyCodec (T : Type) where
  zero : T
  unmarshal : Payload → Except GoError T
  plain : ∀ payload err, unmarshal payload = .error err → isSkip err = false

section
variable {T : Type} (c : BodyCodec T) (shown : MessageID → String)

/-- An empty payload leaves the zero value. -/
def BodyCodec.body (payload : Payload) : Except GoError T :=
  if payload = [] then .ok c.zero else c.unmarshal payload

def BodyCodec.malformed (payload : Payload) : Bool :=
  match c.body payload with
  | .ok _ => false
  | .error _ => true

/-- A handler behind a decoder, which makes `refuse err` of a payload that does not decode. -/
def wrapWith (refuse : GoError → GoError) (h : InboundMessage → T → Behaviour) (m : InboundMessage) : Behaviour :=
  match c.body m.payload with
  | .ok body => h m body
  | .error err => .returns (some (refuse err))

def wrapJSON : (InboundMessage → T → Behaviour) → InboundMessage → Behaviour :=
  wrapWith c fun err => deadLetter (some (.wrap "tickr: decode payload: " err ""))

/-- `Wrap` of codec/json. -/
def Codec.Json.wrap : (InboundMessage → T → Behaviour) → InboundMessage → Behaviour :=
  wrapWith c fun err => .wrap "tickr/codec/json: decode payload: " err ""

/-- `Wrap` of codec/proto. -/
def Codec.Proto.wrap : (InboundMessage → T → Behaviour) → InboundMessage → Behaviour :=
  wrapWith c fun err => .wrap "tickr/codec/proto: decode payload: " err ""

/-- The error of a batch, for the message that did not decode. `shown` prints an id. -/
def batchRefusal (m : InboundMessage) (err : GoError) : GoError :=
  deadLetter (some (.wrap ("tickr: decode payload (msg " ++ shown m.id ++ "): ") err ""))

/-- The loop of `wrapBatchJSON`. -/
def decodeBatch : List InboundMessage → Except GoError (List (InboundMessage × T))
  | [] => .ok []
  | m :: rest =>
    match c.body m.payload with
    | .error err => .error (batchRefusal shown m err)
    | .ok body => (decodeBatch rest).map ((m, body) :: ·)

def wrapBatchJSON (h : List (InboundMessage × T) → Behaviour) (msgs : List InboundMessage) : Behaviour :=
  match decodeBatch c shown msgs with
  | .ok batch => h batch
  | .error err => .returns (some err)

variable {c shown}

theorem BodyCodec.malformed_iff {payload : Payload} : c.malformed payload = true ↔ ∃ err, c.body payload = .error err := by
  unfold BodyCodec.malformed
  split <;> simp_all

theorem BodyCodec.wellformed_iff {payload : Payload} : c.malformed payload = false ↔ ∃ body, c.body payload = .ok body := by
  unfold BodyCodec.malformed
  split <;> simp_all

theorem BodyCodec.body_plain {payload : Payload} {err : GoError} (refused : c.body payload = .error err) :
    isSkip err = false := by
  unfold BodyCodec.body at refused
  split at refused
  · cases refused
  · exact c.plain payload err refused

/-! ### One invocation -/

/-- The first payload that does not decode decides. -/
theorem decodeBatch_refused (shown : MessageID → String) {msgs : List InboundMessage} (bad : msgs.any (fun m => c.malformed m.payload) = true) :
    ∃ before m after err, msgs = before ++ m :: after ∧ (∀ m' ∈ before, c.malformed m'.payload = false) ∧
      c.body m.payload = .error err ∧ decodeBatch c shown msgs = .error (batchRefusal shown m err) := by
  induction msgs with
  | nil => cases bad
  | cons m rest ih =>
    cases decoded : c.body m.payload with
    | error err =>
      refine ⟨[],m,rest,err,rfl,by simp,decoded,?_⟩
      rw [decodeBatch, decoded]
    | ok body =>
      have fine : c.malformed m.payload = false := BodyCodec.wellformed_iff.mpr ⟨body,decoded⟩
      rw [List.any_cons, fine, Bool.false_or] at bad
      obtain ⟨before,m',after,err,rfl,good,refused,result⟩ := ih bad
      refine ⟨m :: before,m',after,err,rfl,List.forall_mem_cons.mpr ⟨fine,good⟩,refused,?_⟩
      rw [decodeBatch, decoded, result]
      rfl

/-- Without one, the handler gets every message with its body, in order. -/
theorem decodeBatch_decoded (shown : MessageID → String) {msgs : List InboundMessage} (good : ∀ m ∈ msgs, c.malformed m.payload = false) :
    ∃ batch, decodeBatch c shown msgs = .ok batch ∧ batch.map Prod.fst = msgs ∧
      ∀ item ∈ batch, c.body item.1.payload = .ok item.2 := by
  induction msgs with
  | nil => exact ⟨[],rfl,rfl,by simp⟩
  | cons m rest ih =>
    obtain ⟨fine,later⟩ := List.forall_mem_cons.mp good
    obtain ⟨body,decoded⟩ := BodyCodec.wellformed_iff.mp fine
    obtain ⟨batch,result,messages,bodies⟩ := ih later
    refine ⟨(m, body) :: batch,?_,congrArg (m :: ·) messages,List.forall_mem_cons.mpr ⟨decoded,bodies⟩⟩
    rw [decodeBatch, decoded, result]
    rfl

theorem batchRefusal_unskipped {m : InboundMessage} {err : GoError} (refused : c.body m.payload = .error err) :
    isSkip (batchRefusal shown m err) = false := by
  rw [← BodyCodec.body_plain refused]
  rfl

theorem batchRefusal_error (m : InboundMessage) (err : GoError) : (batchRefusal shown m err).error =
    "tickr: dead-letter: " ++ ("tickr: decode payload (msg " ++ shown m.id ++ "): " ++ err.error) := by
  change "tickr: dead-letter: " ++ ("tickr: decode payload (msg " ++ shown m.id ++ "): " ++ err.error ++ "") = _
  rw [String.append_empty]

/-- How a typed handler may behave with the messages of a job, around any handler of its bodies. -/
inductive Typed (c : BodyCodec T) (shown : MessageID → String) (job : Job) : Behaviour → Prop where
  | single (h : InboundMessage → T → Behaviour) : job.msgs = [m] → Typed c shown job (wrapJSON c h m)
  | batch (h : List (InboundMessage × T) → Behaviour) : Typed c shown job (wrapBatchJSON c shown h job.msgs)

/-- With a malformed payload among its messages the job comes back as a dead letter, which is no
skip, and the handler is not called. -/
theorem Typed.refused {job : Job} {behaviour : Behaviour} (typed : Typed c shown job behaviour)
    (bad : job.msgs.any (fun m => c.malformed m.payload) = true) :
    ∃ err, job.invoke behaviour = some err ∧ isDeadLetter err = true ∧ isSkip err = false := by
  have invoked (err : GoError) : job.invoke (.returns (some err)) = some err := by
    unfold Job.invoke
    split <;> rfl
  cases typed with
  | @single m h only =>
    rw [only, List.any_cons, List.any_nil, Bool.or_false] at bad
    obtain ⟨err,refused⟩ := BodyCodec.malformed_iff.mp bad
    have came : wrapJSON c h m = .returns (some (deadLetter (some (.wrap "tickr: decode payload: " err "")))) := by
      rw [wrapJSON, wrapWith, refused]
    refine ⟨_,(congrArg job.invoke came).trans (invoked _),rfl,?_⟩
    rw [← BodyCodec.body_plain refused]
    rfl
  | batch h =>
    obtain ⟨_,m,_,err,_,_,refused,result⟩ := decodeBatch_refused shown bad
    refine ⟨batchRefusal shown m err,?_,rfl,batchRefusal_unskipped refused⟩
    rw [wrapBatchJSON, result]
    exact invoked _

end

/-- Behind the codec packages a malformed payload is an error like any other: it is retried
until the attempts are used up. -/
theorem codec_wrap_retried {T : Type} {c : BodyCodec T} {h : InboundMessage → T → Behaviour} {m : InboundMessage}
    {err : GoError} (refused : c.body m.payload = .error err) {job : Job} {batchAcker ctxDone stopping : Bool}
    {workerID : String} {clock : Time} {nextDelay : Duration}
    (calm : ¬((ctxDone && stopping) = true ∧ err.isCanceled = true)) :
    ∀ behaviour ∈ [Codec.Json.wrap c h m, Codec.Proto.wrap c h m], ∃ e p, job.invoke behaviour = some e ∧
      job.concludes batchAcker workerID ctxDone stopping behaviour m clock nextDelay = some (.call (.fail p)) ∧
      (p.dead = true ↔ err.DeadLetters ∨ Exhausted m job.reg.cfg e) := by
  have wrapped (before : String) (behaviour : Behaviour) (is : behaviour = .returns (some (.wrap before err ""))) :
      ∃ e p, job.invoke behaviour = some e ∧
        job.concludes batchAcker workerID ctxDone stopping behaviour m clock nextDelay = some (.call (.fail p)) ∧
        (p.dead = true ↔ err.DeadLetters ∨ Exhausted m job.reg.cfg e) := by
    have came : job.invoke behaviour = some (.wrap before err "") := by
      rw [is, Job.invoke]
      split <;> rfl
    have unskipped : ¬(GoError.wrap before err "").Skips := by
      rw [← isSkip_iff, isSkip, BodyCodec.body_plain refused]
      exact Bool.false_ne_true
    refine ⟨_,_,came,concludes_fail came unskipped ?_,?_⟩
    · rw [← isCanceled_iff]
      exact calm
    · change deadAfter m job.reg.cfg (.wrap before err "") .retry = true ↔ _
      rw [deadAfter_iff, ← isDeadLetter_iff, ← isDeadLetter_iff]
      rfl
  intro behaviour listed
  rcases List.mem_pair.mp listed with rfl | rfl
  · exact wrapped _ _ (by rw [Codec.Json.wrap, wrapWith, refused])
  · exact wrapped _ _ (by rw [Codec.Proto.wrap, wrapWith, refused])

/-! ### One claim -/

/-- The parts that hold a marked element are no longer together than as many parts of full size. -/
theorem marked_parts_length {α : Type} (marked : α → Bool) {size : Nat} {parts : List (List α)}
    (short : ∀ part ∈ parts, part.length ≤ size) :
    (parts.filter fun part => part.any marked).flatten.length ≤ parts.flatten.countP marked * size := by
  induction parts with
  | nil => exact Nat.zero_le _
  | cons part rest ih =>
    obtain ⟨here,later⟩ := List.forall_mem_cons.mp short
    have remaining := ih later
    rw [List.flatten_cons, List.countP_append, Nat.add_mul]
    cases found : part.any marked with
    | false =>
      rw [List.filter_cons, if_neg (by simp [found])]
      exact Nat.le_trans remaining (Nat.le_add_left _ _)
    | true =>
      rw [List.filter_cons, if_pos found, List.flatten_cons, List.length_append]
      have one : 1 ≤ part.countP marked := List.one_le_countP_iff.mpr (List.any_eq_true.mp found)
      have whole : part.length ≤ part.countP marked * size :=
        here.trans (Nat.le_mul_of_pos_left size one)
      omega

section
variable {T : Type} (c : BodyCodec T) (shown : MessageID → String)

/-- The chunks of one event type that a claim is cut into. -/
def chunksOf (r : Registry) (msgs : List InboundMessage) (order : List String) (eventType : String) :
    List (List InboundMessage) :=
  (plan r msgs order).filterMap (Action.chunkOf eventType)

/-- The messages that share a chunk with a malformed payload. -/
def takenAlong (r : Registry) (msgs : List InboundMessage) (order : List String) (eventType : String) :
    List InboundMessage :=
  ((chunksOf r msgs order eventType).filter fun chunk => chunk.any fun m => c.malformed m.payload).flatten

/-- A malformed payload dead-letters the whole chunk that it came with, under its own id and
whatever the attempts of the others; a chunk without one reaches the handler whole, with all
bodies in order. So the malformed payloads of a claim take at most as many chunks of the
largest size with them. -/
theorem malformed_payload_takes_chunk (r : Registry) (msgs : List InboundMessage) (order : List String)
    (perm : order.isPerm (batchTypes r msgs) = true) (eventType : String) (reg : Registration)
    (found : r.lookup eventType = some reg) (batched : reg.batch = true)
    (h : List (InboundMessage × T) → Behaviour) :
    (∀ chunk ∈ chunksOf r msgs order eventType,
      (chunk.any (fun m => c.malformed m.payload) = true →
        ∃ before bad after err, chunk = before ++ bad :: after ∧ (∀ m ∈ before, c.malformed m.payload = false) ∧
          c.body bad.payload = .error err ∧
          ∀ m ∈ chunk, ∀ batchAcker workerID ctxDone stopping clock nextDelay,
            ¬((ctxDone && stopping) = true ∧ err.isCanceled = true) →
            ∃ p, (⟨eventType, reg, chunk⟩ : Job).concludes batchAcker workerID ctxDone stopping
                (wrapBatchJSON c shown h chunk) m clock nextDelay = some (.call (.fail p)) ∧
              p.messageID = m.id ∧ p.attempt = m.attempt ∧ p.dead = true ∧
              p.err = "tickr: dead-letter: " ++ ("tickr: decode payload (msg " ++ shown bad.id ++ "): " ++ err.error)) ∧
      (chunk.any (fun m => c.malformed m.payload) = false →
        ∃ batch, wrapBatchJSON c shown h chunk = h batch ∧ batch.map Prod.fst = chunk ∧
          ∀ item ∈ batch, c.body item.1.payload = .ok item.2)) ∧
    (0 < reg.cfg.maxBatchSize →
      (takenAlong c r msgs order eventType).length ≤
        (ofType eventType msgs).countP (fun m => c.malformed m.payload) * reg.cfg.maxBatchSize.toNat) := by
  have ranged := ranged_of_isPerm perm
  have group : r.batched eventType = true := by rw [Registry.batched, found]; exact batched
  refine ⟨fun chunk listed => ⟨fun bad => ?_,fun good => ?_⟩,fun limited => ?_⟩
  · obtain ⟨before,m,after,err,split_,fine,refused,result⟩ := decodeBatch_refused shown bad
    refine ⟨before,m,after,err,split_,fine,refused,fun m' _ batchAcker workerID ctxDone stopping clock nextDelay calm => ?_⟩
    have came : (⟨eventType, reg, chunk⟩ : Job).invoke (wrapBatchJSON c shown h chunk) =
        some (batchRefusal shown m err) := by
      rw [wrapBatchJSON, result, Job.invoke, if_pos batched]
      rfl
    have unskipped : ¬(batchRefusal shown m err).Skips := by
      rw [← isSkip_iff, batchRefusal_unskipped refused]
      exact Bool.false_ne_true
    refine ⟨_,concludes_fail came unskipped ?_,rfl,rfl,?_,?_⟩
    · rw [← isCanceled_iff]
      exact calm
    · have marked : isDeadLetter (batchRefusal shown m err) = true := rfl
      change deadAfter m' reg.cfg (batchRefusal shown m err) .retry = true
      rw [deadAfter_iff]
      exact Or.inl (isDeadLetter_iff.mp marked)
    · exact batchRefusal_error m err
  · have fine : ∀ m ∈ chunk, c.malformed m.payload = false := by
      intro m member
      exact Bool.eq_false_iff.mpr fun bad => Bool.false_ne_true (good.symm.trans (List.any_eq_true.mpr ⟨m,member,bad⟩))
    obtain ⟨batch,result,messages,bodies⟩ := decodeBatch_decoded shown fine
    refine ⟨batch,?_,messages,bodies⟩
    rw [wrapBatchJSON, result]
  · have whole := plan_chunks ranged group
    rw [← whole]
    apply marked_parts_length
    intro chunk listed
    obtain ⟨action,planned,cut⟩ := List.mem_filterMap.mp listed
    cases plan_planned ranged planned with
    | noHandler => cases cut
    | single _ lookup single =>
      obtain ⟨rfl,_⟩ := Option.ite_none_right_eq_some.mp cut
      cases found.symm.trans lookup
      cases batched.symm.trans single
    | chunk _ chunk =>
      obtain ⟨rfl,is⟩ := Option.ite_none_right_eq_some.mp cut
      cases is
      cases found.symm.trans chunk.registered
      have short := chunk.short limited
      omega

end

/-! ### Three letters, the second of them torn -/

/-- Bodies are the braces of an empty object. -/
def braces : BodyCodec Unit where
  zero := ()
  unmarshal := fun payload => if payload = [123, 125] then .ok () else .error (.text "unexpected end of JSON input")
  plain := by
    intro payload err refused
    split at refused
    · cases refused
    · cases refused
      rfl

def letterBody (id : Uuid) (payload : Payload) : InboundMessage := ⟨.uuid id, "mail", payload, [], "", 1, 3, 5, 0, "", none⟩

/-- Batches of two. -/
def inPairs : Registry := ⟨[("mail", ⟨true, ⟨10, 0, 2, none⟩⟩)], by simp, by simp⟩

def lettersClaimed : List InboundMessage := [letterBody 1 [123, 125], letterBody 2 [123], letterBody 3 []]

theorem malformed_payload_takes_chunk_pair :
    chunksOf inPairs lettersClaimed ["mail"] "mail" =
      [[letterBody 1 [123, 125], letterBody 2 [123]], [letterBody 3 []]] ∧
    (takenAlong braces inPairs lettersClaimed ["mail"] "mail").length ≤ 1 * 2 ∧
    ∃ p, (⟨"mail", ⟨true, ⟨10, 0, 2, none⟩⟩, [letterBody 1 [123, 125], letterBody 2 [123]]⟩ : Job).concludes true "w" false
        false (wrapBatchJSON braces (fun _ => "id") (fun _ => .returns none) [letterBody 1 [123, 125], letterBody 2 [123]])
        (letterBody 1 [123, 125]) 7 1 = some (.call (.fail p)) ∧ p.messageID = .uuid 1 ∧ p.dead = true := by
  have cut : chunksOf inPairs lettersClaimed ["mail"] "mail" =
      [[letterBody 1 [123, 125], letterBody 2 [123]], [letterBody 3 []]] := rfl
  obtain ⟨each,bound⟩ := malformed_payload_takes_chunk braces (fun _ => "id") inPairs lettersClaimed ["mail"] rfl "mail"
    ⟨true, ⟨10, 0, 2, none⟩⟩ rfl rfl fun _ => .returns none
  refine ⟨cut,bound (by decide),?_⟩
  obtain ⟨_,_,_,_,_,_,_,fate⟩ := (each _ (cut ▸ List.mem_cons_self)).1 rfl
  obtain ⟨p,fails,named,_,dead,_⟩ := fate _ List.mem_cons_self true "w" false false 7 1 fun both => Bool.false_ne_true both.1
  exact ⟨p,fails,named,dead⟩

end Tickr
