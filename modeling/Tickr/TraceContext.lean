import Tickr.AssocMap
import Tickr.Client
import Tickr.EnginePlan
import Tickr.HeaderCodec
import Tickr.QueueContract

/-! The trace context on its way through the queue. The tracer writes the context of an enqueue
span into the header map of its message. The map is the caller's: several messages of a batch
may have it in common, and the rows of a batch are written when the whole batch has been
prepared. At the other end a batch handler gets one span for all messages of its chunk. -/
namespace Tickr

open AssocMap

/-! ### The tracer -/

/-- A missing key reads as the empty string. -/
def carrierGet (m : Headers) (key : String) : String := (m.lookup key).getD ""

/-- What `Inject` sets for a span, one key after the other, and what `Extract` makes of a carrier
that has it. -/
structure Propagator (Span : Type) where
  fields : Span → Headers
  extract : (String → String) → Option Span
  keyed : ∀ span, Keyed (fields span)
  reads : ∀ span get, (∀ e ∈ fields span, get e.1 = e.2) → extract get = some span

/-- The header maps of a process. Those that are made later lie from `next` on. -/
structure Maps where
  content : Nat → Headers
  next : Nat
  keyed : ∀ ref, Keyed (content ref)

section
variable {Span : Type} (p : Propagator Span) (maps : Maps) (span : Span)

/-- Sets the fields of the span in a map. -/
def Propagator.inject (ref : Nat) : Maps where
  content := fun r => if r = ref then assignAll (maps.content ref) (p.fields span) else maps.content r
  next := maps.next
  keyed := by
    intro r
    split
    · exact (maps.keyed ref).assignAll (p.fields span)
    · exact maps.keyed r

def Maps.make : Maps where
  content := fun r => if r = maps.next then [] else maps.content r
  next := maps.next + 1
  keyed := by
    intro r
    split
    · exact List.nodup_nil
    · exact maps.keyed r

/-- A nil map is replaced by a new one. -/
def Propagator.injectHeaders : Option Nat → Maps × Nat
  | none => (p.inject maps.make span maps.next, maps.next)
  | some ref => (p.inject maps span ref, ref)

/-- The parent that `StartHandlerSpan` finds. -/
def Propagator.parent (headers : Headers) : Option Span := p.extract (carrierGet headers)

/-- The parent of the span that a job runs under: `runHandler` starts it from its message and
`runBatchHandler` from the first one of its chunk. `text` is what the database prints for the
headers of a message. -/
def Propagator.jobParent (text : InboundMessage → List Char) (job : Job) : Option Span :=
  job.msgs.head?.bind fun m => p.parent (decodeHeaders (text m))

variable {p maps span}

theorem Propagator.inject_parent {ref : Nat} : p.parent ((p.inject maps span ref).content ref) = some span := by
  apply p.reads
  intro e member
  simp only [Propagator.inject, if_true, carrierGet]
  rw [(lookup_assignAll (p.keyed span) _).1 e member]
  rfl

theorem Propagator.injectHeaders_parent (maps : Maps) (span : Span) (headers : Option Nat) :
    p.parent ((p.injectHeaders maps span headers).1.content (p.injectHeaders maps span headers).2) = some span := by
  cases headers with
  | none => exact Propagator.inject_parent
  | some ref => exact Propagator.inject_parent

/-- Injection writes to one map, which is the message's or a new one. -/
structure Injected (maps : Maps) (headers : Option Nat) (after : Maps) (ref : Nat) : Prop where
  own : ∀ given, headers = some given → ref = given
  new : headers = none → ref = maps.next
  others : ∀ r, r ≠ ref → r < maps.next → after.content r = maps.content r
  next : maps.next ≤ after.next ∧ (headers = none → ref < after.next)

theorem Propagator.injectHeaders_injected (maps : Maps) (span : Span) (headers : Option Nat) :
    Injected maps headers (p.injectHeaders maps span headers).1 (p.injectHeaders maps span headers).2 := by
  cases headers with
  | none =>
    refine ⟨(fun _ given => nomatch given),fun _ => rfl,fun r other old => ?_,Nat.le_succ _,fun _ => Nat.lt_succ_self _⟩
    exact (if_neg other).trans (if_neg (Nat.ne_of_lt old))
  | some ref =>
    exact ⟨fun _ same => Option.some.inj same,(fun none => nomatch none),fun r other _ => if_neg other,Nat.le_refl _,
      (fun none => nomatch none)⟩

end

/-! ### The client -/

/-- A message whose headers are in the map `headers`, or in none. -/
structure Draft where
  message : Message
  headers : Option Nat

structure TracedClient (Span : Type) where
  client : Client
  propagator : Propagator Span

section
variable {Span : Type} (c : TracedClient Span)

/-- What the storage reads when it encodes the headers. -/
def TracedClient.params (clock : Time) (maps : Maps) (ref : Nat) (d : Draft) : EnqueueParams :=
  { c.client.params clock d.message with headers := maps.content ref }

def TracedClient.enqueue (clock : Time) (span : Span) (maps : Maps) (d : Draft) : Maps × Except ClientError Call :=
  if d.message.type = "" then (maps, .error .typeRequired)
  else
    let (after, ref) := c.propagator.injectHeaders maps span d.headers
    (after, .ok (.enqueue (c.params clock after ref d)))

/-- The loop of `EnqueueBatch` from item `i` on. An item without a type ends it, with the maps of
the items before it written to. -/
def TracedClient.prepare (spans : Nat → Span) : Nat → Maps → List Draft → Maps × Except ClientError (List Nat)
  | _, maps, [] => (maps, .ok [])
  | i, maps, d :: rest =>
    if d.message.type = "" then (maps, .error (.batchTypeRequired i))
    else
      let (after, ref) := c.propagator.injectHeaders maps (spans i) d.headers
      let (final, refs) := TracedClient.prepare spans (i + 1) after rest
      (final, refs.map (ref :: ·))

def TracedClient.enqueueBatch (clock : Nat → Time) (spans : Nat → Span) (maps : Maps) (drafts : List Draft) :
    Maps × Except ClientError (Option Call) :=
  if drafts = [] then (maps, .ok none)
  else
    let (after, refs) := c.prepare spans 0 maps drafts
    (after, refs.map fun refs =>
      some (.enqueueBatch ((drafts.zip refs).mapIdx fun i item => c.params (clock i) after item.2 item.1)))

end

/-- Two messages of a batch have one map. -/
def Shared (drafts : List Draft) (i k : Nat) : Prop :=
  ∃ d d' ref, drafts[i]? = some d ∧ drafts[k]? = some d' ∧ d.headers = some ref ∧ d'.headers = some ref

/-- The last message that has the map of message `i`. -/
def LastShared (drafts : List Draft) (i last : Nat) : Prop :=
  (last = i ∨ i < last ∧ Shared drafts i last) ∧ ∀ k, last < k → ¬Shared drafts i k

theorem Shared.cons {d : Draft} {rest : List Draft} {i k : Nat} : Shared (d :: rest) (i + 1) (k + 1) ↔ Shared rest i k := by
  simp only [Shared, List.getElem?_cons_succ]

theorem LastShared.cons {d : Draft} {rest : List Draft} {i last : Nat} (least : LastShared rest i last) :
    LastShared (d :: rest) (i + 1) (last + 1) := by
  refine ⟨least.1.imp (congrArg (· + 1)) (And.imp Nat.succ_lt_succ Shared.cons.mpr),fun k later shared => ?_⟩
  cases k with
  | zero => exact absurd later (Nat.not_lt_zero _)
  | succ k => exact least.2 k (Nat.lt_of_succ_lt_succ later) (Shared.cons.mp shared)

/-- The first message shares its map with another one, and so with the last one of that. -/
theorem LastShared.head {d d' : Draft} {rest : List Draft} {k last ref : Nat} (at_ : rest[k]? = some d')
    (own : d.headers = some ref) (same : d'.headers = some ref) (least : LastShared rest k last) :
    LastShared (d :: rest) 0 (last + 1) := by
  have with_ {m : Nat} (shared : Shared (d :: rest) 0 (m + 1)) : Shared rest k m := by
    obtain ⟨_,e,r,⟨⟩,found,is,is'⟩ := shared
    cases own.symm.trans is
    exact ⟨d',e,ref,at_,found,same,is'⟩
  refine ⟨Or.inr ⟨Nat.succ_pos _,?_⟩,fun m later shared => ?_⟩
  · rcases least.1 with rfl | ⟨_,_,e,r,here,found,is,is'⟩
    · exact ⟨d,d',ref,rfl,at_,own,same⟩
    · cases at_.symm.trans here
      cases same.symm.trans is
      exact ⟨d,e,ref,rfl,found,own,is'⟩
  · cases m with
    | zero => exact absurd later (Nat.not_lt_zero _)
    | succ m => exact least.2 m (Nat.lt_of_succ_lt_succ later) (with_ shared)

/-- What the loop leaves: the map of each message has the span of the last message that shares
it, and maps that no message has are as before. -/
structure Prepared (p : Propagator Span) (spans : Nat → Span) (first : Nat) (maps : Maps) (drafts : List Draft)
    (final : Maps) (refs : List Nat) : Prop where
  length : refs.length = drafts.length
  each : ∀ (j : Nat) (d : Draft), drafts[j]? = some d → ∃ (ref last : Nat), refs[j]? = some ref ∧
    (∀ given, d.headers = some given → ref = given) ∧ LastShared drafts j last ∧
    p.parent (final.content ref) = some (spans (first + last))
  kept : ∀ r, r < maps.next → (∀ d ∈ drafts, d.headers ≠ some r) → final.content r = maps.content r

section
variable {Span : Type} {c : TracedClient Span} {spans : Nat → Span}

theorem Prepared.step {p : Propagator Span} {d : Draft} {rest : List Draft} {first ref : Nat} {maps after final : Maps}
    {refs : List Nat} (here : ∀ r, d.headers = some r → r < maps.next)
    (others : ∀ d ∈ rest, ∀ r, d.headers = some r → r < maps.next) (injected : Injected maps d.headers after ref)
    (carried : p.parent (after.content ref) = some (spans first))
    (prepared : Prepared p spans (first + 1) after rest final refs) :
    Prepared p spans first maps (d :: rest) final (ref :: refs) := by
  have old : ref < after.next := by
    cases is : d.headers with
    | none => exact injected.next.2 is
    | some given => exact injected.own given is ▸ Nat.lt_of_lt_of_le (here given is) injected.next.1
  have shifted (last : Nat) : first + 1 + last = first + (last + 1) := by omega
  refine ⟨congrArg (· + 1) prepared.length,fun j d' at_ => ?_,fun r known unused => ?_⟩
  · cases j with
    | succ j =>
      obtain ⟨ref',last,found,own,least,carried'⟩ := prepared.each j d' at_
      exact ⟨ref',last + 1,found,own,least.cons,shifted last ▸ carried'⟩
    | zero =>
      cases at_
      by_cases again : ∃ (k : Nat) (d' : Draft), rest[k]? = some d' ∧ d'.headers = some ref
      · -- the map is written to again, by the messages that share it
        obtain ⟨k,d',at_,same⟩ := again
        obtain ⟨ref',last,_,own,least,carried'⟩ := prepared.each k d' at_
        have mine : d.headers = some ref := by
          cases is : d.headers with
          | none =>
            have fresh := injected.new is
            exact absurd (others d' (List.mem_of_getElem? at_) ref same) (by omega)
          | some given => rw [injected.own given is]
        rw [own ref same] at carried'
        exact ⟨ref,last + 1,rfl,injected.own,LastShared.head at_ mine same least,shifted last ▸ carried'⟩
      · have kept := prepared.kept ref old fun d' member same =>
          have ⟨k,at_⟩ := List.mem_iff_getElem?.mp member
          again ⟨k,d',at_,same⟩
        refine ⟨ref,0,rfl,injected.own,⟨Or.inl rfl,fun k later shared => ?_⟩,by rw [kept]; exact carried⟩
        obtain ⟨_,d',r,⟨⟩,at_,is,same⟩ := shared
        cases k with
        | zero => exact absurd later (Nat.lt_irrefl 0)
        | succ k => exact again ⟨k,d',at_,(injected.own r is).symm ▸ same⟩
  · obtain ⟨mine,theirs⟩ := List.forall_mem_cons.mp unused
    have other : r ≠ ref := by
      rintro rfl
      cases is : d.headers with
      | none => exact absurd (injected.new is) (Nat.ne_of_lt known)
      | some given => exact mine (injected.own given is ▸ is)
    exact (prepared.kept r (Nat.lt_of_lt_of_le known injected.next.1) theirs).trans (injected.others r other known)

theorem TracedClient.prepare_prepared {drafts : List Draft} {first : Nat} {maps final : Maps} {refs : List Nat}
    (valid : ∀ d ∈ drafts, ∀ ref, d.headers = some ref → ref < maps.next)
    (done : c.prepare spans first maps drafts = (final, .ok refs)) :
    Prepared c.propagator spans first maps drafts final refs := by
  induction drafts generalizing first maps refs with
  | nil =>
    cases done
    exact ⟨rfl,fun _ _ impossible => (by simp at impossible),fun _ _ _ => rfl⟩
  | cons d rest ih =>
    rw [TracedClient.prepare] at done
    split at done
    · cases done
    · have injected := c.propagator.injectHeaders_injected maps (spans first) d.headers
      have carried := c.propagator.injectHeaders_parent maps (spans first) d.headers
      generalize c.propagator.injectHeaders maps (spans first) d.headers = r at *
      obtain ⟨after,ref⟩ := r
      dsimp only at done injected carried
      cases later : c.prepare spans (first + 1) after rest with
      | mk final' result =>
        rw [later] at done
        cases result with
        | error => cases done
        | ok refs' =>
          cases done
          obtain ⟨here,others⟩ := List.forall_mem_cons.mp valid
          have valid' : ∀ d ∈ rest, ∀ r, d.headers = some r → r < after.next :=
            fun d member r given => Nat.lt_of_lt_of_le (others d member r given) injected.next.1
          exact Prepared.step here others injected carried (ih valid' later)

/-! ### From the producer to the handler -/

/-- The rows of a prepared batch. -/
theorem TracedClient.enqueueBatch_item {clock : Nat → Time} {maps after : Maps} {drafts : List Draft}
    {ps : List EnqueueParams} (valid : ∀ d ∈ drafts, ∀ ref, d.headers = some ref → ref < maps.next)
    (done : c.enqueueBatch clock spans maps drafts = (after, .ok (some (.enqueueBatch ps)))) {i : Nat} {p : EnqueueParams}
    (at_ : ps[i]? = some p) : ∃ last, LastShared drafts i last ∧
      c.propagator.parent p.headers = some (spans last) ∧ Keyed p.headers := by
  rw [TracedClient.enqueueBatch] at done
  split at done
  · cases done
  · cases looped : c.prepare spans 0 maps drafts with
    | mk final result =>
      rw [looped] at done
      cases result with
      | error => cases done
      | ok refs =>
        cases done
        have prepared := TracedClient.prepare_prepared valid looped
        rw [List.getElem?_mapIdx] at at_
        obtain ⟨⟨d,ref⟩,zipped,rfl⟩ := Option.map_eq_some_iff.mp at_
        obtain ⟨drafted,given⟩ := List.getElem?_zip_eq_some.mp zipped
        obtain ⟨ref',last,found,_,least,carried⟩ := prepared.each i d drafted
        cases given.symm.trans found
        rw [Nat.zero_add] at carried
        exact ⟨last,least,carried,after.keyed ref⟩

theorem Propagator.parent_decoded {p : Propagator Span} {h : Headers} (keyed : Keyed h) {text : List Char}
    (printed : Prints (storedMembers h) text) : p.parent (decodeHeaders text) = p.parent h := by
  have same : carrierGet (decodeHeaders text) = carrierGet h := by
    funext key
    rw [carrierGet, carrierGet, lookup_perm (decodeHeaders_prints keyed printed) keyed]
  rw [Propagator.parent, Propagator.parent, same]

theorem LastShared.unique {drafts : List Draft} {i last last' : Nat} (least : LastShared drafts i last)
    (least' : LastShared drafts i last') : last = last' := by
  have bounded {a b : Nat} (first : LastShared drafts i a) (second : LastShared drafts i b) : a ≤ b := by
    by_contra more
    have shared := first.1.resolve_left fun same => by
      have := second.1
      omega
    exact second.2 a (by omega) shared.2
  exact Nat.le_antisymm (bounded least least') (bounded least' least)

theorem LastShared.span_iff {drafts : List Draft} {i last : Nat} (least : LastShared drafts i last)
    (apart : ∀ a b, spans a = spans b → a = b) (j : Nat) :
    some (spans last) = some (spans j) ↔ LastShared drafts i j := by
  constructor
  · intro same
    exact apart last j (Option.some.inj same) ▸ least
  · intro other
    rw [least.unique other]

theorem LastShared.own_iff {drafts : List Draft} {i : Nat} :
    LastShared drafts i i ↔ ∀ k, i < k → ¬Shared drafts i k :=
  ⟨And.right,fun alone => ⟨Or.inl rfl,alone⟩⟩

/-- The job of a single handler is for one message. -/
theorem job_single {r : Registry} {msgs : List InboundMessage} {order : List String} (ranged : Ranged r msgs order)
    {job : Job} (planned : .run job ∈ plan r msgs order) {m : InboundMessage} (first : job.msgs.head? = some m)
    (single : job.reg.batch = false) : job.msgs = [m] := by
  cases plan_planned ranged planned with
  | single => exact congrArg (fun m => [m]) (Option.some.inj first)
  | chunk batch =>
    rw [single] at batch
    cases batch

/-- A job runs under the enqueue span of the last message of the batch that has the header map
of the job's first message. So that message runs under its own span exactly if no later one has
its map, and under a batch handler the others of its chunk run under the same span as it does. -/
theorem handler_parent_span {σ : Type} (q : Queue σ) (c : TracedClient Span) (s : σ) (env : Env) (clock : Nat → Time)
    (spans : Nat → Span) (maps after : Maps) (drafts : List Draft) (ps : List EnqueueParams)
    (valid : ∀ d ∈ drafts, ∀ ref, d.headers = some ref → ref < maps.next)
    (prepared : c.enqueueBatch clock spans maps drafts = (after, .ok (some (.enqueueBatch ps))))
    (ids : ∀ i j, env.newID i = env.newID j → i = j) (i : Nat) (absent : q.entry s (env.newID i) = none)
    (between : List (Env × Call)) (fresh : ∀ step ∈ between, step.1.Avoids (env.newID i))
    (env' : Env) (p' : ClaimParams) (msgs : List InboundMessage)
    (claimed : (q.exec (q.execute (q.exec s env (.enqueueBatch ps)).1 between) env' (.claim p')).2 = .messages msgs)
    (r : Registry) (order : List String) (ranged : Ranged r msgs order) (job : Job)
    (planned : .run job ∈ plan r msgs order) (m : InboundMessage) (first : job.msgs.head? = some m)
    (named : m.id = .uuid (env.newID i)) (text : InboundMessage → List Char)
    (printed : Prints (storedMembers m.headers) (text m)) :
    (∃ last, LastShared drafts i last ∧ c.propagator.jobParent text job = some (spans last)) ∧
    ((∀ a b, spans a = spans b → a = b) →
      (∀ j, c.propagator.jobParent text job = some (spans j) ↔ LastShared drafts i j) ∧
      (c.propagator.jobParent text job = some (spans i) ↔ ∀ k, i < k → ¬Shared drafts i k)) ∧
    (job.reg.batch = false → job.msgs = [m]) := by
  have member : m ∈ msgs := mem_plan planned (List.mem_of_head? first)
  have inserted : ∃ p, ps[i]? = some p ∧
      ∀ e, q.entry (q.exec s env (.enqueueBatch ps)).1 (env.newID i) = some e → e.content = p.content := by
    have move := (q.meets s env (.enqueueBatch ps)).moves (env.newID i)
    have there : q.entry (q.exec s env (.enqueueBatch ps)).1 (env.newID i) ≠ none := fun gone =>
      Queue.absent_unclaimed gone fresh claimed member named
    rw [absent] at move
    generalize q.entry (q.exec s env (.enqueueBatch ps)).1 (env.newID i) = stored at move there
    cases move with
    | same => exact absurd rfl there
    | enqueueBatch drawn at_ =>
      cases ids _ _ drawn
      refine ⟨_,at_,fun e is => ?_⟩
      cases is
      rfl
  obtain ⟨p,at_,content⟩ := inserted
  obtain ⟨last,least,carried,keyed⟩ := TracedClient.enqueueBatch_item valid prepared at_
  have headers : m.headers = p.headers :=
    congrArg Content.headers (Queue.handed_content content fresh claimed member named)
  rw [headers] at printed
  have parent : c.propagator.jobParent text job = some (spans last) := by
    rw [Propagator.jobParent, first, Option.bind_some, Propagator.parent_decoded keyed printed, carried]
  rw [parent]
  refine ⟨⟨last,least,rfl⟩,fun apart => ⟨least.span_iff apart,?_⟩,job_single ranged planned first⟩
  exact (least.span_iff apart i).trans LastShared.own_iff

/-- A message that is enqueued by itself keeps its own span, whatever becomes of its map: the
job that it is the first message of runs under it. -/
theorem single_parent_span {σ : Type} (q : Queue σ) (c : TracedClient Span) (s : σ) (env : Env) (clock : Time) (span : Span)
    (maps after : Maps) (d : Draft) (p : EnqueueParams) (prepared : c.enqueue clock span maps d = (after, .ok (.enqueue p)))
    (m : InboundMessage) (added : (q.exec s env (.enqueue p)).2 = .message (some m) none) (id : Uuid)
    (named : m.id = .uuid id) (between : List (Env × Call)) (fresh : ∀ step ∈ between, step.1.Avoids id)
    (env' : Env) (p' : ClaimParams) (msgs : List InboundMessage)
    (claimed : (q.exec (q.execute (q.exec s env (.enqueue p)).1 between) env' (.claim p')).2 = .messages msgs)
    (r : Registry) (order : List String) (ranged : Ranged r msgs order) (job : Job)
    (planned : .run job ∈ plan r msgs order) (m' : InboundMessage) (first : job.msgs.head? = some m')
    (same : m'.id = .uuid id) (text : InboundMessage → List Char)
    (printed : Prints (storedMembers m'.headers) (text m')) :
    c.propagator.jobParent text job = some span ∧ (job.reg.batch = false → job.msgs = [m']) := by
  have member : m' ∈ msgs := mem_plan planned (List.mem_of_head? first)
  obtain ⟨id',named',_,_,present⟩ := (q.meets s env (.enqueue p)).adds p m rfl added
  cases named.symm.trans named'
  have headers : m'.headers = p.headers := by
    have content : ∀ e, q.entry (q.exec s env (.enqueue p)).1 id = some e → e.content = p.content := by
      intro e found
      cases present.symm.trans found
      rfl
    exact congrArg Content.headers (Queue.handed_content content fresh claimed member same)
  refine ⟨?_,job_single ranged planned first⟩
  rw [TracedClient.enqueue] at prepared
  split at prepared
  · cases prepared
  · cases prepared
    rw [headers] at printed
    rw [Propagator.jobParent, first, Option.bind_some, Propagator.parent_decoded (Maps.keyed _ _) printed]
    exact c.propagator.injectHeaders_parent maps span d.headers

end

/-! ### Two messages with one map -/

/-- The span is its own traceparent. -/
def plainPropagator : Propagator String where
  fields := fun span => [("traceparent", span)]
  extract := fun get => some (get "traceparent")
  keyed := fun _ => List.nodup_singleton _
  reads := fun _ _ all => congrArg some (all _ (List.mem_singleton_self _))

def plainTracer : TracedClient String := ⟨newClient ⟨3, id⟩, plainPropagator⟩

def noMaps : Maps := ⟨fun _ => [], 1, fun _ => List.nodup_nil⟩

def twin : Draft := ⟨⟨"mail", some [], [], "", none, 0⟩, some 0⟩

def twinSpan (i : Nat) : String := if i = 0 then "first" else "second"

/-- The parameters of both: the map was written to twice before it was read. -/
def twinParams : List EnqueueParams :=
  [⟨"mail", some [], [("traceparent", "second")], "", 3, some 5⟩, ⟨"mail", some [], [("traceparent", "second")], "", 3, some 5⟩]

def twinsSent : Mysql.Store .binary :=
  ((mysqlQueue .binary).exec Mysql.Store.empty (Env.quiet 5 7) (.enqueueBatch twinParams)).1

def twinMail (id : Uuid) : InboundMessage :=
  ⟨.uuid id, "mail", [], [("traceparent", "second")], "", 1, 3, 5, 5, "", none⟩

/-- A handler of mail, by the chunk or by the message. -/
def mailHandler (batch : Bool) : Registry := ⟨[("mail", ⟨batch, ⟨10, 0, 0, none⟩⟩)], by simp, by simp⟩

/-- What a database prints that keeps the text as it is. -/
def asWritten (m : InboundMessage) : List Char := encodeHeaders m.headers

/-- The two messages in one chunk. -/
def twinJob : Job := ⟨"mail", ⟨true, ⟨10, 0, 0, none⟩⟩, [twinMail 7, twinMail 8]⟩

/-- The chunk of both messages runs under the span of the second one. -/
theorem handler_parent_span_twins :
    ((mysqlQueue .binary).exec twinsSent (Env.quiet 6 9) (.claim (fetchMail "w"))).2 =
      .messages [twinMail 7, twinMail 8] ∧
    (∃ last, LastShared [twin, twin] 0 last ∧ plainPropagator.jobParent asWritten twinJob = some (twinSpan last)) ∧
    ¬plainPropagator.jobParent asWritten twinJob = some (twinSpan 0) := by
  have claimed : ((mysqlQueue .binary).exec twinsSent (Env.quiet 6 9) (.claim (fetchMail "w"))).2 =
    .messages [twinMail 7, twinMail 8] := rfl
  refine ⟨claimed,(handler_parent_span (mysqlQueue .binary) plainTracer Mysql.Store.empty (Env.quiet 5 7) (fun _ => 5)
    twinSpan noMaps _ [twin, twin] twinParams ?_ rfl (fun _ _ same => Nat.add_left_cancel same) 0 rfl [] ?_ (Env.quiet 6 9)
    (fetchMail "w") _ claimed (mailHandler true) ["mail"] (ranged_of_isPerm (by decide)) twinJob
    (List.mem_singleton_self _) (twinMail 7) rfl rfl asWritten (encodeHeaders_prints _)).1,by decide⟩
  · intro d member ref given
    rw [List.mem_cons, List.mem_singleton, or_self] at member
    subst member
    cases given
    exact Nat.zero_lt_one
  · exact fun _ impossible => absurd impossible List.not_mem_nil

def loneParams : EnqueueParams := ⟨"mail", some [], [("traceparent", "first")], "", 3, some 5⟩

def loneMail (attempt : Int) : InboundMessage :=
  ⟨.uuid 7, "mail", [], [("traceparent", "first")], "", attempt, 3, 5, 5, "", none⟩

def loneJob : Job := ⟨"mail", ⟨false, ⟨10, 0, 0, none⟩⟩, [loneMail 1]⟩

/-- Enqueued by itself, it keeps its own. -/
theorem single_parent_span_lone :
    ((mysqlQueue .binary).exec ((mysqlQueue .binary).exec Mysql.Store.empty (Env.quiet 5 7) (.enqueue loneParams)).1
      (Env.quiet 6 9) (.claim (fetchMail "w"))).2 = .messages [loneMail 1] ∧
    plainPropagator.jobParent asWritten loneJob = some "first" :=
  have claimed : ((mysqlQueue .binary).exec ((mysqlQueue .binary).exec Mysql.Store.empty (Env.quiet 5 7)
      (.enqueue loneParams)).1 (Env.quiet 6 9) (.claim (fetchMail "w"))).2 = .messages [loneMail 1] := rfl
  ⟨claimed,(single_parent_span (mysqlQueue .binary) plainTracer Mysql.Store.empty (Env.quiet 5 7) 5 "first" noMaps _ twin
    loneParams rfl (loneMail 0) rfl 7 rfl [] (fun _ impossible => absurd impossible List.not_mem_nil)
    (Env.quiet 6 9) (fetchMail "w") _ claimed (mailHandler false) [] (ranged_of_isPerm (by decide)) loneJob
    (List.mem_singleton_self _) (loneMail 1) rfl rfl asWritten (encodeHeaders_prints _)).1⟩

end Tickr
