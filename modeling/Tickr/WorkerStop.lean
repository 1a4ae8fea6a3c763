import Tickr.Transition

/-! Starting and stopping a worker. The function of a one-shot guard runs in the first call of
Stop that gets to it, and looks whether Start has recorded a cancel function; every other call
waits for it to end and does nothing itself. So a Stop that comes too early uses the shot up. -/
namespace Tickr

open Transition

/-- Where the Start call is that got past the guard. `started` is set from `entered` on,
`cancel` from `recorded` on, and neither is ever reset. -/
inductive StartPhase where
  | idle
  | entered
  | recorded
  | returned
  deriving DecidableEq, Repr

inductive OncePhase where
  | fresh
  | running
  | done
  deriving DecidableEq, Repr

/-- A call of Stop: before the guard, at the start of its function, about to call what it found,
on its way out. -/
inductive StopPhase where
  | called
  | body
  | holding (found : Bool)
  | leaving
  | returned
  deriving DecidableEq, Repr

/-- `overlapped`: the call was under way while a Start had begun and not recorded its cancel
function. `late`: it returned after that function was recorded. -/
structure StopCall where
  phase : StopPhase
  overlapped : Bool
  late : Bool
  deriving DecidableEq, Repr

def StopCall.overlap (c : StopCall) : StopCall := { c with overlapped := c.overlapped || decide (c.phase ≠ .returned) }

structure Worker where
  start : StartPhase
  once : OncePhase
  parentDone : Bool
  cancelled : Bool
  stops : List StopCall
  deriving DecidableEq, Repr

def newWorker : Worker := ⟨.idle, .fresh, false, false, []⟩

def Worker.recorded (w : Worker) : Bool := w.start = .recorded || w.start = .returned

/-- The context that Start derives from its caller's. -/
def Worker.ctxDone (w : Worker) : Bool := w.parentDone || w.cancelled

inductive WorkerLabel where
  | start
  | record
  | parent
  | finish
  | stop
  | advance (i : Nat)
  deriving DecidableEq, Repr

def Worker.put (w : Worker) (i : Nat) (c : StopCall) : Worker := { w with stops := w.stops.set i c }

/-- The next step of a Stop call. -/
def Worker.advance (w : Worker) (i : Nat) (c : StopCall) : Option Worker :=
  match c.phase, w.once with
  | .called, .fresh => some ({ w with once := .running }.put i { c with phase := .body })
  | .called, .running => none
  | .called, .done => some (w.put i { c with phase := .leaving })
  | .body, _ => some (w.put i { c with phase := .holding w.recorded })
  | .holding found, _ =>
    some ({ w with once := .done, cancelled := w.cancelled || found }.put i { c with phase := .leaving })
  | .leaving, _ => some (w.put i { c with phase := .returned, late := w.recorded })
  | .returned, _ => none

/-- A second Start returns an error and changes nothing; the return of the first cancels its
context. -/
def Worker.step (w : Worker) : WorkerLabel → Option Worker
  | .start => some (if w.start = .idle then { w with start := .entered, stops := w.stops.map StopCall.overlap } else w)
  | .record => if w.start = .entered then some { w with start := .recorded } else none
  | .parent => some { w with parentDone := true }
  | .finish => if w.start = .recorded then some { w with start := .returned, cancelled := true } else none
  | .stop => some { w with stops := w.stops ++ [⟨.called, w.start = .entered, false⟩] }
  | .advance i => w.stops[i]?.bind (w.advance i)

def workerSystem : System Worker WorkerLabel := ⟨Worker.step⟩

/-- No stop request is lost: a call that returned after Start had recorded its cancel function,
or that overlapped the beginning of a Start that has recorded it since, leaves the context
cancelled. -/
def StopsKept (w : Worker) : Prop :=
  ∀ c ∈ w.stops, c.phase = .returned → (c.late = true ∨ c.overlapped = true ∧ w.recorded = true) → w.ctxDone = true

instance (w : Worker) : Decidable (StopsKept w) := inferInstanceAs (Decidable (∀ c ∈ _, _ → _ → _))

/-- The guarded function looks for a cancel function only when there is one. -/
def ReadsLate (w : Worker) : WorkerLabel → Prop
  | .advance i => (w.stops[i]?.any fun c => c.phase = .body) = true → w.recorded = true
  | _ => True

instance (w : Worker) : ∀ label, Decidable (ReadsLate w label)
  | .advance _ => inferInstanceAs (Decidable (_ → _))
  | .start | .record | .parent | .finish | .stop => isTrue trivial

/-! ### What one step does -/

/-- One constructor for each thing that a step can do. -/
inductive WorkerStep (w : Worker) : WorkerLabel → Worker → Prop where
  | start : w.start = .idle →
      WorkerStep w .start { w with start := .entered, stops := w.stops.map StopCall.overlap }
  | refused : w.start ≠ .idle → WorkerStep w .start w
  | record : w.start = .entered → WorkerStep w .record { w with start := .recorded }
  | parent : WorkerStep w .parent { w with parentDone := true }
  | finish : w.start = .recorded → WorkerStep w .finish { w with start := .returned, cancelled := true }
  | stop : WorkerStep w .stop { w with stops := w.stops ++ [⟨.called, w.start = .entered, false⟩] }
  | enter : w.stops[i]? = some c → c.phase = .called → w.once = .fresh →
      WorkerStep w (.advance i) ({ w with once := .running }.put i { c with phase := .body })
  | pass : w.stops[i]? = some c → c.phase = .called → w.once = .done →
      WorkerStep w (.advance i) (w.put i { c with phase := .leaving })
  | read : w.stops[i]? = some c → c.phase = .body →
      WorkerStep w (.advance i) (w.put i { c with phase := .holding w.recorded })
  | conclude : w.stops[i]? = some c → c.phase = .holding found →
      WorkerStep w (.advance i)
        ({ w with once := .done, cancelled := w.cancelled || found }.put i { c with phase := .leaving })
  | leave : w.stops[i]? = some c → c.phase = .leaving →
      WorkerStep w (.advance i) (w.put i { c with phase := .returned, late := w.recorded })

theorem Worker.step_cases {w next : Worker} {label : WorkerLabel} (step : w.step label = some next) :
    WorkerStep w label next := by
  cases label with
  | start =>
    cases step
    by_cases idle : w.start = .idle
    · rw [if_pos idle]
      exact .start idle
    · rw [if_neg idle]
      exact .refused idle
  | record =>
    simp only [Worker.step] at step
    split at step
    · cases step
      exact .record ‹_›
    · cases step
  | parent =>
    cases step
    exact .parent
  | finish =>
    simp only [Worker.step] at step
    split at step
    · cases step
      exact .finish ‹_›
    · cases step
  | stop =>
    cases step
    exact .stop
  | advance i =>
    obtain ⟨c,at_,advanced⟩ := Option.bind_eq_some_iff.mp step
    unfold Worker.advance at advanced
    split at advanced
    all_goals cases advanced
    · exact .enter at_ ‹_› ‹_›
    · exact .pass at_ ‹_› ‹_›
    · exact .read at_ ‹_›
    · exact .conclude at_ ‹_›
    · exact .leave at_ ‹_›

section
variable {w : Worker} {property : StopPhase → Prop}

theorem Worker.forall_put {i : Nat} {c : StopCall} (all : ∀ other ∈ w.stops, property other.phase)
    (one : property c.phase) : ∀ other ∈ (w.put i c).stops, property other.phase := by
  intro other listed
  rcases List.mem_or_eq_of_mem_set listed with old | rfl
  · exact all other old
  · exact one

theorem Worker.forall_append {c : StopCall} (all : ∀ other ∈ w.stops, property other.phase)
    (one : property c.phase) : ∀ other ∈ w.stops ++ [c], property other.phase := by
  intro other listed
  rcases List.mem_append.mp listed with old | new
  · exact all other old
  · rw [List.mem_singleton.mp new]
    exact one

theorem Worker.forall_overlap (all : ∀ c ∈ w.stops, property c.phase) :
    ∀ c ∈ w.stops.map StopCall.overlap, property c.phase := by
  intro c listed
  obtain ⟨old,member,rfl⟩ := List.mem_map.mp listed
  exact all old member

end

/-! ### Reads that come late enough -/

/-- A call found the cancel function if it has looked for it, and is not past the guard before
the guarded function has ended. -/
def StopPhase.Sound (once : OncePhase) : StopPhase → Prop
  | .holding found => found = true
  | .leaving | .returned => once = .done
  | .called | .body => True

structure Answered (w : Worker) : Prop where
  done : w.once = .done → w.cancelled = true
  calls : ∀ c ∈ w.stops, c.phase.Sound w.once

theorem newWorker_answered : Answered newWorker :=
  ⟨nofun,nofun⟩

/-- Nothing is past a guard that has not been entered. -/
theorem StopPhase.Sound.entered {phase : StopPhase} {once : OncePhase} (sound : phase.Sound .fresh) :
    phase.Sound once := by
  cases phase with
  | leaving | returned => cases sound
  | called | body | holding found => exact sound

theorem StopPhase.Sound.ended {phase : StopPhase} {once : OncePhase} (sound : phase.Sound once) :
    phase.Sound .done := by
  cases phase with
  | leaving | returned => rfl
  | called | body | holding found => exact sound

theorem Worker.step_answered (w : Worker) (label : WorkerLabel) (next : Worker) (answered : Answered w)
    (late : ReadsLate w label) (step : w.step label = some next) : Answered next := by
  obtain ⟨done,calls⟩ := answered
  cases Worker.step_cases step with
  | start idle => exact ⟨done,Worker.forall_overlap calls⟩
  | refused | record | parent => exact ⟨done,calls⟩
  | finish => exact ⟨fun _ => rfl,calls⟩
  | stop => exact ⟨done,Worker.forall_append calls trivial⟩
  | enter found called fresh =>
    have entered : ∀ c ∈ w.stops, c.phase.Sound .running := by
      intro c listed
      exact (fresh ▸ calls c listed).entered
    exact ⟨nofun,Worker.forall_put entered trivial⟩
  | pass found called ended => exact ⟨done,Worker.forall_put calls ended⟩
  | read found body =>
    have recorded : w.recorded = true := late (by simp [found, body])
    exact ⟨done,Worker.forall_put calls recorded⟩
  | conclude found holding =>
    have sound := calls _ (List.mem_of_getElem? found)
    rw [holding] at sound
    have ended : ∀ c ∈ w.stops, c.phase.Sound .done := fun c listed => (calls c listed).ended
    exact ⟨fun _ => by simp [Worker.put, show _ = true from sound],Worker.forall_put ended rfl⟩
  | leave found leaving =>
    have sound := calls _ (List.mem_of_getElem? found)
    rw [leaving] at sound
    exact ⟨done,Worker.forall_put calls sound⟩

theorem Answered.stopsKept {w : Worker} (answered : Answered w) : StopsKept w := by
  intro c listed returned _
  have sound := answered.calls c listed
  rw [returned] at sound
  rw [Worker.ctxDone, answered.done sound, Bool.or_true]

/-! ### Reads that come too early -/

/-- A call holds a cancel function only when there is one. -/
def StopPhase.Backed (recorded : Bool) (phase : StopPhase) : Prop := phase = .holding true → recorded = true

theorem StopPhase.Backed.empty {recorded : Bool} {phase : StopPhase} (other : phase ≠ .holding true) :
    phase.Backed recorded :=
  fun holding => absurd holding other

/-- Nothing is cancelled, and no call is about to cancel, before there is something to call. -/
structure Backed (w : Worker) : Prop where
  cancelled : w.cancelled = true → w.recorded = true
  calls : ∀ c ∈ w.stops, c.phase.Backed w.recorded

theorem newWorker_backed : Backed newWorker :=
  ⟨nofun,nofun⟩

theorem Worker.step_backed (w : Worker) (label : WorkerLabel) (next : Worker) (backed : Backed w)
    (step : w.step label = some next) : Backed next := by
  obtain ⟨cancelled,calls⟩ := backed
  cases Worker.step_cases step with
  | start idle =>
    have unset : w.recorded = false := by simp [Worker.recorded, idle]
    rw [unset] at cancelled calls
    exact ⟨cancelled,Worker.forall_overlap calls⟩
  | refused | parent => exact ⟨cancelled,calls⟩
  | record | finish => exact ⟨fun _ => rfl,fun _ _ _ => rfl⟩
  | stop => exact ⟨cancelled,Worker.forall_append calls (.empty nofun)⟩
  | enter | pass | leave => exact ⟨cancelled,Worker.forall_put calls (.empty nofun)⟩
  | read => exact ⟨cancelled,Worker.forall_put calls StopPhase.holding.inj⟩
  | @conclude i c value found holding =>
    refine ⟨?_,Worker.forall_put calls (.empty nofun)⟩
    intro called
    rcases (Bool.or_eq_true _ _).mp called with before | rfl
    · exact cancelled before
    · exact calls c (List.mem_of_getElem? found) holding

/-- The call runs the guarded function. -/
def StopPhase.Inside : StopPhase → Prop
  | .body | .holding _ => True
  | .called | .leaving | .returned => False

/-- What the guard is for: at most one call runs its function, and none before or after the
guard's one turn. -/
structure Exclusive (w : Worker) : Prop where
  running : ∀ {i : Nat} {c : StopCall}, w.stops[i]? = some c → c.phase.Inside → w.once = .running
  single : ∀ {i j : Nat} {c d : StopCall}, w.stops[i]? = some c → w.stops[j]? = some d →
    c.phase.Inside → d.phase.Inside → i = j

theorem newWorker_exclusive : Exclusive newWorker :=
  ⟨nofun,nofun⟩

theorem Worker.put_cases {w : Worker} {i j : Nat} {c d : StopCall} (found : (w.put i c).stops[j]? = some d) :
    j = i ∧ d = c ∨ j ≠ i ∧ w.stops[j]? = some d := by
  by_cases same : j = i
  · subst same
    have bound : j < w.stops.length := by
      simpa [Worker.put] using (List.getElem?_eq_some_iff.mp found).1
    rw [Worker.put, List.getElem?_set_self bound] at found
    exact .inl ⟨rfl,(Option.some.inj found).symm⟩
  · rw [Worker.put, List.getElem?_set_ne (Ne.symm same)] at found
    exact .inr ⟨same,found⟩

/-- No call enters the guarded function, and the guard is as it was. -/
theorem Exclusive.of_inside {w next : Worker} (exclusive : Exclusive w) (same : next.once = w.once)
    (old : ∀ {j : Nat} {d : StopCall}, next.stops[j]? = some d → d.phase.Inside →
      ∃ c, w.stops[j]? = some c ∧ c.phase.Inside) : Exclusive next := by
  constructor
  · intro i c found inside
    obtain ⟨c',found,inside⟩ := old found inside
    rw [same]
    exact exclusive.running found inside
  · intro i j c d first second insideFirst insideSecond
    obtain ⟨c',first,insideFirst⟩ := old first insideFirst
    obtain ⟨d',second,insideSecond⟩ := old second insideSecond
    exact exclusive.single first second insideFirst insideSecond

theorem Exclusive.of_put {w : Worker} (exclusive : Exclusive w) {i : Nat} {c d : StopCall}
    (found : w.stops[i]? = some c) (stays : d.phase.Inside → c.phase.Inside) : Exclusive (w.put i d) := by
  refine exclusive.of_inside rfl ?_
  intro j e listed inside
  rcases Worker.put_cases listed with ⟨rfl,rfl⟩ | ⟨_,old⟩
  · exact ⟨c,found,stays inside⟩
  · exact ⟨e,old,inside⟩

theorem Worker.step_exclusive (w : Worker) (label : WorkerLabel) (next : Worker) (exclusive : Exclusive w)
    (step : w.step label = some next) : Exclusive next := by
  cases Worker.step_cases step with
  | start =>
    refine exclusive.of_inside rfl ?_
    intro j d found inside
    obtain ⟨c,old,rfl⟩ := Option.map_eq_some_iff.mp (List.getElem?_map ▸ found)
    exact ⟨c,old,inside⟩
  | refused | record | parent | finish => exact ⟨exclusive.running,exclusive.single⟩
  | stop =>
    refine exclusive.of_inside rfl ?_
    intro j d found inside
    rw [List.getElem?_append] at found
    split at found
    · exact ⟨d,found,inside⟩
    · rw [List.mem_singleton.mp (List.mem_of_getElem? found)] at inside
      exact inside.elim
  | @enter i c found called fresh =>
    have only : ∀ {j : Nat} {d : StopCall},
        ({ w with once := .running }.put i { c with phase := .body }).stops[j]? = some d →
        d.phase.Inside → j = i := by
      intro j d listed inside
      rcases Worker.put_cases listed with ⟨same,_⟩ | ⟨_,old⟩
      · exact same
      · cases fresh.symm.trans (exclusive.running old inside)
    refine ⟨fun _ _ => rfl,?_⟩
    intro j k d e first second insideFirst insideSecond
    rw [only first insideFirst, only second insideSecond]
  | pass found | leave found => exact exclusive.of_put found False.elim
  | read found body => exact exclusive.of_put found fun _ => body ▸ trivial
  | @conclude i c value found holding =>
    -- The one call that was inside leaves.
    have none : ∀ {j : Nat} {d : StopCall},
        ({ w with once := .done, cancelled := w.cancelled || value }.put i { c with phase := .leaving }).stops[j]? = some d →
        ¬d.phase.Inside := by
      intro j d listed inside
      rcases Worker.put_cases listed with ⟨_,rfl⟩ | ⟨different,old⟩
      · exact inside
      · exact different (exclusive.single old found inside (holding ▸ trivial))
    exact ⟨fun listed inside => absurd inside (none listed),fun listed _ inside _ => absurd inside (none listed)⟩

/-- The shot is used up, and nothing has cancelled the context. -/
structure Spent (w : Worker) : Prop extends Exclusive w where
  once : w.once = .done
  live : w.ctxDone = false

/-- A step of a Stop or a Start. -/
def WorkerLabel.Request : WorkerLabel → Prop
  | .parent | .finish => False
  | .start | .record | .stop | .advance _ => True

theorem Worker.step_spent (w : Worker) (label : WorkerLabel) (next : Worker) (spent : Spent w)
    (request : label.Request) (step : w.step label = some next) : Spent next := by
  have exclusive := Worker.step_exclusive w label next spent.toExclusive step
  cases Worker.step_cases step with
  | start | refused | record | stop | pass | read | leave => exact ⟨exclusive,spent.once,spent.live⟩
  | parent | finish => exact request.elim
  | enter _ _ fresh => cases spent.once.symm.trans fresh
  | conclude found holding =>
    -- The guarded function has ended: no call can be about to end it.
    have running := spent.running found (holding ▸ trivial)
    cases spent.once.symm.trans running

/-- Two steps of the call that looks too early use the shot up. -/
theorem Worker.read_early {w : Worker} {i : Nat} {c : StopCall} (exclusive : Exclusive w)
    (found : w.stops[i]? = some c) (body : c.phase = .body) (early : w.recorded = false)
    (live : w.ctxDone = false) :
    ∃ w', workerSystem.run w [.advance i, .advance i] = some w' ∧ Spent w' ∧ w'.recorded = false := by
  have bound := (List.getElem?_eq_some_iff.mp found).1
  have looks : w.step (.advance i) = some (w.put i { c with phase := .holding false }) := by
    rw [Worker.step, found, Option.bind_some, Worker.advance, body]
    dsimp only
    rw [early]
  have ends : (w.put i { c with phase := .holding false }).step (.advance i) =
      some ({ w with once := .done }.put i { c with phase := .leaving }) := by
    rw [Worker.step, Worker.put, List.getElem?_set_self bound, Option.bind_some, Worker.advance]
    simp [Worker.put]
  have run : workerSystem.run w [.advance i, .advance i] =
      some ({ w with once := .done }.put i { c with phase := .leaving }) :=
    System.run_cons.mpr ⟨_,looks,System.run_cons.mpr ⟨_,ends,rfl⟩⟩
  have kept := System.run_invariant Exclusive Worker.step_exclusive run exclusive
  exact ⟨_,run,⟨kept,rfl,live⟩,early⟩

/-- The next Stop then returns with Start's cancel function recorded and not called. -/
theorem Spent.lost {w : Worker} (spent : Spent w) (early : w.recorded = false) :
    ∃ later w', workerSystem.run w later = some w' ∧ ¬StopsKept w' := by
  obtain ⟨start,once,parentDone,cancelled,stops⟩ := w
  obtain rfl : once = .done := spent.once
  have ran : ∃ w', workerSystem.run ⟨start,.done,parentDone,cancelled,stops⟩
      [.start, .record, .stop, .advance stops.length, .advance stops.length] = some w' ∧
      ⟨.returned,false,true⟩ ∈ w'.stops ∧ w'.ctxDone = (parentDone || cancelled) := by
    cases start with
    | idle | entered =>
      simp [workerSystem, System.run, Worker.step, Worker.advance, Worker.put, Worker.ctxDone, Worker.recorded]
    | recorded | returned => cases early
  obtain ⟨w',run,late,live⟩ := ran
  refine ⟨_,w',run,fun kept => ?_⟩
  have cancelled := kept _ late rfl (.inl rfl)
  rw [live] at cancelled
  cases cancelled.symm.trans spent.live

/-- In a run in which the guarded function looks for Start's cancel function only once it is
recorded, no stop request is lost. A call that looks before it is recorded, with the caller's
context alive, can always be run on to a state with a lost request; and whatever calls of Start
and Stop follow, none of them cancels the context. -/
theorem stops_kept_reading_late (trace : List WorkerLabel) (w : Worker)
    (run : workerSystem.run newWorker trace = some w) :
    (workerSystem.Along ReadsLate newWorker trace → StopsKept w) ∧
    ∀ i c, w.stops[i]? = some c → c.phase = .body → w.recorded = false → w.parentDone = false →
      ∃ w', workerSystem.run w [.advance i, .advance i] = some w' ∧
        (∃ later final, workerSystem.run w' later = some final ∧ ¬StopsKept final) ∧
        ∀ later final, (∀ label ∈ later, label.Request) → workerSystem.run w' later = some final →
          final.ctxDone = false := by
  constructor
  · intro late
    exact (System.invariant ReadsLate Answered Worker.step_answered run late newWorker_answered).stopsKept
  · intro i c found body early alive
    have backed := System.run_invariant Backed Worker.step_backed run newWorker_backed
    have exclusive := System.run_invariant Exclusive Worker.step_exclusive run newWorker_exclusive
    have live : w.ctxDone = false := by
      rw [Worker.ctxDone, alive, Bool.false_or, Bool.eq_false_iff]
      intro called
      cases early.symm.trans (backed.cancelled called)
    obtain ⟨w',ran,spent,unset⟩ := Worker.read_early exclusive found body early live
    refine ⟨w',ran,spent.lost unset,?_⟩
    intro later final requests run'
    have stays : Spent final :=
      System.invariant (fun _ label => label.Request) Spent Worker.step_spent run'
        (System.along_labels requests) spent
    exact stays.live

/-- Start and then Stop, whose call finds the cancel function; and a Stop before any Start, after
which neither Start nor Stop can cancel. -/
theorem stops_kept_reading_late_both :
    (workerSystem.run newWorker [.start, .record, .stop, .advance 0, .advance 0, .advance 0, .advance 0] =
        some ⟨.recorded, .done, false, true, [⟨.returned, false, true⟩]⟩ ∧
      StopsKept ⟨.recorded, .done, false, true, [⟨.returned, false, true⟩]⟩) ∧
    ∃ w, workerSystem.run ⟨.idle, .running, false, false, [⟨.body, false, false⟩]⟩ [.advance 0, .advance 0] = some w ∧
      ∀ later final, (∀ label ∈ later, label.Request) → workerSystem.run w later = some final →
        final.ctxDone = false := by
  constructor
  · have run : workerSystem.run newWorker
        [.start, .record, .stop, .advance 0, .advance 0, .advance 0, .advance 0] =
        some ⟨.recorded, .done, false, true, [⟨.returned, false, true⟩]⟩ := rfl
    exact ⟨run,(stops_kept_reading_late _ _ run).1 (by decide)⟩
  · obtain ⟨w,ran,_,never⟩ := (stops_kept_reading_late [.stop, .advance 0] _ rfl).2 0 _ rfl rfl rfl rfl
    exact ⟨w,ran,never⟩

/-- A Stop before Start uses the shot up: a second one, after Start has recorded its cancel
function, returns with the worker's context alive. A Stop between Start's entry and that moment
returns, and Start goes on with a live context. -/
theorem stop_lost :
    (workerSystem.run newWorker [.stop, .advance 0, .advance 0, .advance 0, .advance 0, .start, .record,
          .stop, .advance 1, .advance 1] =
        some ⟨.recorded, .done, false, false, [⟨.returned, false, false⟩, ⟨.returned, false, true⟩]⟩ ∧
      ¬StopsKept ⟨.recorded, .done, false, false, [⟨.returned, false, false⟩, ⟨.returned, false, true⟩]⟩) ∧
    workerSystem.run newWorker [.start, .stop, .advance 0, .advance 0, .advance 0, .advance 0, .record] =
        some ⟨.recorded, .done, false, false, [⟨.returned, true, false⟩]⟩ ∧
      ¬StopsKept ⟨.recorded, .done, false, false, [⟨.returned, true, false⟩]⟩ := by
  decide

end Tickr
