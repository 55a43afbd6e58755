import Implementers.Proofs.FanIn.Outcome

namespace Implementers.FanIn

/-!
# No failure is swallowed or invented

A run is followed together with the actions taken on the way.  In every state of it the failures of
the units whose resolution has ended are, each once, those that the collector has received, those in
the channel and those that workers still have to report; and as many workers have panicked as units.
When a run has ended nothing is on its way any more, so its verdict tells what went wrong in it.
-/

/-- A run to a state together with the actions on the way and the states in which they were taken. -/
inductive Traced
    (setup : Setup U S E)
    (start : State U S E) :
    List (State U S E × Action) → State U S E → Prop where
  | here : Traced setup start [] start
  | next
      {trace : List (State U S E × Action)}
      {before after : State U S E}
      {action : Action}
      (earlier : Traced setup start trace before)
      (step : Step setup action before after) :
      Traced setup start (trace ++ [(before, action)]) after

/-- The failure that the collector receives with an action, if there is one. -/
def receivedBy
    (before : State U S E) :
    Action → List E
  | .receiveError => before.errors.take 1
  | _ => []

namespace Trace

/-- The units whose resolution ends in a run, in order. -/
def resolved
    (trace : List (State U S E × Action)) :
    List U :=
  trace.flatMap fun entry => resolvedBy entry.1 entry.2

/-- The failures that the collector receives in a run, in order. -/
def received
    (trace : List (State U S E × Action)) :
    List E :=
  trace.flatMap fun entry => receivedBy entry.1 entry.2

/-- Whether the caller cancels a run. -/
def cancels
    (trace : List (State U S E × Action)) :
    Bool :=
  trace.any fun entry => entry.2 = .cancel

/-- The actions and their states, and the last state, of actions enabled one after the other. -/
def follow?
    (setup : Setup U S E)
    (state : State U S E) :
    List Action → Option (List (State U S E × Action) × State U S E)
  | [] => some ([], state)
  | action :: rest =>
      match step? setup action state with
      | none => none
      | some next =>
          (follow? setup next rest).map fun followed => ((state, action) :: followed.1, followed.2)

end Trace

namespace Traced

variable
  {setup : Setup U S E}
  {start state final : State U S E}
  {trace : List (State U S E × Action)}

/-- A run with its actions is a run with the units whose resolution ends in it. -/
theorem logged
    (traced : Traced setup start trace state) :
    Logged setup start (Trace.resolved trace) state := by
  induction traced with
  | here => exact .here
  | next _ step inductionHypothesis =>
      simpa [Trace.resolved] using inductionHypothesis.next step

/-- Following actions that are enabled one after the other is a run. -/
theorem follow
    {more : List (State U S E × Action)}
    (traced : Traced setup start trace state)
    (actions : List Action)
    (followed : Trace.follow? setup state actions = some (more, final)) :
    Traced setup start (trace ++ more) final := by
  induction actions generalizing trace state more with
  | nil =>
      cases followed
      simpa using traced
  | cons action rest inductionHypothesis =>
      unfold Trace.follow? at followed
      split at followed
      case h_1 => cases followed
      case h_2 next step =>
        obtain ⟨⟨later, last⟩, goesOn, isMore⟩ := Option.map_eq_some_iff.mp followed
        cases isMore
        simpa using inductionHypothesis (traced.next step) goesOn

/-- Nothing but the caller's own action cancels a run from outside. -/
theorem cancelled_eq
    (traced : Traced setup start trace state) :
    state.cancelled = (start.cancelled || Trace.cancels trace) := by
  induction traced with
  | here => simp [Trace.cancels]
  | @next trace before after action _ step inductionHypothesis =>
      have grown :
          Trace.cancels (trace ++ [(before, action)]) =
            (Trace.cancels trace || decide (action = .cancel)) := by
        simp [Trace.cancels]
      rw [grown, ← Bool.or_assoc, ← inductionHypothesis]
      cases step.move with
      | work present works => cases works <;> simp [State.setWorker]
      | _ => simp

end Traced

/-! ## Where the failures are -/

/-- The failure with which the resolution of a unit ends, if it ends with one. -/
def Setup.failure?
    (setup : Setup U S E)
    (unit : U) :
    Option E :=
  match setup.produce unit with
  | .failed error => some error
  | _ => none

/-- Whether the resolution of a unit ends with a panic. -/
def Setup.panics
    (setup : Setup U S E)
    (unit : U) :
    Bool :=
  match setup.produce unit with
  | .panicked => true
  | _ => false

/-- The failures and panics of resolved units are those that have shown or are still to show. -/
structure Accounted
    (setup : Setup U S E)
    (resolved : List U)
    (received : List E)
    (state : State U S E) :
    Prop where
  failures :
    (resolved.filterMap setup.failure?).Perm
      (received ++ (state.errors ++ state.workers.flatMap Worker.unreported))
  panics : resolved.countP setup.panics = state.workers.countP Worker.hasPanicked
  first : state.firstError = received.head?

namespace Accounted

/-- At the beginning nothing has failed. -/
theorem initial
    (setup : Setup U S E)
    (workers : Nat)
    (cancelled : Bool)
    (units : List U) :
    Accounted setup [] [] (State.initial workers cancelled units) where
  failures := by
    have nothing :
        (List.replicate workers (.idle : Worker U S E)).flatMap Worker.unreported = [] := by
      simp [List.flatMap_eq_nil_iff, Worker.unreported]
    simp [State.initial, nothing]
  panics := by
    have nobody : (.idle : Worker U S E).hasPanicked = false := rfl
    simp [State.initial, List.countP_replicate, nobody]
  first := rfl

/--
A worker that moves keeps its failures to itself or passes them on, and those that are new are the
failures of the unit whose resolution it ends.
-/
theorem works
    {setup : Setup U S E}
    {resolved : List U}
    {received : List E}
    {state shared : State U S E}
    {worker next : Worker U S E}
    {others : List (Worker U S E)}
    (accounted : Accounted setup resolved received { state with workers := worker :: others })
    (works : Works setup state worker shared next)
    (isOpen : state.errorsOpen) :
    Accounted setup (resolved ++ worker.resolving) received
      { shared with workers := next :: others } := by
  obtain ⟨failures, panics, first⟩ := accounted
  -- Only a worker that ends the resolution of a unit adds to what is to be accounted for.
  have unresolved (quiet : worker.resolving = []) : resolved ++ worker.resolving = resolved := by
    rw [quiet, List.append_nil]
  cases works with
  | leave | skip | start | finish | hangUp | stop | take | send =>
      rw [unresolved rfl]
      exact ⟨by simpa [Worker.unreported] using failures,
        by simpa [Worker.hasPanicked] using panics, first⟩
  | @produce unit symbols outcome =>
      exact
        ⟨by simpa [Worker.resolving, Worker.unreported, Setup.failure?, outcome] using failures,
          by simpa [Worker.resolving, Worker.hasPanicked, Setup.panics, outcome] using panics, first⟩
  | @fail unit error outcome =>
      refine ⟨?_, by simpa [Worker.resolving, Worker.hasPanicked, Setup.panics, outcome] using panics,
        first⟩
      have reported : (Worker.producing unit : Worker U S E).unreported = [] := rfl
      simp only [List.flatMap_cons, reported, List.nil_append] at failures
      simp only [Worker.resolving, List.filterMap_append, List.filterMap_cons, List.filterMap_nil,
        Setup.failure?, outcome, List.flatMap_cons, Worker.unreported, List.singleton_append]
      calc
        (resolved.filterMap setup.failure? ++ [error]).Perm
            (error :: resolved.filterMap setup.failure?) := List.perm_append_singleton _ _
        List.Perm _
            (error :: (received ++ (state.errors ++ others.flatMap Worker.unreported))) :=
          failures.cons error
        List.Perm _
            (received ++ (error :: (state.errors ++ others.flatMap Worker.unreported))) :=
          List.perm_middle.symm
        List.Perm _
            (received ++ (state.errors ++ error :: others.flatMap Worker.unreported)) :=
          List.perm_middle.symm.append_left received
  | @panic unit outcome =>
      refine ⟨by simpa [Worker.resolving, Worker.unreported, Setup.failure?, outcome] using failures,
        ?_, first⟩
      have sane : (Worker.producing unit : Worker U S E).hasPanicked = false := rfl
      have panicked : (Worker.panicked : Worker U S E).hasPanicked = true := rfl
      simp only [List.countP_cons, sane, Bool.false_eq_true, ↓reduceIte, Nat.add_zero] at panics
      simp [Worker.resolving, Setup.panics, outcome, panicked, panics]
  | forget closed => simp [isOpen] at closed
  | @report error _ room =>
      rw [unresolved rfl]
      refine ⟨?_, by simpa [Worker.hasPanicked] using panics, first⟩
      simpa [Worker.unreported] using failures

/-- The places of the workers do not matter. -/
theorem of_perm
    {setup : Setup U S E}
    {resolved : List U}
    {received : List E}
    {state : State U S E}
    {workers : List (Worker U S E)}
    (accounted : Accounted setup resolved received state)
    (same : state.workers.Perm workers) :
    Accounted setup resolved received { state with workers } where
  failures :=
    accounted.failures.trans
      (((same.flatMap_right Worker.unreported).append_left state.errors).append_left received)
  panics := accounted.panics.trans (same.countP_eq Worker.hasPanicked)
  first := accounted.first

/-- Every move keeps account of the failures and panics. -/
theorem move
    {setup : Setup U S E}
    {workers : Nat}
    {resolved : List U}
    {received : List E}
    {action : Action}
    {before after : State U S E}
    (accounted : Accounted setup resolved received before)
    (consistent : Consistent workers before)
    (move : Move setup before action after) :
    Accounted setup (resolved ++ resolvedBy before action) (received ++ receivedBy before action)
      after := by
  cases move with
  | @receiveError error rest released isOpen queued =>
      obtain ⟨failures, panics, first⟩ := accounted
      refine ⟨by simpa [resolvedBy, receivedBy, queued] using failures,
        by simpa [resolvedBy] using panics, ?_⟩
      cases received <;> simp [first, receivedBy, queued]
  | @work index worker next shared present works =>
      have member := List.mem_of_getElem? present
      obtain ⟨others, permBefore, permAfter⟩ := exists_perm_set present
      have entries : (next :: others).Perm (shared.setWorker index next).workers := by
        simpa only [State.setWorker, works.workers] using (permAfter next).symm
      have moved :=
        (accounted.of_perm permBefore).works works (consistent.isOpen member works.hasLeft).2
      have placed :
          Accounted setup (resolved ++ worker.resolving) received (shared.setWorker index next) :=
        moved.of_perm entries
      simpa [resolvedBy, receivedBy, present] using placed
  | _ => simpa [resolvedBy, receivedBy] using { accounted with }

end Accounted

/-- The failures and panics of a run are accounted for in every state of it. -/
theorem Traced.accounted
    {setup : Setup U S E}
    {workers : Nat}
    {cancelled : Bool}
    {units : List U}
    {trace : List (State U S E × Action)}
    {state : State U S E}
    (traced : Traced setup (.initial workers cancelled units) trace state) :
    Accounted setup (Trace.resolved trace) (Trace.received trace) state := by
  induction traced with
  | here => exact .initial setup workers cancelled units
  | next earlier step inductionHypothesis =>
      have consistent :=
        (Consistent.initial workers cancelled units).reached earlier.logged.reaches
      simpa [Trace.resolved, Trace.received] using inductionHypothesis.move consistent step.move

/-! ## What the verdict tells -/

/-- What the verdict on a run tells about the run. -/
structure Told
    (setup : Setup U S E)
    (units : List U)
    (trace : List (State U S E × Action))
    (state : State U S E) :
    Prop where
  /-- Only units of the run are resolved. -/
  known : ∀ unit ∈ Trace.resolved trace, unit ∈ units
  /-- Every failure of a unit arrives once, and nothing else arrives. -/
  received : (Trace.received trace).Perm ((Trace.resolved trace).filterMap setup.failure?)
  panicked : state.verdict = .panicked ↔ .panicked ∈ state.workers
  panics :
    .panicked ∈ state.workers ↔ ∃ unit ∈ Trace.resolved trace, setup.produce unit = .panicked
  failed :
    .panicked ∉ state.workers →
      ((∃ error, state.verdict = .failed error) ↔
        ∃ unit ∈ Trace.resolved trace, ∃ error, setup.produce unit = .failed error)
  /-- The failure that is told is the first one that arrived. -/
  first :
    ∀ error, state.verdict = .failed error →
      (Trace.received trace).head? = some error ∧
        ∃ unit ∈ Trace.resolved trace, setup.produce unit = .failed error
  cancelled :
    .panicked ∉ state.workers →
      (∀ unit ∈ Trace.resolved trace, ∀ error, setup.produce unit ≠ .failed error) →
        (state.verdict = .cancelled ↔ state.cancelled)
  gathered :
    .panicked ∉ state.workers →
      (∀ unit ∈ Trace.resolved trace, ∀ error, setup.produce unit ≠ .failed error) →
        state.cancelled = false → state.verdict = .gathered state.gathered

theorem Setup.failure?_eq_some_iff
    {setup : Setup U S E}
    {unit : U}
    {error : E} :
    setup.failure? unit = some error ↔ setup.produce unit = .failed error := by
  unfold failure?
  split <;> simp_all

theorem Setup.panics_iff
    {setup : Setup U S E}
    {unit : U} :
    setup.panics unit ↔ setup.produce unit = .panicked := by
  unfold panics
  split <;> simp_all

theorem Worker.hasPanicked_iff
    {worker : Worker U S E} :
    worker.hasPanicked ↔ worker = .panicked := by
  cases worker <;> simp [hasPanicked]

/-- When a run has ended, every failure has been received. -/
theorem Accounted.received_perm
    {setup : Setup U S E}
    {workers : Nat}
    {resolved : List U}
    {received : List E}
    {state : State U S E}
    (accounted : Accounted setup resolved received state)
    (consistent : Consistent workers state)
    (ended : state.isFinal) :
    received.Perm (resolved.filterMap setup.failure?) := by
  simp only [State.isFinal, Bool.and_eq_true, Bool.not_eq_true'] at ended
  obtain ⟨⟨symbolsClosed, errorsClosed⟩, allLeft⟩ := ended
  have nothingPending : state.workers.flatMap Worker.unreported = [] := by
    rw [List.flatMap_eq_nil_iff]
    intro worker member
    have left := List.all_eq_true.mp allLeft worker member
    cases worker with
    | exited | panicked => rfl
    | _ => cases left
  have failures := accounted.failures
  rw [nothingPending, (consistent.errorsClosed errorsClosed).2] at failures
  simpa using failures.symm

/-- A worker has panicked exactly when the resolution of some unit has. -/
theorem Accounted.panicked_mem_iff
    {setup : Setup U S E}
    {resolved : List U}
    {received : List E}
    {state : State U S E}
    (accounted : Accounted setup resolved received state) :
    .panicked ∈ state.workers ↔ ∃ unit ∈ resolved, setup.produce unit = .panicked := by
  have counted := accounted.panics
  calc
    .panicked ∈ state.workers ↔ 0 < state.workers.countP Worker.hasPanicked := by
      simp [List.countP_pos_iff, Worker.hasPanicked_iff]
    _ ↔ 0 < resolved.countP setup.panics := by rw [counted]
    _ ↔ ∃ unit ∈ resolved, setup.produce unit = .panicked := by
      simp [List.countP_pos_iff, Setup.panics_iff]

theorem State.any_hasPanicked_iff
    {state : State U S E} :
    state.workers.any Worker.hasPanicked ↔ .panicked ∈ state.workers := by
  simp [List.any_eq_true, Worker.hasPanicked_iff]

/-- Where no worker has panicked and a failure has arrived, the first one is the verdict. -/
theorem State.verdict_of_firstError
    {state : State U S E}
    {error : E}
    (sane : .panicked ∉ state.workers)
    (first : state.firstError = some error) :
    state.verdict = .failed error := by
  rw [← any_hasPanicked_iff] at sane
  simp [verdict, sane, first]

/-- Where neither a worker has panicked nor a failure has arrived, the caller's word decides. -/
theorem State.verdict_of_no_firstError
    {state : State U S E}
    (sane : .panicked ∉ state.workers)
    (none : state.firstError = none) :
    state.verdict = if state.cancelled then .cancelled else .gathered state.gathered := by
  rw [← any_hasPanicked_iff] at sane
  simp [verdict, sane, none]

theorem State.verdict_eq_panicked_iff
    {state : State U S E} :
    state.verdict = .panicked ↔ .panicked ∈ state.workers := by
  rw [← any_hasPanicked_iff, verdict]
  split
  case isTrue panicked => simp [panicked]
  case isFalse sane =>
    split
    · simp [sane]
    · split <;> simp [sane]

/--
The verdict tells what went wrong in a run, whatever the order of events and whenever the caller
cancels it: a panic if some worker panicked, or else the first failure that arrived if the
resolution of some unit failed, or else the cancellation if the caller has cancelled the run, or
else nothing went wrong.  Only the caller cancels a run from outside.
-/
theorem verdict_tells
    (setup : Setup U S E)
    (workers : Nat)
    (cancelled : Bool)
    (units : List U)
    {trace : List (State U S E × Action)}
    {state : State U S E}
    (run : Traced setup (.initial workers cancelled units) trace state) :
    state.cancelled = (cancelled || Trace.cancels trace) ∧
      (state.isFinal → Told setup units trace state) := by
  refine ⟨run.cancelled_eq, fun ended => ?_⟩
  have accounted := run.accounted
  have received :=
    accounted.received_perm ((Consistent.initial workers cancelled units).reached run.logged.reaches)
      ended
  have arrives (error : E) :
      error ∈ Trace.received trace ↔
        ∃ unit ∈ Trace.resolved trace, setup.produce unit = .failed error := by
    simp [received.mem_iff, Setup.failure?_eq_some_iff]
  have first := accounted.first
  have quiet
      (well : ∀ unit ∈ Trace.resolved trace, ∀ error, setup.produce unit ≠ .failed error) :
      state.firstError = none := by
    rw [first, List.head?_eq_none_iff, List.eq_nil_iff_forall_not_mem]
    intro error member
    obtain ⟨unit, isResolved, fails⟩ := (arrives error).mp member
    exact well unit isResolved error fails
  have panicked : state.verdict = .panicked ↔ .panicked ∈ state.workers :=
    State.verdict_eq_panicked_iff
  -- A failure is the verdict only where it is the first one that has arrived.
  have told {error : E} (failed : state.verdict = .failed error) :
      (Trace.received trace).head? = some error := by
    have sane : .panicked ∉ state.workers := fun member => by
      rw [panicked.mpr member] at failed
      cases failed
    rw [← first]
    cases found : state.firstError with
    | none =>
        rw [State.verdict_of_no_firstError sane found] at failed
        split at failed <;> cases failed
    | some other =>
        rw [State.verdict_of_firstError sane found] at failed
        cases failed
        rfl
  refine
    { known := (Sourced.logged_run run.logged).logged
      received
      panicked
      panics := accounted.panicked_mem_iff
      failed := fun sane => ⟨?fails, ?tells⟩
      first := fun error failed => ⟨told failed, ?sourced⟩
      cancelled := fun sane well => ?cancelled
      gathered := fun sane well uncancelled => ?gathered }
  case fails =>
    rintro ⟨error, failed⟩
    obtain ⟨unit, isResolved, fails⟩ := (arrives error).mp (List.mem_of_head? (told failed))
    exact ⟨unit, isResolved, error, fails⟩
  case tells =>
    rintro ⟨unit, isResolved, error, fails⟩
    have member : error ∈ Trace.received trace := (arrives error).mpr ⟨unit, isResolved, fails⟩
    cases listed : Trace.received trace with
    | nil => simp [listed] at member
    | cons earliest rest =>
        exact ⟨earliest, State.verdict_of_firstError sane (by rw [first, listed]; rfl)⟩
  case sourced => exact (arrives error).mp (List.mem_of_head? (told failed))
  case cancelled =>
    rw [State.verdict_of_no_firstError sane (quiet well)]
    split <;> simp_all
  case gathered => simp [State.verdict_of_no_firstError sane (quiet well), uncancelled]

/-! ## Two failures and a cancellation -/

namespace TwoFailures

/-- Every unit fails, with itself as the failure. -/
def setup : Setup String String String :=
  { produce := .failed
    symbolCapacity := 1
    errorCapacity := 2 }

/--
Two workers fail at the same time; the failure of the second one arrives first, and the caller
cancels the run before the other one arrives.
-/
def actions : List Action :=
  [.release, .work 0, .work 1, .work 0, .work 1, .work 0, .work 1, .work 1, .work 1, .work 0,
    .work 0, .receiveError, .cancel, .receiveError, .closeErrors, .closeSymbols]

/-- The verdict is the failure that arrived first, and neither the other one nor the cancellation. -/
theorem verdict_tells_first :
    ∃ trace state,
      Traced setup (.initial 2 false ["a", "b"]) trace state ∧ state.isFinal ∧ state.cancelled ∧
        state.verdict = .failed "b" ∧ Told setup ["a", "b"] trace state := by
  have followed :
      ∃ trace state,
        Trace.follow? setup (.initial 2 false ["a", "b"]) actions = some (trace, state) ∧
          state.isFinal ∧ state.cancelled ∧ state.verdict = .failed "b" :=
    ⟨_, _, rfl, rfl, rfl, rfl⟩
  obtain ⟨trace, state, followed, ended, cancelled, failed⟩ := followed
  have run := Traced.here.follow actions followed
  exact ⟨_, _, run, ended, cancelled, failed,
    (verdict_tells setup 2 false ["a", "b"] run).2 ended⟩

end TwoFailures

end Implementers.FanIn
