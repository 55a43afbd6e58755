import Implementers.Proofs.FanIn.Conservation

namespace Implementers.FanIn

/-!
# Why a run fails

Every failure that is on its way, in a channel or received, and every panic comes from a unit whose
resolution has ended.  So a run that the caller does not cancel ends well exactly when every unit
can be resolved, whatever the order of events.
-/

/-- The failures that a worker still has to report. -/
def Worker.unreported : Worker U S E → List E
  | failing error => [error]
  | reporting error => [error]
  | _ => []

/-- Whether the resolution of a unit ends with a failure. -/
def Setup.Fails
    (setup : Setup U S E)
    (log : List U)
    (error : E) :
    Prop :=
  ∃ unit ∈ log, setup.produce unit = .failed error

/-- A failure of one of the units on a list is one of the units on a longer list. -/
theorem Setup.Fails.later
    {setup : Setup U S E}
    {log : List U}
    {error : E}
    (fails : setup.Fails log error)
    (more : List U) :
    setup.Fails (log ++ more) error := by
  obtain ⟨unit, member, failed⟩ := fails
  exact ⟨unit, List.mem_append_left more member, failed⟩

/-- Every unit, failure and panic of a state comes from the units of the run. -/
structure Sourced
    (setup : Setup U S E)
    (units log : List U)
    (state : State U S E) :
    Prop where
  logged : ∀ unit ∈ log, unit ∈ units
  queued : ∀ unit ∈ state.queue, unit ∈ units
  held : ∀ worker ∈ state.workers, ∀ unit ∈ worker.held, unit ∈ units
  unreported : ∀ worker ∈ state.workers, ∀ error ∈ worker.unreported, setup.Fails log error
  reported : ∀ error ∈ state.errors, setup.Fails log error
  received : ∀ error ∈ state.firstError, setup.Fails log error
  panicked : .panicked ∈ state.workers → ∃ unit ∈ log, setup.produce unit = .panicked

namespace Sourced

/-- At the beginning there are only queued units. -/
theorem initial
    (setup : Setup U S E)
    (workers : Nat)
    (cancelled : Bool)
    (units : List U) :
    Sourced setup units [] (State.initial workers cancelled units) where
  logged := by simp
  queued := fun _ member => member
  held := by simp [State.initial, Worker.held]
  unreported := by simp [State.initial, Worker.unreported]
  reported := by simp [State.initial]
  received := by simp [State.initial]
  panicked := by simp [State.initial]

/-- The list of units grows with the run. -/
theorem later
    {setup : Setup U S E}
    {units log more : List U}
    {state : State U S E}
    (sourced : Sourced setup units log state)
    (known : ∀ unit ∈ more, unit ∈ units) :
    Sourced setup units (log ++ more) state where
  logged := fun unit member =>
    (List.mem_append.mp member).elim (sourced.logged unit) (known unit)
  queued := sourced.queued
  held := sourced.held
  unreported := fun worker member error held =>
    (sourced.unreported worker member error held).later more
  reported := fun error member => (sourced.reported error member).later more
  received := fun error member => (sourced.received error member).later more
  panicked := fun member => by
    obtain ⟨unit, inLog, panics⟩ := sourced.panicked member
    exact ⟨unit, List.mem_append_left more inLog, panics⟩

/--
A worker that moves takes its units from the queue or keeps them, and its failures and panics come
from the unit whose resolution it ends.
-/
theorem works
    {setup : Setup U S E}
    {units log : List U}
    {state shared : State U S E}
    {worker next : Worker U S E}
    (sourced : Sourced setup units log state)
    (member : worker ∈ state.workers)
    (works : Works setup state worker shared next) :
    Sourced setup units (log ++ worker.resolving) shared ∧
      (∀ unit ∈ next.held, unit ∈ units) ∧
      (∀ error ∈ next.unreported, setup.Fails (log ++ worker.resolving) error) ∧
      (next = .panicked → ∃ unit ∈ log ++ worker.resolving, setup.produce unit = .panicked) := by
  have held := sourced.held worker member
  have unreported := sourced.unreported worker member
  have resolving : ∀ unit ∈ worker.resolving, unit ∈ units := by
    intro unit isResolved
    cases worker <;> simp_all [Worker.resolving, Worker.held]
  have grown := sourced.later resolving
  have told : ∀ error ∈ worker.unreported, setup.Fails (log ++ worker.resolving) error :=
    fun error waiting => (unreported error waiting).later _
  cases works with
  | take queued =>
      refine ⟨{ grown with queued := fun unit inRest => ?_ }, ?_, by simp [Worker.unreported],
        by simp⟩
      · exact sourced.queued unit (by simp [queued, inRest])
      · intro unit isHeld
        rw [List.mem_singleton.mp isHeld]
        exact sourced.queued _ (by simp [queued])
  | start => exact ⟨grown, held, by simp [Worker.unreported], by simp⟩
  | @fail unit error outcome =>
      refine ⟨grown, by simp [Worker.held], ?_, by simp⟩
      intro told isTold
      rw [List.mem_singleton.mp isTold]
      exact ⟨unit, by simp [Worker.resolving], outcome⟩
  | @panic unit outcome =>
      exact ⟨grown, by simp [Worker.held], by simp [Worker.unreported],
        fun _ => ⟨unit, by simp [Worker.resolving], outcome⟩⟩
  | stop => exact ⟨{ grown with }, by simp [Worker.held], told, by simp⟩
  | report isOpen room =>
      refine ⟨{ grown with reported := fun error inErrors => ?_ }, by simp [Worker.held],
        by simp [Worker.unreported], by simp⟩
      rcases List.mem_append.mp inErrors with earlier | isTold
      · exact grown.reported error earlier
      · exact told error isTold
  | send => exact ⟨{ grown with }, by simp [Worker.held], by simp [Worker.unreported], by simp⟩
  | _ => exact ⟨grown, by simp [Worker.held], by simp [Worker.unreported], by simp⟩

/-- Every move keeps units, failures and panics those of the run. -/
theorem move
    {setup : Setup U S E}
    {units log : List U}
    {action : Action}
    {before after : State U S E}
    (sourced : Sourced setup units log before)
    (move : Move setup before action after) :
    Sourced setup units (log ++ resolvedBy before action) after := by
  cases move with
  | receiveError released isOpen queued =>
      have earlier (error) (member : error ∈ before.errors) := sourced.reported error member
      rw [queued] at earlier
      simp only [resolvedBy, List.append_nil]
      refine { sourced with
        reported := fun error member => earlier error (List.mem_cons_of_mem _ member)
        received := fun error member => ?_ }
      cases first : before.firstError with
      | none =>
          simp only [first, Option.none_or, Option.mem_def, Option.some.injEq] at member
          exact member ▸ earlier _ List.mem_cons_self
      | some known =>
          simp only [first, Option.some_or] at member
          exact sourced.received error (first ▸ member)
  | @work index worker next shared present works =>
      have member := List.mem_of_getElem? present
      obtain ⟨kept, heldNext, toldNext, panickedNext⟩ := sourced.works member works
      have resolved : resolvedBy before (.work index) = worker.resolving := by
        simp [resolvedBy, present]
      have entries {entry : Worker U S E}
          (isEntry : entry ∈ (shared.setWorker index next).workers) :
          entry ∈ shared.workers ∨ entry = next :=
        List.mem_or_eq_of_mem_set isEntry
      rw [resolved]
      refine ⟨kept.logged, kept.queued, fun entry isEntry => ?_, fun entry isEntry => ?_,
        kept.reported, kept.received, fun isEntry => ?_⟩
      · rcases entries isEntry with earlier | rfl
        · exact kept.held entry earlier
        · exact heldNext
      · rcases entries isEntry with earlier | rfl
        · exact kept.unreported entry earlier
        · exact toldNext
      · rcases entries isEntry with earlier | isNext
        · exact kept.panicked earlier
        · exact panickedNext isNext.symm
  | _ => simpa [resolvedBy] using { sourced with }

/-- Units, failures and panics of every state of a run are those of the run. -/
theorem logged_run
    {setup : Setup U S E}
    {workers : Nat}
    {cancelled : Bool}
    {units log : List U}
    {state : State U S E}
    (logged : Logged setup (.initial workers cancelled units) log state) :
    Sourced setup units log state := by
  induction logged with
  | here => exact .initial setup workers cancelled units
  | next _ step inductionHypothesis => exact inductionHypothesis.move step.move

end Sourced

/-- A verdict that is not the caller's doing is a failure or a panic of some unit, or all is well. -/
theorem Sourced.verdict
    {setup : Setup U S E}
    {units log : List U}
    {state : State U S E}
    (sourced : Sourced setup units log state)
    (uncancelled : state.cancelled = false)
    (produced : ∀ unit ∈ units, ∃ symbols, setup.produce unit = .produced symbols) :
    state.verdict = .gathered state.gathered := by
  have noPanic : state.workers.any Worker.hasPanicked = false := by
    rw [List.any_eq_false]
    intro worker member panicked
    have isPanicked : worker = .panicked := by
      cases worker <;> simp_all [Worker.hasPanicked]
    obtain ⟨unit, inLog, outcome⟩ := sourced.panicked (isPanicked ▸ member)
    obtain ⟨symbols, produces⟩ := produced unit (sourced.logged unit inLog)
    rw [outcome] at produces
    cases produces
  have noError : state.firstError = none := by
    cases first : state.firstError with
    | none => rfl
    | some error =>
        obtain ⟨unit, inLog, outcome⟩ := sourced.received error first
        obtain ⟨symbols, produces⟩ := produced unit (sourced.logged unit inLog)
        rw [outcome] at produces
        cases produces
  simp [State.verdict, noPanic, noError, uncancelled]

/--
A run that the caller does not cancel ends well exactly when every unit can be resolved, and then it
has gathered an interleaving of the units' symbols.
-/
theorem Reaches.gathers
    {setup : Setup U S E}
    {workers : Nat}
    {units : List U}
    {final : State U S E}
    (reaches : Reaches setup (.initial (workers + 1) false units) final)
    (ended : final.isFinal)
    (uncancelled : final.cancelled = false) :
    ((∃ symbols, final.verdict = .gathered symbols) ↔
        ∀ unit ∈ units, ∃ symbols, setup.produce unit = .produced symbols) ∧
      ∀ symbols, final.verdict = .gathered symbols →
        Interleaving (units.map setup.symbolsOf) symbols := by
  obtain ⟨log, logged⟩ := reaches.exists_logged
  refine ⟨⟨?_, fun produced => ?_⟩, fun symbols verdict => ?_⟩
  · rintro ⟨symbols, verdict⟩
    exact (logged.interleaving ended verdict).2.1
  · exact ⟨_, (Sourced.logged_run logged).verdict uncancelled produced⟩
  · exact (logged.interleaving ended verdict).2.2

end Implementers.FanIn
