import Implementers.Query.FanIn
import Mathlib.Data.List.Perm.Basic

namespace Implementers.FanIn

/-!
# What one step of a fan-in does

Everything that a worker or the collector can do next, one constructor each, with the conditions
under which it happens.  Invariants of runs are proved by cases on these moves; `step?` itself is
opened only here.
-/

/--
What a worker does next.  `Works setup state worker shared next` says that a worker about to do
`worker` goes on to `next` and turns the part of the state that it shares with others into `shared`.
-/
inductive Works
    (setup : Setup U S E)
    (state : State U S E) :
    Worker U S E → State U S E → Worker U S E → Prop where
  | leave
      (drained : state.queue = []) :
      Works setup state .idle state .exited
  | take
      {unit : U}
      {rest : List U}
      (queued : state.queue = unit :: rest) :
      Works setup state .idle { state with queue := rest } (.holding unit)
  | skip
      {unit : U}
      (cancelled : state.isCancelled) :
      Works setup state (.holding unit) state .idle
  | start
      {unit : U}
      (running : state.isCancelled = false) :
      Works setup state (.holding unit) state (.producing unit)
  | produce
      {unit : U}
      {symbols : List S}
      (outcome : setup.produce unit = .produced symbols) :
      Works setup state (.producing unit) state (.sending symbols)
  | fail
      {unit : U}
      {error : E}
      (outcome : setup.produce unit = .failed error) :
      Works setup state (.producing unit) state (.failing error)
  | panic
      {unit : U}
      (outcome : setup.produce unit = .panicked) :
      Works setup state (.producing unit) state .panicked
  | finish :
      Works setup state (.sending []) state .idle
  | hangUp
      {symbol : S}
      {rest : List S}
      (closed : state.symbolsOpen = false) :
      Works setup state (.sending (symbol :: rest)) state .exited
  | send
      {symbol : S}
      {rest : List S}
      (isOpen : state.symbolsOpen)
      (room : state.symbols.length < setup.symbolCapacity) :
      Works setup state (.sending (symbol :: rest))
        { state with symbols := state.symbols ++ [symbol] } (.sending rest)
  | stop
      {error : E} :
      Works setup state (.failing error) { state with stopped := true } (.reporting error)
  | forget
      {error : E}
      (closed : state.errorsOpen = false) :
      Works setup state (.reporting error) state .exited
  | report
      {error : E}
      (isOpen : state.errorsOpen)
      (room : state.errors.length < setup.errorCapacity) :
      Works setup state (.reporting error)
        { state with errors := state.errors ++ [error] } .exited

/-- A worker's step is one of the things that workers do. -/
theorem works_of_workStep?
    {setup : Setup U S E}
    {index : Nat}
    {state after : State U S E}
    {worker : Worker U S E}
    (step : workStep? setup index state worker = some after) :
    ∃ shared next,
      Works setup state worker shared next ∧ after = shared.setWorker index next := by
  cases worker with
  | idle =>
      cases queued : state.queue with
      | nil =>
          simp only [workStep?, queued, Option.some.injEq] at step
          exact ⟨state, .exited, .leave queued, step.symm⟩
      | cons unit rest =>
          simp only [workStep?, queued, Option.some.injEq] at step
          exact ⟨_, _, .take queued, step.symm⟩
  | holding unit =>
      simp only [workStep?] at step
      split at step
      case isTrue cancelled =>
        exact ⟨state, .idle, .skip cancelled, (Option.some.inj step).symm⟩
      case isFalse running =>
        exact ⟨state, _, .start (by simpa using running), (Option.some.inj step).symm⟩
  | producing unit =>
      cases outcome : setup.produce unit with
      | produced symbols =>
          simp only [workStep?, outcome, Option.some.injEq] at step
          exact ⟨state, _, .produce outcome, step.symm⟩
      | failed error =>
          simp only [workStep?, outcome, Option.some.injEq] at step
          exact ⟨state, _, .fail outcome, step.symm⟩
      | panicked =>
          simp only [workStep?, outcome, Option.some.injEq] at step
          exact ⟨state, _, .panic outcome, step.symm⟩
  | sending symbols =>
      cases symbols with
      | nil => exact ⟨state, .idle, .finish, (Option.some.inj step).symm⟩
      | cons symbol rest =>
          simp only [workStep?] at step
          split at step
          case isTrue closed =>
            exact ⟨state, _, .hangUp (by simpa using closed), (Option.some.inj step).symm⟩
          case isFalse isOpen =>
            split at step
            case isTrue room =>
              exact ⟨_, _, .send (by simpa using isOpen) room, (Option.some.inj step).symm⟩
            case isFalse => cases step
  | failing error => exact ⟨_, _, .stop, (Option.some.inj step).symm⟩
  | reporting error =>
      simp only [workStep?] at step
      split at step
      case isTrue closed =>
        exact ⟨state, _, .forget (by simpa using closed), (Option.some.inj step).symm⟩
      case isFalse isOpen =>
        split at step
        case isTrue room =>
          exact ⟨_, _, .report (by simpa using isOpen) room, (Option.some.inj step).symm⟩
        case isFalse => cases step
  | exited => cases step
  | panicked => cases step

/-- What can happen next in a run. -/
inductive Move
    (setup : Setup U S E)
    (before : State U S E) :
    Action → State U S E → Prop where
  | release
      (held : before.released = false) :
      Move setup before .release { before with released := true }
  | receiveSymbol
      {symbol : S}
      {rest : List S}
      (released : before.released)
      (isOpen : before.symbolsOpen)
      (queued : before.symbols = symbol :: rest) :
      Move setup before .receiveSymbol
        { before with symbols := rest, gathered := before.gathered ++ [symbol] }
  | receiveError
      {error : E}
      {rest : List E}
      (released : before.released)
      (isOpen : before.errorsOpen)
      (queued : before.errors = error :: rest) :
      Move setup before .receiveError
        { before with
          errors := rest
          stopped := true
          firstError := before.firstError.or (some error) }
  | work
      {index : Nat}
      {worker next : Worker U S E}
      {shared : State U S E}
      (present : before.workers[index]? = some worker)
      (works : Works setup before worker shared next) :
      Move setup before (.work index) (shared.setWorker index next)
  | closeSymbols
      (isOpen : before.symbolsOpen)
      (disconnected : before.isDisconnected)
      (drained : before.symbols = []) :
      Move setup before .closeSymbols { before with symbolsOpen := false }
  | closeErrors
      (isOpen : before.errorsOpen)
      (disconnected : before.isDisconnected)
      (drained : before.errors = []) :
      Move setup before .closeErrors { before with errorsOpen := false }
  | cancel
      (uncancelled : before.cancelled = false) :
      Move setup before .cancel { before with cancelled := true }

/-- Every step is one of the moves. -/
theorem Step.move
    {setup : Setup U S E}
    {action : Action}
    {before after : State U S E}
    (step : Step setup action before after) :
    Move setup before action after := by
  unfold Step at step
  cases action with
  | release =>
      simp only [step?] at step
      split at step
      case isTrue => cases step
      case isFalse held => cases step; exact .release (by simpa using held)
  | receiveSymbol =>
      simp only [step?] at step
      split at step
      case isTrue enabled =>
        rw [Bool.and_eq_true] at enabled
        cases queued : before.symbols with
        | nil => simp [queued] at step
        | cons symbol rest =>
            simp only [queued, Option.some.injEq] at step
            subst step
            exact .receiveSymbol enabled.1 enabled.2 queued
      case isFalse => cases step
  | receiveError =>
      simp only [step?] at step
      split at step
      case isTrue enabled =>
        rw [Bool.and_eq_true] at enabled
        cases queued : before.errors with
        | nil => simp [queued] at step
        | cons error rest =>
            simp only [queued, Option.some.injEq] at step
            subst step
            exact .receiveError enabled.1 enabled.2 queued
      case isFalse => cases step
  | work index =>
      cases present : before.workers[index]? with
      | none => simp [step?, present] at step
      | some worker =>
          simp only [step?, present] at step
          obtain ⟨shared, next, works, rfl⟩ := works_of_workStep? step
          exact .work present works
  | closeSymbols =>
      simp only [step?] at step
      split at step
      case isTrue enabled =>
        cases step
        simp only [Bool.and_eq_true, List.isEmpty_iff] at enabled
        exact .closeSymbols enabled.1.1 enabled.1.2 enabled.2
      case isFalse => cases step
  | closeErrors =>
      simp only [step?] at step
      split at step
      case isTrue enabled =>
        cases step
        simp only [Bool.and_eq_true, List.isEmpty_iff] at enabled
        exact .closeErrors enabled.1.1 enabled.1.2 enabled.2
      case isFalse => cases step
  | cancel =>
      simp only [step?] at step
      split at step
      case isTrue => cases step
      case isFalse uncancelled => cases step; exact .cancel (by simpa using uncancelled)

/-- A worker that moves stands in the list of workers, and only its own entry changes. -/
theorem exists_perm_set
    {workers : List (Worker U S E)}
    {index : Nat}
    {worker : Worker U S E}
    (present : workers[index]? = some worker) :
    ∃ others,
      workers.Perm (worker :: others) ∧
        ∀ next, (workers.set index next).Perm (next :: others) := by
  obtain ⟨inside, rfl⟩ := List.getElem?_eq_some_iff.mp present
  refine ⟨workers.eraseIdx index, ?_, fun next => ?_⟩
  · exact (List.getElem_cons_eraseIdx_perm inside).symm
  · exact List.set_perm_cons_eraseIdx inside next

end Implementers.FanIn
