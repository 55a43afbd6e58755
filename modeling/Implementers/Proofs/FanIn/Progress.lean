import Implementers.Proofs.FanIn.Conservation
import Mathlib.Algebra.GroupWithZero.Nat

namespace Implementers.FanIn

/-!
# A run goes on until it is final

Every action but the caller's cancellation leaves less to do.  There is room for every failure, since
a worker reports at most one before it leaves, and a worker that waits for room in the symbol channel
waits for the collector, which can receive.  So a run that follows enabled actions ends, and it ends
in a final state.
-/

/-! ## What is left to do -/

/-- More actions than a worker takes before it leaves, apart from the units still queued. -/
def Worker.cost
    (setup : Setup U S E) :
    Worker U S E → Nat
  | idle => 1
  | holding unit => unitCost setup unit
  | producing unit => 4 + 2 * (setup.produce unit).size
  | sending symbols => 2 + 2 * symbols.length
  | failing _ => 3
  | reporting _ => 2
  | exited => 0
  | panicked => 0

/-- More actions than the collector takes, apart from what workers still send. -/
def State.collecting
    (state : State U S E) :
    Nat :=
  state.symbols.length + state.errors.length + (!state.released).toNat + state.symbolsOpen.toNat +
    state.errorsOpen.toNat

/-- More actions than are possible before a run ends. -/
def State.remaining
    (setup : Setup U S E)
    (state : State U S E) :
    Nat :=
  (state.queue.map (unitCost setup)).sum + (state.workers.map (Worker.cost setup)).sum +
    state.collecting

/-- A worker's move leaves less to do. -/
theorem Works.cost_lt
    {setup : Setup U S E}
    {state shared : State U S E}
    {worker next : Worker U S E}
    (works : Works setup state worker shared next) :
    (shared.queue.map (unitCost setup)).sum + next.cost setup + shared.collecting <
      (state.queue.map (unitCost setup)).sum + worker.cost setup + state.collecting := by
  cases works with
  | take queued => simp [queued, Worker.cost, State.collecting]; omega
  | skip => simp only [Worker.cost, unitCost]; omega
  | start => simp [Worker.cost, unitCost]
  | produce outcome => simp [Worker.cost, outcome, Outcome.size]
  | fail outcome => simp [Worker.cost, outcome, Outcome.size]
  | panic => simp only [Worker.cost]; omega
  | send => simp [Worker.cost, State.collecting]; omega
  | stop => simp [Worker.cost, State.collecting]
  | report => simp [Worker.cost, State.collecting]; omega
  | hangUp => simp only [Worker.cost]; omega
  | leave | finish | forget => simp [Worker.cost]

/-- Every action but the caller's cancellation leaves less to do. -/
theorem Move.remaining_lt
    {setup : Setup U S E}
    {action : Action}
    {before after : State U S E}
    (move : Move setup before action after)
    (inside : action ≠ .cancel) :
    after.remaining setup < before.remaining setup := by
  cases move with
  | release held => simp [State.remaining, State.collecting, held]
  | receiveSymbol released isOpen queued => simp [State.remaining, State.collecting, queued]
  | receiveError released isOpen queued => simp [State.remaining, State.collecting, queued]
  | @work index worker next shared present works =>
      obtain ⟨others, permBefore, permAfter⟩ := exists_perm_set present
      have costBefore := (permBefore.map (Worker.cost setup)).sum_nat
      have costAfter := ((permAfter next).map (Worker.cost setup)).sum_nat
      have less := works.cost_lt
      simp only [State.remaining, State.setWorker, works.workers, State.collecting, List.map_cons,
        List.sum_cons] at costBefore costAfter less ⊢
      omega
  | closeSymbols isOpen => simp [State.remaining, State.collecting, isOpen]
  | closeErrors isOpen => simp [State.remaining, State.collecting, isOpen]
  | cancel => exact absurd rfl inside

/-- The actions of a run with a number of workers are more than what is left to do at its start. -/
theorem remaining_initial
    (setup : Setup U S E)
    (workers : Nat)
    (cancelled : Bool)
    (units : List U) :
    (State.initial workers cancelled units).remaining setup = runCost setup workers units := by
  have queued :
      ∀ units : List U,
        runCost setup workers units = (units.map (unitCost setup)).sum + (workers + 3) := by
    intro units
    induction units with
    | nil => simp [runCost]
    | cons unit rest inductionHypothesis =>
        simp only [runCost, List.foldr_cons, List.map_cons, List.sum_cons] at inductionHypothesis ⊢
        omega
  rw [queued]
  simp [State.remaining, State.initial, State.collecting, Worker.cost]
  omega

/-! ## No action is wanting -/

/-- There is room for the failures of all workers that have not left. -/
def State.Roomy
    (state : State U S E) :
    Prop :=
  state.errors.length ≤ state.workers.countP Worker.hasLeft

/-- Every move leaves room for the failures of the workers that have not left. -/
theorem Move.roomy
    {setup : Setup U S E}
    {action : Action}
    {before after : State U S E}
    (move : Move setup before action after)
    (roomy : before.Roomy) :
    after.Roomy := by
  unfold State.Roomy at roomy ⊢
  cases move with
  | receiveError released isOpen queued =>
      simp only [queued, List.length_cons] at roomy ⊢
      omega
  | @work index worker next shared present works =>
      obtain ⟨others, permBefore, permAfter⟩ := exists_perm_set present
      have countBefore := permBefore.countP_eq Worker.hasLeft
      have countAfter := (permAfter next).countP_eq Worker.hasLeft
      have staying := works.hasLeft
      simp only [List.countP_cons, staying, Bool.false_eq_true, ↓reduceIte] at countBefore countAfter
      have grown :
          before.errors.length + (if next.hasLeft then 1 else 0) ≤
            (before.workers.set index next).countP Worker.hasLeft := by
        omega
      simp only [State.setWorker, works.workers]
      cases works with
      | report => simpa [Worker.hasLeft] using grown
      | _ => exact Nat.le_trans (Nat.le_add_right _ _) grown
  | _ => exact roomy

/-- A worker with a failure to report finds room for it. -/
theorem Consistent.reports
    {setup : Setup U S E}
    {workers index : Nat}
    {state : State U S E}
    {error : E}
    (consistent : Consistent workers state)
    (roomy : state.Roomy)
    (errorRoom : workers ≤ setup.errorCapacity)
    (present : state.workers[index]? = some (.reporting error)) :
    Step setup (.work index) state
      ({ state with errors := state.errors ++ [error] }.setWorker index .exited) := by
  have member := List.mem_of_getElem? present
  have isOpen := (consistent.isOpen member rfl).2
  have someStays : state.workers.countP Worker.hasLeft < workers := by
    refine consistent.size ▸ Nat.lt_of_le_of_ne List.countP_le_length fun all => ?_
    cases List.countP_eq_length.mp all _ member
  have room : state.errors.length < setup.errorCapacity :=
    Nat.lt_of_le_of_lt roomy (Nat.lt_of_lt_of_le someStays errorRoom)
  simp [Step, step?, present, workStep?, isOpen, room]

/-- A worker with a symbol to send puts it into the channel, or waits because the channel is full. -/
theorem Consistent.sends
    {workers index : Nat}
    {state : State U S E}
    {symbol : S}
    {rest : List S}
    (consistent : Consistent workers state)
    (setup : Setup U S E)
    (present : state.workers[index]? = some (.sending (symbol :: rest))) :
    step? setup (.work index) state =
      if state.symbols.length < setup.symbolCapacity then
        some ({ state with symbols := state.symbols ++ [symbol] }.setWorker index (.sending rest))
      else
        none := by
  have isOpen := (consistent.isOpen (List.mem_of_getElem? present) rfl).1
  simp [step?, present, workStep?, isOpen]

/-- A state in which nothing but the caller's cancellation can happen is final. -/
theorem isFinal_of_stuck
    {setup : Setup U S E}
    {state : State U S E}
    (consistent : Consistent state.workers.length state)
    (roomy : state.Roomy)
    (symbolRoom : 0 < setup.symbolCapacity)
    (errorRoom : state.workers.length ≤ setup.errorCapacity)
    (stuck : ∀ action ∈ preferredActions state.workers.length, step? setup action state = none) :
    state.isFinal := by
  have released : state.released := by
    have none := stuck .release (by simp [preferredActions])
    by_contra held
    simp [step?, held] at none
  have noSymbol (isOpen : state.symbolsOpen) : state.symbols = [] := by
    have none := stuck .receiveSymbol (by simp [preferredActions])
    cases queued : state.symbols with
    | nil => rfl
    | cons _ _ => simp [step?, released, isOpen, queued] at none
  have noError (isOpen : state.errorsOpen) : state.errors = [] := by
    have none := stuck .receiveError (by simp [preferredActions])
    cases queued : state.errors with
    | nil => rfl
    | cons _ _ => simp [step?, released, isOpen, queued] at none
  have allLeft : state.workers.all Worker.hasLeft := by
    rw [List.all_eq_true]
    intro worker member
    by_contra present
    rw [Bool.not_eq_true] at present
    obtain ⟨index, inside, rfl⟩ := List.mem_iff_getElem.mp member
    have none := stuck (.work index) (by simp [preferredActions, inside])
    have found := List.getElem?_eq_getElem inside
    have symbolsOpen := (consistent.isOpen member present).1
    cases doing : state.workers[index] with
    | idle => cases queued : state.queue <;> simp [step?, found, doing, workStep?, queued] at none
    | holding unit =>
        simp only [step?, found, doing, workStep?] at none
        split at none <;> cases none
    | producing unit =>
        cases outcome : setup.produce unit <;>
          simp [step?, found, doing, workStep?, outcome] at none
    | sending symbols =>
        cases symbols with
        | nil => simp [step?, found, doing, workStep?] at none
        | cons symbol rest =>
            rw [consistent.sends setup (found.trans (congrArg some doing))] at none
            simp [noSymbol symbolsOpen, symbolRoom] at none
    | failing error => simp [step?, found, doing, workStep?] at none
    | reporting error =>
        have reports := consistent.reports roomy errorRoom (found.trans (congrArg some doing))
        rw [Step, none] at reports
        cases reports
    | exited => simp [doing, Worker.hasLeft] at present
    | panicked => simp [doing, Worker.hasLeft] at present
  have disconnected : state.isDisconnected := by
    simp [State.isDisconnected, released, allLeft]
  have symbolsClosed : state.symbolsOpen = false := by
    by_contra isOpen
    rw [Bool.not_eq_false] at isOpen
    have none := stuck .closeSymbols (by simp [preferredActions])
    simp [step?, isOpen, disconnected, noSymbol isOpen] at none
  have errorsClosed : state.errorsOpen = false := by
    by_contra isOpen
    rw [Bool.not_eq_false] at isOpen
    have none := stuck .closeErrors (by simp [preferredActions])
    simp [step?, isOpen, disconnected, noError isOpen] at none
  simp [State.isFinal, symbolsClosed, errorsClosed, allLeft]

/-! ## The run that is followed -/

/-- The caller's cancellation is not among the actions that a run prefers. -/
theorem ne_cancel_of_mem_preferredActions
    {workers : Nat}
    {action : Action}
    (member : action ∈ preferredActions workers) :
    action ≠ .cancel := by
  rintro rfl
  simp [preferredActions] at member

/-- Only the caller cancels a run from outside. -/
theorem Move.cancelled
    {setup : Setup U S E}
    {action : Action}
    {before after : State U S E}
    (move : Move setup before action after)
    (inside : action ≠ .cancel) :
    after.cancelled = before.cancelled := by
  cases move with
  | work present works => cases works <;> rfl
  | cancel => exact absurd rfl inside
  | _ => rfl

/-- Following the preferred actions is a run that ends in a final state. -/
theorem runWithin_final
    {setup : Setup U S E}
    {start : State U S E}
    {workers : Nat}
    (symbolRoom : 0 < setup.symbolCapacity)
    (errorRoom : workers ≤ setup.errorCapacity)
    (actions : Nat) :
    ∀ {state : State U S E},
      Reaches setup start state →
      Consistent workers state →
      state.Roomy →
      state.remaining setup ≤ actions →
      Reaches setup start (runWithin setup actions state) ∧
        (runWithin setup actions state).isFinal ∧
        (runWithin setup actions state).cancelled = state.cancelled := by
  induction actions with
  | zero =>
      intro state reaches consistent roomy enough
      simp only [runWithin]
      refine ⟨reaches, isFinal_of_stuck (consistent.size ▸ consistent) roomy symbolRoom
        (consistent.size ▸ errorRoom) fun action member => ?_, trivial⟩
      cases step : step? setup action state with
      | none => rfl
      | some next =>
          have less :=
            (Step.move step).remaining_lt (ne_cancel_of_mem_preferredActions member)
          omega
  | succ actions inductionHypothesis =>
      intro state reaches consistent roomy enough
      cases preferred : preferredStep? setup state with
      | none =>
          simp only [runWithin, preferred]
          exact ⟨reaches, isFinal_of_stuck (consistent.size ▸ consistent) roomy symbolRoom
            (consistent.size ▸ errorRoom) (List.findSome?_eq_none_iff.mp preferred), trivial⟩
      | some next =>
          obtain ⟨action, member, step⟩ := List.exists_of_findSome?_eq_some preferred
          have inside := ne_cancel_of_mem_preferredActions member
          have move : Move setup state action next := Step.move step
          have less := move.remaining_lt inside
          obtain ⟨reached, isFinal, kept⟩ :=
            inductionHypothesis (reaches.next step) (consistent.move move) (move.roomy roomy)
              (by omega)
          simp only [runWithin, preferred]
          exact ⟨reached, isFinal, kept.trans (move.cancelled inside)⟩

/-- The fan-in over known outcomes with a number of workers and a capacity asked for. -/
def outcomeSetup
    (workers capacity : Nat)
    (outcomes : List (Outcome S E)) :
    Setup (Outcome S E) S E :=
  { produce := id
    symbolCapacity := max 1 capacity
    errorCapacity := workerCount workers outcomes.length }

/-- Whether some order of events leads to a verdict, when the caller does not cancel the run. -/
def MayEnd
    (workers capacity : Nat)
    (outcomes : List (Outcome S E))
    (verdict : Verdict S E) :
    Prop :=
  ∃ final,
    Reaches (outcomeSetup workers capacity outcomes)
        (.initial (workerCount workers outcomes.length) false outcomes) final ∧
      final.isFinal ∧ final.cancelled = false ∧ final.verdict = verdict

/-- The run that is followed is one of those that may happen, and it has a verdict. -/
theorem mayEnd_run
    (workers capacity : Nat)
    (outcomes : List (Outcome S E)) :
    MayEnd workers capacity outcomes (run workers capacity false outcomes) := by
  have room : 0 < (outcomeSetup workers capacity outcomes).symbolCapacity := by
    simp only [outcomeSetup]
    omega
  have ended :=
    runWithin_final room (Nat.le_refl (workerCount workers outcomes.length))
      (runCost (outcomeSetup workers capacity outcomes) (workerCount workers outcomes.length)
        outcomes)
      .here (.initial (workerCount workers outcomes.length) false outcomes)
      (by simp [State.Roomy, State.initial]) (Nat.le_of_eq (remaining_initial _ _ false outcomes))
  obtain ⟨reaches, isFinal, uncancelled⟩ := ended
  exact ⟨_, reaches, isFinal, uncancelled, rfl⟩

end Implementers.FanIn
