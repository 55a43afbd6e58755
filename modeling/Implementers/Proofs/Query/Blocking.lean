import Implementers.Proofs.FanIn.Progress
import Implementers.Proofs.Query.Gathering

namespace Implementers

/-!
# The gathering never gets stuck

A worker waits for room in the symbol channel only, and only while the collector can receive from
that channel.  The failure channel has a place for every worker, and a worker reports one failure at
most, so that it never waits there.  Both channels stay open until every worker has left and nothing
is in them.  So something can happen in every state of a run that is not final, even if the caller
never cancels it.
-/

namespace FanIn

variable
  {setup : Setup U S E}
  {workers : Nat}
  {state : State U S E}

/-- A channel is closed only after the collector has given up its own ends of the channels. -/
structure State.Opened
    (state : State U S E) :
    Prop where
  symbols : state.symbolsOpen = false → state.released
  errors : state.errorsOpen = false → state.released

/-- Every move closes channels only after the collector has given up its own ends. -/
theorem Move.opened
    {action : Action}
    {before after : State U S E}
    (move : Move setup before action after)
    (opened : before.Opened) :
    after.Opened := by
  cases move with
  | release => exact ⟨fun _ => rfl, fun _ => rfl⟩
  | work present works => cases works <;> exact ⟨opened.symbols, opened.errors⟩
  | closeSymbols isOpen disconnected =>
      exact ⟨fun _ => (Bool.and_eq_true_iff.mp disconnected).1, opened.errors⟩
  | closeErrors isOpen disconnected =>
      exact ⟨opened.symbols, fun _ => (Bool.and_eq_true_iff.mp disconnected).1⟩
  | _ => exact ⟨opened.symbols, opened.errors⟩

/-- What holds in every state of a run that has room for the failures of all its workers. -/
structure State.Unblocked
    (workers : Nat)
    (state : State U S E) :
    Prop where
  consistent : Consistent workers state
  roomy : state.Roomy
  opened : state.Opened

/-- Every state of a run is of this kind. -/
theorem Reaches.unblocked
    {cancelled : Bool}
    {units : List U}
    (reaches : Reaches setup (.initial workers cancelled units) state) :
    state.Unblocked workers := by
  induction reaches with
  | here =>
      exact
        { consistent := .initial workers cancelled units
          roomy := by simp [State.Roomy, State.initial]
          opened := ⟨by simp [State.initial], by simp [State.initial]⟩ }
  | next _ step inductionHypothesis =>
      exact
        { consistent := inductionHypothesis.consistent.move step.move
          roomy := step.move.roomy inductionHypothesis.roomy
          opened := step.move.opened inductionHypothesis.opened }

namespace State.Unblocked

variable (unblocked : state.Unblocked workers)

include unblocked

/-- Something other than the caller's cancellation can happen in a state that is not final. -/
theorem exists_step
    (symbolRoom : 0 < setup.symbolCapacity)
    (errorRoom : workers ≤ setup.errorCapacity)
    (unfinished : state.isFinal = false) :
    ∃ action next, action ≠ .cancel ∧ Step setup action state next := by
  by_contra nothing
  have size := unblocked.consistent.size
  have final :=
    isFinal_of_stuck (size ▸ unblocked.consistent) unblocked.roomy symbolRoom (size ▸ errorRoom)
      fun action member => by
        cases step : step? setup action state with
        | none => rfl
        | some next =>
            exact absurd ⟨action, next, ne_cancel_of_mem_preferredActions member, step⟩ nothing
  rw [unfinished] at final
  cases final

end State.Unblocked

/-- What keeps a fan-in going, whatever state it is in. -/
structure Flows
    (setup : Setup U S E)
    (state : State U S E) :
    Prop where
  /-- In a state that is not final something other than the caller's cancellation can happen. -/
  goesOn : state.isFinal = false → ∃ action next, action ≠ .cancel ∧ Step setup action state next
  /-- A worker with a failure to report never waits. -/
  reports : ∀ index error, state.workers[index]? = some (.reporting error) →
    Step setup (.work index) state
      ({ state with errors := state.errors ++ [error] }.setWorker index .exited)
  /-- A worker that moves on with a symbol to send has put it into the channel. -/
  sends : ∀ index symbol rest next, state.workers[index]? = some (.sending (symbol :: rest)) →
    Step setup (.work index) state next →
      next = { state with symbols := state.symbols ++ [symbol] }.setWorker index (.sending rest)
  /--
  A worker waits with a symbol to send only while the channel is full, and then the collector can
  receive a symbol, as soon as it has given up its own ends of the channels.
  -/
  waits : ∀ index symbol rest, state.workers[index]? = some (.sending (symbol :: rest)) →
    step? setup (.work index) state = none →
      setup.symbolCapacity ≤ state.symbols.length ∧
        (state.released = false → Step setup .release state { state with released := true }) ∧
          ∃ first others, state.symbols = first :: others ∧
            Step setup .receiveSymbol { state with released := true }
              { state with
                released := true
                symbols := others
                gathered := state.gathered ++ [first] }
  symbolsClosed : state.symbolsOpen = false → state.isDisconnected ∧ state.symbols = []
  errorsClosed : state.errorsOpen = false → state.isDisconnected ∧ state.errors = []

end FanIn

namespace Query

/--
The gathering of symbols never gets stuck, whatever the units, the number of workers, the capacity
of the symbol channel and the order of events, and whenever resolutions fail or panic and the caller
cancels the run.
-/
theorem gathering_flows
    (frontend : Frontend)
    (workers capacity : Nat)
    (cancelled : Bool)
    (units : List SourceUnit)
    {state : FanIn.State SourceUnit Symbol ResolutionError}
    (reaches :
      FanIn.Reaches (frontend.setup workers capacity units)
        (.initial (FanIn.workerCount workers units.length) cancelled units) state) :
    FanIn.Flows (frontend.setup workers capacity units) state := by
  have unblocked := reaches.unblocked
  have consistent := unblocked.consistent
  have opened := unblocked.opened
  have symbolRoom : 0 < (frontend.setup workers capacity units).symbolCapacity :=
    Nat.le_max_left 1 capacity
  have errorRoom :
      FanIn.workerCount workers units.length ≤
        (frontend.setup workers capacity units).errorCapacity :=
    Nat.le_refl _
  refine
    { goesOn := unblocked.exists_step symbolRoom errorRoom
      reports := fun index error present => consistent.reports unblocked.roomy errorRoom present
      sends := fun index symbol rest next present step => ?sends
      waits := fun index symbol rest present waits => ?waits
      symbolsClosed := fun closed => ?symbolsClosed
      errorsClosed := fun closed => ?errorsClosed }
  case sends =>
    rw [FanIn.Step, consistent.sends _ present] at step
    split at step
    · exact (Option.some.inj step).symm
    · cases step
  case waits =>
    have isOpen := (consistent.isOpen (List.mem_of_getElem? present) rfl).1
    rw [consistent.sends _ present] at waits
    split at waits
    · cases waits
    case isFalse full =>
      have full := Nat.le_of_not_lt full
      refine ⟨full, fun held => by simp [FanIn.Step, FanIn.step?, held], ?_⟩
      obtain ⟨first, others, queued⟩ :=
        List.exists_cons_of_length_pos (Nat.lt_of_lt_of_le symbolRoom full)
      exact ⟨first, others, queued, by simp [FanIn.Step, FanIn.step?, isOpen, queued]⟩
  case symbolsClosed =>
    obtain ⟨allLeft, drained⟩ := consistent.symbolsClosed closed
    exact ⟨by simp [FanIn.State.isDisconnected, opened.symbols closed, allLeft], drained⟩
  case errorsClosed =>
    obtain ⟨allLeft, drained⟩ := consistent.errorsClosed closed
    exact ⟨by simp [FanIn.State.isDisconnected, opened.errors closed, allLeft], drained⟩

/-- Two workers and a channel for one symbol, which is full when the second one wants to send. -/
theorem gathering_flows_full :
    let units := [SourceUnit.single ⟨"a"⟩, SourceUnit.single ⟨"b"⟩]
    let setup := oneTypeEach.setup 2 1 units
    ∃ state,
      FanIn.Reaches setup (.initial (FanIn.workerCount 2 units.length) false units) state ∧
        FanIn.step? setup (.work 0) state = none ∧ state.isFinal = false ∧
        FanIn.Flows setup state := by
  intro units setup
  have followed :
      ∃ log state,
        FanIn.follow? setup [] (.initial (FanIn.workerCount 2 units.length) false units)
            [.work 0, .work 1, .work 1, .work 0, .work 1, .work 0, .work 1] = some (log, state) ∧
          FanIn.step? setup (.work 0) state = none ∧ state.isFinal = false :=
    ⟨_, _, rfl, rfl, rfl⟩
  obtain ⟨log, state, followed, waits, unfinished⟩ := followed
  have reaches := (FanIn.Logged.here.follow _ followed).reaches
  exact ⟨state, reaches, waits, unfinished, gathering_flows oneTypeEach 2 1 false units reaches⟩

end Query

end Implementers
