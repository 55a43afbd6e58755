namespace Implementers

/-!
# Fan-in

Workers take units from a queue, produce the symbols of each and send them through a bounded channel
to one collector, which gathers them in the order of their arrival.  Failures go through a channel
of their own.  The first failure cancels the run, so that workers skip the units they have not
begun; the caller can cancel it as well.  The collector goes on until both channels are closed,
which happens when every worker has left.

A state of the run and the actions that lead from one state to the next are given by `step?`.  Any
order of enabled actions is a possible run; `runWithin` follows one of them.
-/

namespace FanIn

/-- What becomes of producing the symbols of a unit. -/
inductive Outcome (S E : Type) where
  | produced (symbols : List S)
  | failed (error : E)
  | panicked
  deriving Repr, DecidableEq

/-- What a worker is about to do. -/
inductive Worker (U S E : Type) where
  /-- Take a unit from the queue, or leave when there is none. -/
  | idle
  /-- Look whether the run is cancelled, now that a unit is taken. -/
  | holding (unit : U)
  /-- Produce the symbols of a unit. -/
  | producing (unit : U)
  /-- Send symbols, one after the other. -/
  | sending (symbols : List S)
  /-- Cancel the run because of a failure. -/
  | failing (error : E)
  /-- Send a failure. -/
  | reporting (error : E)
  | exited
  | panicked
  deriving Repr, DecidableEq

namespace Worker

/-- Whether a worker has left, so that it holds no channel open any more. -/
def hasLeft : Worker U S E → Bool
  | exited => true
  | panicked => true
  | _ => false

/-- Whether a worker has panicked. -/
def hasPanicked : Worker U S E → Bool
  | panicked => true
  | _ => false

end Worker

/-- What stays the same during a run. -/
structure Setup (U S E : Type) where
  produce : U → Outcome S E
  /-- How many symbols the symbol channel holds at most. -/
  symbolCapacity : Nat
  /-- How many failures the failure channel holds at most. -/
  errorCapacity : Nat

/-- A state of a run. -/
structure State (U S E : Type) where
  queue : List U
  workers : List (Worker U S E)
  /-- The symbols in the channel, the next one to arrive first. -/
  symbols : List S
  /-- The failures in the channel, the next one to arrive first. -/
  errors : List E
  /-- Whether a failure has cancelled the run. -/
  stopped : Bool
  /-- Whether the caller has cancelled the run. -/
  cancelled : Bool
  /-- Whether the collector has given up its own ends of the channels for sending. -/
  released : Bool
  symbolsOpen : Bool
  errorsOpen : Bool
  /-- The symbols gathered so far. -/
  gathered : List S
  firstError : Option E
  deriving Repr, DecidableEq

/-- One thing that can happen next. -/
inductive Action where
  | release
  | receiveSymbol
  | receiveError
  | work (index : Nat)
  | closeSymbols
  | closeErrors
  | cancel
  deriving Repr, DecidableEq

namespace State

/-- The state before anything has happened. -/
def initial
    (workers : Nat)
    (cancelled : Bool)
    (units : List U) :
    State U S E :=
  { queue := units
    workers := List.replicate workers .idle
    symbols := []
    errors := []
    stopped := false
    cancelled
    released := false
    symbolsOpen := true
    errorsOpen := true
    gathered := []
    firstError := none }

/-- Whether workers see the run as cancelled. -/
def isCancelled
    (state : State U S E) :
    Bool :=
  state.stopped || state.cancelled

/-- Whether nothing can be sent any more. -/
def isDisconnected
    (state : State U S E) :
    Bool :=
  state.released && state.workers.all Worker.hasLeft

/-- Whether the collector has ended and every worker has left. -/
def isFinal
    (state : State U S E) :
    Bool :=
  !state.symbolsOpen && !state.errorsOpen && state.workers.all Worker.hasLeft

/-- The state with what one worker is about to do replaced. -/
def setWorker
    (state : State U S E)
    (index : Nat)
    (worker : Worker U S E) :
    State U S E :=
  { state with workers := state.workers.set index worker }

end State

/-- What a worker does next; nothing while it waits for room in a channel. -/
def workStep?
    (setup : Setup U S E)
    (index : Nat)
    (state : State U S E) :
    Worker U S E → Option (State U S E)
  | .idle =>
      match state.queue with
      | [] => some (state.setWorker index .exited)
      | unit :: rest => some ({ state with queue := rest }.setWorker index (.holding unit))
  | .holding unit =>
      if state.isCancelled then
        some (state.setWorker index .idle)
      else
        some (state.setWorker index (.producing unit))
  | .producing unit =>
      match setup.produce unit with
      | .produced symbols => some (state.setWorker index (.sending symbols))
      | .failed error => some (state.setWorker index (.failing error))
      | .panicked => some (state.setWorker index .panicked)
  | .sending [] => some (state.setWorker index .idle)
  | .sending (symbol :: rest) =>
      if !state.symbolsOpen then
        some (state.setWorker index .exited)
      else if state.symbols.length < setup.symbolCapacity then
        some ({ state with symbols := state.symbols ++ [symbol] }.setWorker index (.sending rest))
      else
        none
  | .failing error =>
      some ({ state with stopped := true }.setWorker index (.reporting error))
  | .reporting error =>
      if !state.errorsOpen then
        some (state.setWorker index .exited)
      else if state.errors.length < setup.errorCapacity then
        some ({ state with errors := state.errors ++ [error] }.setWorker index .exited)
      else
        none
  | .exited => none
  | .panicked => none

/-- The state after an action, if the action is enabled. -/
def step?
    (setup : Setup U S E)
    (action : Action)
    (state : State U S E) :
    Option (State U S E) :=
  match action with
  | .release =>
      if state.released then none else some { state with released := true }
  | .receiveSymbol =>
      if state.released && state.symbolsOpen then
        match state.symbols with
        | [] => none
        | symbol :: rest =>
            some { state with symbols := rest, gathered := state.gathered ++ [symbol] }
      else
        none
  | .receiveError =>
      if state.released && state.errorsOpen then
        match state.errors with
        | [] => none
        | error :: rest =>
            some { state with
              errors := rest
              stopped := true
              firstError := state.firstError.or (some error) }
      else
        none
  | .work index =>
      match state.workers[index]? with
      | none => none
      | some worker => workStep? setup index state worker
  | .closeSymbols =>
      if state.symbolsOpen && state.isDisconnected && state.symbols.isEmpty then
        some { state with symbolsOpen := false }
      else
        none
  | .closeErrors =>
      if state.errorsOpen && state.isDisconnected && state.errors.isEmpty then
        some { state with errorsOpen := false }
      else
        none
  | .cancel =>
      if state.cancelled then none else some { state with cancelled := true }

/-- One action leads from a state to another one. -/
def Step
    (setup : Setup U S E)
    (action : Action)
    (before after : State U S E) :
    Prop :=
  step? setup action before = some after

/-- A sequence of actions leads from a state to another one. -/
inductive Reaches
    (setup : Setup U S E)
    (start : State U S E) :
    State U S E → Prop where
  | here : Reaches setup start start
  | next
      {before after : State U S E}
      {action : Action}
      (earlier : Reaches setup start before)
      (step : Step setup action before after) :
      Reaches setup start after

/-- How a run ends. -/
inductive Verdict (S E : Type) where
  | gathered (symbols : List S)
  | failed (error : E)
  | panicked
  | cancelled
  deriving Repr, DecidableEq

namespace State

/-- The verdict on a final state: a panic counts most, then a failure, then a cancellation. -/
def verdict
    (state : State U S E) :
    Verdict S E :=
  if state.workers.any Worker.hasPanicked then
    .panicked
  else
    match state.firstError with
    | some error => .failed error
    | none => if state.cancelled then .cancelled else .gathered state.gathered

end State

/-! ## One run -/

/-- The actions of a run with some number of workers, in the order in which one run prefers them. -/
def preferredActions
    (workers : Nat) :
    List Action :=
  [.release, .receiveSymbol, .receiveError] ++ (List.range workers).map .work ++
    [.closeSymbols, .closeErrors]

/-- The state after the first enabled action in the order of preference. -/
def preferredStep?
    (setup : Setup U S E)
    (state : State U S E) :
    Option (State U S E) :=
  (preferredActions state.workers.length).findSome? fun action => step? setup action state

/-- The run that follows the order of preference, for at most a given number of actions. -/
def runWithin
    (setup : Setup U S E) :
    Nat → State U S E → State U S E
  | 0, state => state
  | actions + 1, state =>
      match preferredStep? setup state with
      | none => state
      | some next => runWithin setup actions next

/-- How many symbols an outcome has. -/
def Outcome.size : Outcome S E → Nat
  | .produced symbols => symbols.length
  | _ => 0

/-- More actions than a unit takes. -/
def unitCost
    (setup : Setup U S E)
    (unit : U) :
    Nat :=
  5 + 2 * (setup.produce unit).size

/-- More actions than a run takes from its initial state on. -/
def runCost
    (setup : Setup U S E)
    (workers : Nat)
    (units : List U) :
    Nat :=
  units.foldr (fun unit cost => unitCost setup unit + cost) (workers + 3)

/-- How many workers take part: at least one, and no more than there are units. -/
def workerCount
    (workers units : Nat) :
    Nat :=
  max 1 (min (max 1 workers) units)

/-- The verdict of the run over units whose outcomes are given. -/
def run
    (workers capacity : Nat)
    (cancelled : Bool)
    (outcomes : List (Outcome S E)) :
    Verdict S E :=
  let count := workerCount workers outcomes.length
  let setup : Setup (Outcome S E) S E :=
    { produce := id
      symbolCapacity := max 1 capacity
      errorCapacity := count }
  (runWithin setup (runCost setup count outcomes) (.initial count cancelled outcomes)).verdict

end FanIn

end Implementers
