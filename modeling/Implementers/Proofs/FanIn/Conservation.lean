import Implementers.Proofs.FanIn.Interleaving
import Implementers.Proofs.FanIn.Moves
import Implementers.Query.Run

namespace Implementers.FanIn

/-!
# No symbol is lost or duplicated

A run is followed together with the list of the units whose resolution has ended.  As long as
nothing has gone wrong, every unit is queued, held by one worker or on that list, and what the
collector has gathered, what is in the channel and what workers still have to send are together the
symbols of the units on the list.  A worker that skips a unit, fails or panics leaves a trace that
is seen at the end, so a run that ends well has conserved every unit and every symbol.
-/

/-- The unit whose resolution ends when a worker moves. -/
def Worker.resolving : Worker U S E → List U
  | producing unit => [unit]
  | _ => []

/-- The unit whose resolution ends with an action, if there is one. -/
def resolvedBy
    (before : State U S E) :
    Action → List U
  | .work index => (before.workers[index]?.map Worker.resolving).getD []
  | _ => []

/-- A run to a state together with the units whose resolution has ended on the way, in order. -/
inductive Logged
    (setup : Setup U S E)
    (start : State U S E) :
    List U → State U S E → Prop where
  | here : Logged setup start [] start
  | next
      {log : List U}
      {before after : State U S E}
      {action : Action}
      (earlier : Logged setup start log before)
      (step : Step setup action before after) :
      Logged setup start (log ++ resolvedBy before action) after

/-- Every run has such a list. -/
theorem Reaches.exists_logged
    {setup : Setup U S E}
    {start state : State U S E}
    (reaches : Reaches setup start state) :
    ∃ log, Logged setup start log state := by
  induction reaches with
  | here => exact ⟨[], .here⟩
  | next _ step inductionHypothesis =>
      obtain ⟨log, logged⟩ := inductionHypothesis
      exact ⟨_, logged.next step⟩

/-- A run with its list is a run. -/
theorem Logged.reaches
    {setup : Setup U S E}
    {start state : State U S E}
    {log : List U}
    (logged : Logged setup start log state) :
    Reaches setup start state := by
  induction logged with
  | here => exact .here
  | next _ step inductionHypothesis => exact .next inductionHypothesis step

/-- The list and the state after actions that are enabled one after the other. -/
def follow?
    (setup : Setup U S E)
    (log : List U)
    (state : State U S E) :
    List Action → Option (List U × State U S E)
  | [] => some (log, state)
  | action :: rest =>
      match step? setup action state with
      | none => none
      | some next => follow? setup (log ++ resolvedBy state action) next rest

/-- Following actions that are enabled one after the other is a run. -/
theorem Logged.follow
    {setup : Setup U S E}
    {start state final : State U S E}
    {log logAfter : List U}
    (logged : Logged setup start log state)
    (actions : List Action)
    (followed : follow? setup log state actions = some (logAfter, final)) :
    Logged setup start logAfter final := by
  induction actions generalizing log state with
  | nil =>
      cases followed
      exact logged
  | cons action rest inductionHypothesis =>
      unfold follow? at followed
      split at followed
      case h_1 => cases followed
      case h_2 next step => exact inductionHypothesis (logged.next step) followed

/-! ## What holds in every state of a run -/

/-- A worker that moves has not left. -/
theorem Works.hasLeft
    {setup : Setup U S E}
    {state shared : State U S E}
    {worker next : Worker U S E}
    (works : Works setup state worker shared next) :
    worker.hasLeft = false := by
  cases works <;> rfl

/-- A worker that moves changes no entry of the list of workers by itself. -/
theorem Works.workers
    {setup : Setup U S E}
    {state shared : State U S E}
    {worker next : Worker U S E}
    (works : Works setup state worker shared next) :
    shared.workers = state.workers := by
  cases works <;> rfl

/-- A worker that moves opens and closes no channel. -/
theorem Works.channels
    {setup : Setup U S E}
    {state shared : State U S E}
    {worker next : Worker U S E}
    (works : Works setup state worker shared next) :
    shared.symbolsOpen = state.symbolsOpen ∧ shared.errorsOpen = state.errorsOpen := by
  cases works <;> exact ⟨rfl, rfl⟩

/-- What holds in every state of a run with a given number of workers. -/
structure Consistent
    (workers : Nat)
    (state : State U S E) :
    Prop where
  size : state.workers.length = workers
  symbolsClosed :
    state.symbolsOpen = false → state.workers.all Worker.hasLeft ∧ state.symbols = []
  errorsClosed :
    state.errorsOpen = false → state.workers.all Worker.hasLeft ∧ state.errors = []
  reporting : ∀ error, .reporting error ∈ state.workers → state.stopped
  stopped :
    state.stopped →
      state.firstError.isSome ∨ state.errors ≠ [] ∨
        ∃ error, .reporting error ∈ state.workers

namespace Consistent

/-- The initial state is consistent. -/
theorem initial
    (workers : Nat)
    (cancelled : Bool)
    (units : List U) :
    Consistent workers (State.initial workers cancelled units : State U S E) where
  size := by simp [State.initial]
  symbolsClosed := by simp [State.initial]
  errorsClosed := by simp [State.initial]
  reporting := by simp [State.initial]
  stopped := by simp [State.initial]

/-- While some worker has not left, both channels are open. -/
theorem isOpen
    {workers : Nat}
    {state : State U S E}
    (consistent : Consistent workers state)
    {worker : Worker U S E}
    (member : worker ∈ state.workers)
    (present : worker.hasLeft = false) :
    state.symbolsOpen ∧ state.errorsOpen := by
  have notAll : ¬ state.workers.all Worker.hasLeft := by
    intro all
    simpa [present] using List.all_eq_true.mp all worker member
  constructor
  · by_contra closed
    exact notAll (consistent.symbolsClosed (by simpa using closed)).1
  · by_contra closed
    exact notAll (consistent.errorsClosed (by simpa using closed)).1

/-- A worker's move keeps a state consistent. -/
theorem work
    {setup : Setup U S E}
    {workers index : Nat}
    {state shared : State U S E}
    {worker next : Worker U S E}
    (consistent : Consistent workers state)
    (present : state.workers[index]? = some worker)
    (works : Works setup state worker shared next) :
    Consistent workers (shared.setWorker index next) := by
  have channelsOpen :=
    consistent.isOpen (List.mem_of_getElem? present) works.hasLeft
  obtain ⟨others, before, after⟩ := exists_perm_set present
  have entries (entry : Worker U S E) :
      entry ∈ (shared.setWorker index next).workers ↔ entry = next ∨ entry ∈ others := by
    simp only [State.setWorker, works.workers]
    exact (after next).mem_iff.trans List.mem_cons
  have earlier {entry : Worker U S E} (member : entry ∈ others) :
      entry ∈ state.workers :=
    before.mem_iff.mpr (List.mem_cons_of_mem worker member)
  refine ⟨?_, ?_, ?_, ?_, ?_⟩
  · simp [State.setWorker, works.workers, consistent.size]
  · simp [State.setWorker, works.channels.1, channelsOpen.1]
  · simp [State.setWorker, works.channels.2, channelsOpen.2]
  · intro error member
    rcases (entries _).mp member with isNext | inOthers
    · subst isNext
      cases works
      rfl
    · have stopped := consistent.reporting error (earlier inOthers)
      cases works <;> first | exact stopped | rfl
  · intro stopped
    cases works with
    | stop => exact .inr (.inr ⟨_, (entries _).mpr (.inl rfl)⟩)
    | forget closed => simp [channelsOpen.2] at closed
    | report isOpen room => exact .inr (.inl (by simp [State.setWorker]))
    | _ =>
        rcases consistent.stopped stopped with found | queued | ⟨error, member⟩
        · exact .inl found
        · exact .inr (.inl queued)
        · refine .inr (.inr ⟨error, (entries _).mpr (.inr ?_)⟩)
          rcases List.mem_cons.mp (before.mem_iff.mp member) with isWorker | inOthers
          · cases isWorker
          · exact inOthers

/-- Every move keeps a state consistent. -/
theorem move
    {setup : Setup U S E}
    {workers : Nat}
    {action : Action}
    {before after : State U S E}
    (consistent : Consistent workers before)
    (move : Move setup before action after) :
    Consistent workers after := by
  cases move with
  | release | cancel => exact { consistent with }
  | receiveSymbol released isOpen queued =>
      exact { consistent with symbolsClosed := by simp [isOpen] }
  | receiveError released isOpen queued =>
      exact { consistent with
        errorsClosed := by simp [isOpen]
        reporting := fun _ _ => rfl
        stopped := fun _ => .inl (by cases before.firstError <;> rfl) }
  | work present works => exact consistent.work present works
  | closeSymbols isOpen disconnected drained =>
      rw [State.isDisconnected, Bool.and_eq_true] at disconnected
      exact { consistent with symbolsClosed := fun _ => ⟨disconnected.2, drained⟩ }
  | closeErrors isOpen disconnected drained =>
      rw [State.isDisconnected, Bool.and_eq_true] at disconnected
      exact { consistent with errorsClosed := fun _ => ⟨disconnected.2, drained⟩ }

/-- Every state of a run is consistent. -/
theorem reached
    {setup : Setup U S E}
    {workers : Nat}
    {start state : State U S E}
    (consistent : Consistent workers start)
    (reaches : Reaches setup start state) :
    Consistent workers state := by
  induction reaches with
  | here => exact consistent
  | next _ step inductionHypothesis => exact inductionHypothesis.move step.move

end Consistent

/-! ## What is conserved while nothing goes wrong -/

namespace Worker

/-- The units that a worker has taken and not resolved yet. -/
def held : Worker U S E → List U
  | holding unit => [unit]
  | producing unit => [unit]
  | _ => []

/-- The symbols that a worker still has to send. -/
def unsent : Worker U S E → List (List S)
  | sending symbols => [symbols]
  | _ => []

/-- Whether a worker has met neither a failure nor a panic. -/
def isOrderly : Worker U S E → Bool
  | failing _ => false
  | reporting _ => false
  | panicked => false
  | _ => true

end Worker

/-- The symbols of a unit; a unit that cannot be resolved has none. -/
def Setup.symbolsOf
    (setup : Setup U S E)
    (unit : U) :
    List S :=
  match setup.produce unit with
  | .produced symbols => symbols
  | _ => []

/-- Nothing has gone wrong: the run goes on, and no worker has met a failure or a panic. -/
structure Undisturbed
    (state : State U S E) :
    Prop where
  running : state.isCancelled = false
  orderly : ∀ worker ∈ state.workers, worker.isOrderly

/-- What went wrong once is seen from then on. -/
theorem Undisturbed.before
    {setup : Setup U S E}
    {workers : Nat}
    {action : Action}
    {before after : State U S E}
    (undisturbed : Undisturbed after)
    (consistent : Consistent workers before)
    (move : Move setup before action after) :
    Undisturbed before := by
  have running := undisturbed.running
  cases move with
  | receiveError => simp [State.isCancelled] at running
  | cancel => simp [State.isCancelled] at running
  | @work index worker next shared present works =>
      obtain ⟨others, permBefore, permAfter⟩ := exists_perm_set present
      have entries (entry : Worker U S E) :
          entry ∈ (shared.setWorker index next).workers ↔ entry = next ∨ entry ∈ others := by
        simp only [State.setWorker, works.workers]
        exact (permAfter next).mem_iff.trans List.mem_cons
      have unstopped :
          ∀ error, worker ≠ .reporting error := by
        rintro error rfl
        have stopped := consistent.reporting error (List.mem_of_getElem? present)
        cases works <;> simp [State.isCancelled, State.setWorker, stopped] at running
      refine ⟨?_, fun entry member => ?_⟩
      · cases works <;> simp_all [State.isCancelled, State.setWorker]
      · rcases List.mem_cons.mp (permBefore.mem_iff.mp member) with isWorker | inOthers
        · subst entry
          cases works with
          | stop => simp [State.isCancelled, State.setWorker] at running
          | forget => exact (unstopped _ rfl).elim
          | report => exact (unstopped _ rfl).elim
          | _ => rfl
        · exact undisturbed.orderly entry ((entries entry).mpr (.inr inOthers))
  | _ => exact ⟨running, undisturbed.orderly⟩

/--
What is conserved: every unit is resolved, queued or held, and the symbols of the resolved units
are gathered, in the channel or still to be sent.
-/
structure Conserved
    (setup : Setup U S E)
    (units log : List U)
    (state : State U S E) :
    Prop where
  accounted : (log ++ (state.queue ++ state.workers.flatMap Worker.held)).Perm units
  resolved : ∀ unit ∈ log, ∃ symbols, setup.produce unit = .produced symbols
  merged :
    ∃ rests finished,
      Merges (log.map setup.symbolsOf) (state.gathered ++ state.symbols) rests ∧
        rests.Perm (state.workers.flatMap Worker.unsent ++ finished) ∧
          ∀ rest ∈ finished, rest = []
  drained : .exited ∈ state.workers → state.queue = []

namespace Conserved

/-- At the beginning every unit is queued. -/
theorem initial
    (setup : Setup U S E)
    (workers : Nat)
    (cancelled : Bool)
    (units : List U) :
    Conserved setup units [] (State.initial workers cancelled units) where
  accounted := by
    have noneHeld :
        (List.replicate workers (.idle : Worker U S E)).flatMap Worker.held = [] := by
      simp [List.flatMap_eq_nil_iff, Worker.held]
    simp [State.initial, noneHeld]
  resolved := by simp
  merged := by
    have noneUnsent :
        (List.replicate workers (.idle : Worker U S E)).flatMap Worker.unsent = [] := by
      simp [List.flatMap_eq_nil_iff, Worker.unsent]
    exact ⟨[], [], .start, by simp [State.initial, noneUnsent], by simp⟩
  drained := by simp [State.initial]

/-- The places of the workers do not matter. -/
theorem of_perm
    {setup : Setup U S E}
    {units log : List U}
    {state : State U S E}
    {workers : List (Worker U S E)}
    (conserved : Conserved setup units log state)
    (same : state.workers.Perm workers) :
    Conserved setup units log { state with workers } where
  accounted :=
    (((same.symm.flatMap_right Worker.held).append_left state.queue).append_left log).trans
      conserved.accounted
  resolved := conserved.resolved
  merged := by
    obtain ⟨rests, finished, merges, restsPerm, finishedEmpty⟩ := conserved.merged
    exact ⟨rests, finished, merges,
      restsPerm.trans ((same.flatMap_right Worker.unsent).append_right finished), finishedEmpty⟩
  drained := fun exited => conserved.drained (same.mem_iff.mpr exited)

/--
The first worker's move conserves units and symbols.  Moves by which something goes wrong, or that
are made only after something has gone wrong, are excluded by the hypotheses.
-/
theorem workHead
    {setup : Setup U S E}
    {units log : List U}
    {state shared : State U S E}
    {worker next : Worker U S E}
    {others : List (Worker U S E)}
    (conserved : Conserved setup units log { state with workers := worker :: others })
    (works : Works setup state worker shared next)
    (running : state.isCancelled = false)
    (isOpen : state.symbolsOpen)
    (orderly : worker.isOrderly ∧ next.isOrderly) :
    Conserved setup units (log ++ worker.resolving)
      { shared with workers := next :: others } := by
  obtain ⟨accounted, resolved, ⟨rests, finished, merges, restsPerm, finishedEmpty⟩, drained⟩ :=
    conserved
  -- All moves but the production of symbols leave the list of resolved units alone.
  have unlogged (quiet : worker.resolving = []) : log ++ worker.resolving = log := by
    rw [quiet, List.append_nil]
  cases works with
  | leave queueEmpty =>
      rw [unlogged rfl]
      exact ⟨by simpa [Worker.held] using accounted, resolved,
        ⟨rests, finished, merges, restsPerm, finishedEmpty⟩, fun _ => queueEmpty⟩
  | @take unit rest queued =>
      rw [unlogged rfl]
      refine ⟨?_, resolved, ⟨rests, finished, merges, restsPerm, finishedEmpty⟩,
        fun exited => ?_⟩
      · have moved :
            (rest ++ unit :: others.flatMap Worker.held).Perm
              (unit :: rest ++ others.flatMap Worker.held) :=
          List.perm_middle
        simp only [queued, List.flatMap_cons, Worker.held, List.nil_append] at accounted
        simpa [Worker.held] using (moved.append_left log).trans accounted
      · have queueEmpty : state.queue = [] := drained (by simpa using exited)
        rw [queueEmpty] at queued
        cases queued
  | skip cancelled => simp [running] at cancelled
  | start =>
      rw [unlogged rfl]
      exact ⟨by simpa [Worker.held] using accounted, resolved,
        ⟨rests, finished, merges, restsPerm, finishedEmpty⟩,
        fun exited => drained (by simpa using exited)⟩
  | @produce unit symbols outcome =>
      refine ⟨?_, ?_, ⟨rests ++ [symbols], finished, ?_, ?_, finishedEmpty⟩,
        fun exited => drained (by simpa using exited)⟩
      · have moved :
            (unit :: (state.queue ++ others.flatMap Worker.held)).Perm
              (state.queue ++ unit :: others.flatMap Worker.held) :=
          List.perm_middle.symm
        simpa [Worker.resolving, Worker.held] using (moved.append_left log).trans accounted
      · intro other member
        rcases List.mem_append.mp member with inLog | isUnit
        · exact resolved other inLog
        · rw [List.mem_singleton.mp isUnit]
          exact ⟨symbols, outcome⟩
      · have produced : setup.symbolsOf unit = symbols := by
          simp [Setup.symbolsOf, outcome]
        simpa [Worker.resolving, produced] using merges.append symbols
      · exact (List.perm_append_singleton symbols rests).trans (restsPerm.cons symbols)
  | fail => cases orderly.2
  | panic => cases orderly.2
  | finish =>
      rw [unlogged rfl]
      refine ⟨by simpa [Worker.held] using accounted, resolved,
        ⟨rests, [] :: finished, merges, ?_, ?_⟩, fun exited => drained (by simpa using exited)⟩
      · exact restsPerm.trans List.perm_middle.symm
      · intro rest member
        rcases List.mem_cons.mp member with isEmpty | inFinished
        · exact isEmpty
        · exact finishedEmpty rest inFinished
  | hangUp closed => simp [isOpen] at closed
  | @send symbol rest =>
      rw [unlogged rfl]
      obtain ⟨restsAfter, mergesAfter, permRests⟩ := merges.take_of_perm restsPerm
      exact ⟨by simpa [Worker.held] using accounted, resolved,
        ⟨restsAfter, finished, by simpa using mergesAfter, permRests, finishedEmpty⟩,
        fun exited => drained (by simpa using exited)⟩
  | stop => cases orderly.1
  | forget => cases orderly.1
  | report => cases orderly.1

/-- Every move conserves units and symbols, as long as nothing goes wrong. -/
theorem move
    {setup : Setup U S E}
    {workers : Nat}
    {units log : List U}
    {action : Action}
    {before after : State U S E}
    (conserved : Conserved setup units log before)
    (consistent : Consistent workers before)
    (move : Move setup before action after)
    (undisturbed : Undisturbed after) :
    Conserved setup units (log ++ resolvedBy before action) after := by
  have earlier : Undisturbed before := undisturbed.before consistent move
  cases move with
  | receiveSymbol released isOpen queued =>
      obtain ⟨rests, finished, merges, restsPerm, finishedEmpty⟩ := conserved.merged
      exact ⟨by simpa [resolvedBy] using conserved.accounted,
        by simpa [resolvedBy] using conserved.resolved,
        ⟨rests, finished, by simpa [resolvedBy, queued] using merges, restsPerm, finishedEmpty⟩,
        conserved.drained⟩
  | receiveError =>
      have running := undisturbed.running
      simp [State.isCancelled] at running
  | @work index worker next shared present works =>
      have member := List.mem_of_getElem? present
      obtain ⟨others, permBefore, permAfter⟩ := exists_perm_set present
      have entries : (next :: others).Perm (shared.setWorker index next).workers := by
        simpa only [State.setWorker, works.workers] using (permAfter next).symm
      have orderlyNext : next.isOrderly :=
        undisturbed.orderly next (entries.mem_iff.mp List.mem_cons_self)
      have moved :=
        (conserved.of_perm permBefore).workHead works earlier.running
          (consistent.isOpen member works.hasLeft).1 ⟨earlier.orderly worker member, orderlyNext⟩
      have placed :
          Conserved setup units (log ++ worker.resolving) (shared.setWorker index next) :=
        moved.of_perm entries
      simpa [resolvedBy, present] using placed
  | _ => simpa [resolvedBy] using { conserved with }

end Conserved

/-- A run in which nothing has gone wrong has conserved all units and symbols. -/
theorem Logged.conserved
    {setup : Setup U S E}
    {workers : Nat}
    {cancelled : Bool}
    {units log : List U}
    {state : State U S E}
    (logged : Logged setup (.initial workers cancelled units) log state)
    (undisturbed : Undisturbed state) :
    Conserved setup units log state := by
  induction logged with
  | here => exact .initial setup workers cancelled units
  | next earlier step inductionHypothesis =>
      have consistent :=
        (Consistent.initial workers cancelled units).reached earlier.reaches
      exact (inductionHypothesis (undisturbed.before consistent step.move)).move consistent
        step.move undisturbed

/-- Whatever goes wrong is seen in the verdict on a final state. -/
theorem Consistent.undisturbed
    {workers : Nat}
    {state : State U S E}
    {gathered : List S}
    (consistent : Consistent workers state)
    (ended : state.isFinal)
    (verdict : state.verdict = .gathered gathered) :
    Undisturbed state ∧ state.gathered = gathered := by
  simp only [State.isFinal, Bool.and_eq_true, Bool.not_eq_true'] at ended
  obtain ⟨⟨symbolsClosed, errorsClosed⟩, allLeft⟩ := ended
  unfold State.verdict at verdict
  split at verdict
  case isTrue => cases verdict
  case isFalse noPanic =>
    split at verdict
    case h_1 => cases verdict
    case h_2 noError =>
      split at verdict
      case isTrue => cases verdict
      case isFalse uncancelled =>
        have present (worker : Worker U S E) (member : worker ∈ state.workers) :
            worker.hasLeft := by
          exact List.all_eq_true.mp allLeft worker member
        have unstopped : state.stopped = false := by
          by_contra stopped
          rcases consistent.stopped (by simpa using stopped) with
              found | queued | ⟨error, member⟩
          · simp [noError] at found
          · exact queued (consistent.errorsClosed errorsClosed).2
          · cases present _ member
        refine ⟨⟨by simp [State.isCancelled, unstopped, uncancelled], fun worker member => ?_⟩,
          Verdict.gathered.inj verdict⟩
        have noPanicHere : worker.hasPanicked = false := by
          by_contra panicked
          exact noPanic (List.any_eq_true.mpr ⟨worker, member, by simpa using panicked⟩)
        have left := present worker member
        cases worker with
        | exited => rfl
        | panicked => cases noPanicHere
        | _ => cases left

/--
A run that ends well has resolved every unit exactly once, each of them successfully, and has
gathered an interleaving of their symbols.
-/
theorem Logged.interleaving
    {setup : Setup U S E}
    {workers : Nat}
    {cancelled : Bool}
    {units log : List U}
    {final : State U S E}
    {gathered : List S}
    (logged : Logged setup (.initial (workers + 1) cancelled units) log final)
    (ended : final.isFinal)
    (verdict : final.verdict = .gathered gathered) :
    log.Perm units ∧
      (∀ unit ∈ units, ∃ symbols, setup.produce unit = .produced symbols) ∧
        Interleaving (units.map setup.symbolsOf) gathered := by
  have consistent :=
    (Consistent.initial (workers + 1) cancelled units).reached logged.reaches
  obtain ⟨undisturbed, rfl⟩ := consistent.undisturbed ended verdict
  obtain ⟨accounted, resolved, ⟨rests, finished, merges, restsPerm, finishedEmpty⟩, drained⟩ :=
    logged.conserved undisturbed
  simp only [State.isFinal, Bool.and_eq_true, Bool.not_eq_true'] at ended
  obtain ⟨⟨symbolsClosed, errorsClosed⟩, allLeft⟩ := ended
  have exited (worker : Worker U S E) (member : worker ∈ final.workers) : worker = .exited := by
    have left := List.all_eq_true.mp allLeft worker member
    have orderly := undisturbed.orderly worker member
    cases worker with
    | exited => rfl
    | panicked => cases orderly
    | _ => cases left
  have queueEmpty : final.queue = [] := by
    obtain ⟨worker, member⟩ :=
      List.exists_mem_of_length_pos (by rw [consistent.size]; exact Nat.succ_pos workers)
    exact drained (exited worker member ▸ member)
  have nothingHeld : final.workers.flatMap Worker.held = [] := by
    rw [List.flatMap_eq_nil_iff]
    intro worker member
    rw [exited worker member]
    rfl
  have nothingUnsent : final.workers.flatMap Worker.unsent = [] := by
    rw [List.flatMap_eq_nil_iff]
    intro worker member
    rw [exited worker member]
    rfl
  have all : log.Perm units := by
    simpa [queueEmpty, nothingHeld] using accounted
  refine ⟨all, fun unit member => resolved unit (all.mem_iff.mpr member), ?_⟩
  have interleaving : Interleaving (log.map setup.symbolsOf) final.gathered := by
    refine ⟨rests, by simpa [(consistent.symbolsClosed symbolsClosed).2] using merges, ?_⟩
    intro rest member
    rw [nothingUnsent, List.nil_append] at restsPerm
    exact finishedEmpty rest (restsPerm.mem_iff.mp member)
  exact interleaving.perm (all.map setup.symbolsOf)

end Implementers.FanIn
