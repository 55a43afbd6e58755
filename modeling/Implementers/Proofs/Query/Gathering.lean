import Implementers.Proofs.FanIn.Conservation
import Implementers.Query.Run
import Mathlib

namespace Implementers.Query

/-!
# Gathering the symbols of all units

The fan-in of a query takes the units of a walk, asks a frontend for the symbols of each, leaves out
those without a usable name and gathers the others.  When it ends well, whatever the number of
workers, the capacity of the channel and the order of events, the universe is an interleaving of the
units' named symbols.
-/

/-- What resolves units: it answers with symbols or an error, or it panics and gives no answer. -/
abbrev Frontend := SourceUnit → Option (Except UnitError (SymbolTable × List Warning))

namespace Frontend

/-- What becomes of asking a frontend for the symbols of a unit. -/
def outcome
    (frontend : Frontend)
    (unit : SourceUnit) :
    UnitOutcome :=
  match frontend unit with
  | some resolved => unitOutcome unit resolved
  | none => .panicked

/-- The symbols of a unit that have a name by which they can be found. -/
def namedSymbols
    (frontend : Frontend)
    (unit : SourceUnit) :
    List Symbol :=
  match frontend unit with
  | some (.ok (table, _)) => table.symbols.filter Symbol.isNamed
  | _ => []

/-- The fan-in over units with a number of workers and a capacity asked for. -/
def setup
    (frontend : Frontend)
    (workers capacity : Nat)
    (units : List SourceUnit) :
    FanIn.Setup SourceUnit Symbol ResolutionError :=
  { produce := frontend.outcome
    symbolCapacity := max 1 capacity
    errorCapacity := FanIn.workerCount workers units.length }

/-- A unit whose outcome has symbols was resolved, and those are its named symbols. -/
theorem outcome_produced
    {frontend : Frontend}
    {unit : SourceUnit}
    {symbols : List Symbol}
    (produced : frontend.outcome unit = .produced symbols) :
    ∃ table warnings, frontend unit = some (.ok (table, warnings)) := by
  cases answer : frontend unit with
  | none => simp [outcome, answer] at produced
  | some resolved =>
      cases resolved with
      | error cause => simp [outcome, answer, unitOutcome] at produced
      | ok found => exact ⟨found.1, found.2, rfl⟩

/-- The symbols of a unit's outcome are its named symbols. -/
theorem symbolsOf_setup
    (frontend : Frontend)
    (workers capacity : Nat)
    (units : List SourceUnit) :
    (frontend.setup workers capacity units).symbolsOf = frontend.namedSymbols := by
  funext unit
  simp only [FanIn.Setup.symbolsOf, setup, outcome, namedSymbols]
  cases frontend unit with
  | none => rfl
  | some resolved => cases resolved <;> rfl

end Frontend

/--
However the workers are scheduled and whenever the caller cancels, a fan-in that ends well has
resolved every unit exactly once and successfully, and its universe is an interleaving of the units'
named symbols: each occurs as often as its unit produced it, and those of one unit keep their order.
-/
theorem universe_interleaving
    (frontend : Frontend)
    (workers capacity : Nat)
    (cancelled : Bool)
    (units : List SourceUnit)
    {log : List SourceUnit}
    {final : FanIn.State SourceUnit Symbol ResolutionError}
    {symbols : Universe}
    (run :
      FanIn.Logged (frontend.setup workers capacity units)
        (.initial (FanIn.workerCount workers units.length) cancelled units) log final)
    (ended : final.isFinal)
    (verdict : final.verdict = .gathered symbols) :
    log.Perm units ∧
      (∀ unit ∈ units, ∃ table warnings, frontend unit = some (.ok (table, warnings))) ∧
      FanIn.Interleaving (units.map frontend.namedSymbols) symbols ∧
      symbols.Perm (units.flatMap frontend.namedSymbols) ∧
      ∀ unit ∈ units, (frontend.namedSymbols unit).Sublist symbols := by
  obtain ⟨others, count⟩ :
      ∃ others, FanIn.workerCount workers units.length = others + 1 :=
    Nat.exists_eq_succ_of_ne_zero (by unfold FanIn.workerCount; omega)
  rw [count] at run
  obtain ⟨all, produced, interleaving⟩ := run.interleaving ended verdict
  rw [Frontend.symbolsOf_setup] at interleaving
  refine ⟨all, fun unit member => ?_, interleaving, interleaving.perm_flatten,
    fun unit member => ?_⟩
  · obtain ⟨found, outcome⟩ := produced unit member
    exact Frontend.outcome_produced outcome
  · exact interleaving.sublist (List.mem_map_of_mem member)

/-- A frontend that finds one type in every unit, named after the unit's path. -/
def oneTypeEach : Frontend :=
  fun unit =>
    some (.ok
      (⟨some unit.path,
        [ { name := unit.path.text
            package := ⟨unit.path, "p"⟩
            kind := .concrete
            pointer := false
            position := ⟨unit.path, 1, 1⟩
            declaration := ⟨unit.path, 1, 1⟩
            methods := .empty
            isPartial := false } ]⟩, []))

/-- Two workers and a channel for one symbol, where the second unit's symbol arrives first. -/
theorem universe_interleaving_swapped :
    let units := [SourceUnit.single ⟨"a"⟩, SourceUnit.single ⟨"b"⟩]
    FanIn.Interleaving (units.map oneTypeEach.namedSymbols)
      (oneTypeEach.namedSymbols (.single ⟨"b"⟩) ++ oneTypeEach.namedSymbols (.single ⟨"a"⟩)) := by
  intro units
  let final : FanIn.State SourceUnit Symbol ResolutionError :=
    { queue := []
      workers := [.exited, .exited]
      symbols := []
      errors := []
      stopped := false
      cancelled := false
      released := true
      symbolsOpen := false
      errorsOpen := false
      gathered :=
        oneTypeEach.namedSymbols (.single ⟨"b"⟩) ++ oneTypeEach.namedSymbols (.single ⟨"a"⟩)
      firstError := none }
  have followed :
      FanIn.follow? (oneTypeEach.setup 2 1 units) []
          (.initial (FanIn.workerCount 2 units.length) false units)
          [.release, .work 0, .work 1, .work 1, .work 0, .work 1, .work 0, .work 1, .receiveSymbol,
            .work 0, .work 1, .work 0, .receiveSymbol, .work 0, .work 1, .closeErrors,
            .closeSymbols] =
        some (units.reverse, final) := by
    cbv
  exact (universe_interleaving oneTypeEach 2 1 false units (FanIn.Logged.here.follow _ followed)
    (by rfl) (by rfl)).2.2.1

end Implementers.Query
