import Implementers.Proofs.FanIn.Outcome
import Implementers.Proofs.FanIn.Progress
import Implementers.Proofs.Files.Units
import Implementers.Proofs.Query.Arrival
import Implementers.Proofs.Query.Gathering

namespace Implementers.Query

/-!
# Scheduling and the answer to a query

A query may end in as many ways as its workers can be scheduled.  Whether it succeeds does not
depend on that.  Neither do the rows of its report, as long as every import path that occurs in a
method set is provided by one unit at most: of two units with one import path, the one whose symbol
arrives first decides what the path stands for.
-/

/-- The frontend that resolves the units of a file system. -/
def resolving
    (files : FileSystem) :
    Frontend :=
  fun unit => some (resolveUnit files unit)

/-- The matches among the symbols that were gathered from units. -/
def matchesIn
    (config : Config)
    (units : List SourceUnit)
    (symbols : Universe) :
    List Match :=
  (Matching.find config.concreteOnly ((ImportIndex.ofUnits units).localize symbols)
    config.interface).1

/-- The answer to a query whose fan-in has ended with a verdict. -/
def answerOf
    (config : Config)
    (units : List SourceUnit) :
    FanIn.Verdict Symbol ResolutionError → Except QueryError (List Match)
  | .gathered symbols => .ok (matchesIn config units symbols)
  | .failed error => .error (.resolution error)
  | .panicked => .error .workerPanicked
  | .cancelled => .error .cancelled

/-- The answers that a query may give, depending on how its workers are scheduled. -/
inductive Answers
    (files : FileSystem)
    (config : Config) :
    Except QueryError (List Match) → Prop where
  | unwalked
      {error : QueryError}
      (failed : walked files config = .error error) :
      Answers files config (.error error)
  | resolved
      {units : List SourceUnit}
      {warnings : List Warning}
      {verdict : FanIn.Verdict Symbol ResolutionError}
      (walk : walked files config = .ok (units, warnings))
      (ends :
        FanIn.MayEnd config.workers config.capacity (units.map (resolving files).outcome)
          verdict) :
      Answers files config (answerOf config units verdict)

/-- The answer that a query finds is one of those that it may give. -/
theorem answers_find
    (files : FileSystem)
    (config : Config) :
    Answers files config ((find files config false).map Prod.fst) := by
  unfold find
  cases walk : walked files config with
  | error error => exact .unwalked walk
  | ok found =>
      obtain ⟨units, warnings⟩ := found
      have answers :=
        Answers.resolved walk
          (FanIn.mayEnd_run config.workers config.capacity (units.map (resolving files).outcome))
      have outcomes :
          (units.map fun unit => (unit, resolveUnit files unit)).map
              (fun entry => unitOutcome entry.1 entry.2) =
            units.map (resolving files).outcome := by
        rw [List.map_map]
        rfl
      simp only [bind, Except.bind, outcomes, gather]
      cases verdict :
          FanIn.run config.workers config.capacity false (units.map (resolving files).outcome) with
      | _ => rw [verdict] at answers; exact answers

/-- A fan-in ends well exactly when every unit can be resolved, and gathers their named symbols. -/
theorem gathered_of_mayEnd
    {files : FileSystem}
    {workers capacity : Nat}
    {units : List SourceUnit}
    {verdict : FanIn.Verdict Symbol ResolutionError}
    (ends : FanIn.MayEnd workers capacity (units.map (resolving files).outcome) verdict) :
    ((∃ symbols, verdict = .gathered symbols) ↔
        ∀ unit ∈ units, ∃ symbols, (resolving files).outcome unit = .produced symbols) ∧
      ∀ symbols, verdict = .gathered symbols →
        FanIn.Interleaving (units.map (resolving files).namedSymbols) symbols := by
  obtain ⟨final, reaches, isFinal, uncancelled, rfl⟩ := ends
  obtain ⟨others, count⟩ :
      ∃ others,
        FanIn.workerCount workers (units.map (resolving files).outcome).length = others + 1 :=
    Nat.exists_eq_succ_of_ne_zero (by unfold FanIn.workerCount; omega)
  rw [count] at reaches
  obtain ⟨gathers, interleaving⟩ := reaches.gathers isFinal uncancelled
  refine ⟨gathers.trans (by simp [FanIn.outcomeSetup]), fun symbols verdict => ?_⟩
  have named :
      (units.map (resolving files).outcome).map
          (FanIn.outcomeSetup workers capacity (units.map (resolving files).outcome)).symbolsOf =
        units.map (resolving files).namedSymbols := by
    rw [List.map_map, ← Frontend.symbolsOf_setup (resolving files) workers capacity units]
    rfl
  exact named ▸ interleaving symbols verdict

/-! ## What the units have in common -/

/-- Whether a unit has a named symbol of a package that can be imported by a path. -/
def Provides
    (files : FileSystem)
    (units : List SourceUnit)
    (path : String)
    (unit : SourceUnit) :
    Prop :=
  ∃ symbol ∈ (resolving files).namedSymbols unit, (ImportIndex.ofUnits units).provides path symbol

/-- The import paths that own named types in a method set. -/
def importedPaths
    (methods : MethodSet) :
    List String :=
  methods.occurrences.filterMap fun occurrence =>
    match occurrence.1 with
    | .imported path => some path
    | _ => none

/-- Whether every import path that occurs in a method set is provided by one unit at most. -/
def Unambiguous
    (files : FileSystem)
    (units : List SourceUnit) :
    Prop :=
  ∀ unit ∈ units, ∀ symbol ∈ (resolving files).namedSymbols unit,
    ∀ path ∈ importedPaths symbol.methods,
      units.Pairwise fun left right =>
        Provides files units path left → ¬ Provides files units path right

instance
    (files : FileSystem)
    (units : List SourceUnit)
    (path : String)
    (unit : SourceUnit) :
    Decidable (Provides files units path unit) :=
  inferInstanceAs (Decidable (∃ symbol ∈ _, _))

instance
    (files : FileSystem)
    (units : List SourceUnit) :
    Decidable (Unambiguous files units) :=
  inferInstanceAs (Decidable (∀ unit ∈ units, _))

/-- Every named symbol of a unit comes from it. -/
theorem comesFrom_of_mem_namedSymbols
    {files : FileSystem}
    {unit : SourceUnit}
    {symbol : Symbol}
    (member : symbol ∈ (resolving files).namedSymbols unit) :
    symbol.ComesFrom files unit := by
  cases resolved : resolveUnit files unit with
  | error _ => simp [Frontend.namedSymbols, resolving, resolved] at member
  | ok found =>
      simp only [Frontend.namedSymbols, resolving, resolved, List.mem_filter] at member
      exact resolveUnit_comesFrom resolved member.1

/-- Symbols that only one unit can have arrive in the order in which the unit has them. -/
theorem filter_gathered
    {files : FileSystem}
    {units : List SourceUnit}
    {symbols : Universe}
    (gathered : FanIn.Interleaving (units.map (resolving files).namedSymbols) symbols)
    {belongs : Symbol → Bool}
    (alone :
      units.Pairwise fun left right =>
        (∃ symbol ∈ (resolving files).namedSymbols left, belongs symbol) →
          ¬ ∃ symbol ∈ (resolving files).namedSymbols right, belongs symbol) :
    symbols.filter belongs =
      (units.flatMap (resolving files).namedSymbols).filter belongs := by
  rw [List.flatMap_def]
  refine gathered.filter_eq (List.pairwise_map.mpr (alone.imp fun {left right} apart => ?_))
  by_cases left : ∃ symbol ∈ (resolving files).namedSymbols left, belongs symbol
  · exact .inr (by simpa [List.filter_eq_nil_iff] using apart left)
  · exact .inl (by simpa [List.filter_eq_nil_iff] using left)

section Universes

variable
  {files : FileSystem}
  {units : List SourceUnit}
  {left right : Universe}
  (apart : units.Pairwise SourceUnit.Apart)
  (gatheredLeft : FanIn.Interleaving (units.map (resolving files).namedSymbols) left)
  (gatheredRight : FanIn.Interleaving (units.map (resolving files).namedSymbols) right)

include apart gatheredLeft in
/-- A universe holds the symbols of each entity in the order in which one unit has them. -/
theorem agree_namedSymbols :
    Universe.Agree left (units.flatMap (resolving files).namedSymbols) := by
  intro key
  refine filter_gathered gatheredLeft (apart.imp fun {left right} differ => ?_)
  rintro ⟨symbol, member, same⟩ ⟨other, otherMember, otherSame⟩
  have ofLeft := (comesFrom_of_mem_namedSymbols member).sameUnit
  have ofRight := (comesFrom_of_mem_namedSymbols otherMember).sameUnit
  rw [IdentityKey.same_iff, PackageId.same_iff] at same otherSame
  refine differ.path (Path.same_iff.mpr ?_)
  rw [← ofLeft, ← ofRight]
  exact same.1.1.trans otherSame.1.1.symm

include apart gatheredLeft gatheredRight in
/-- Universes of the same units hold the same symbols of each entity in the same order. -/
theorem agree_of_gathered : Universe.Agree left right := fun key =>
  (agree_namedSymbols apart gatheredLeft key).trans (agree_namedSymbols apart gatheredRight key).symm

include gatheredLeft gatheredRight in
/-- Import paths that occur stand for the same packages in all universes of unambiguous units. -/
theorem agreeOn_of_gathered
    (unambiguous : Unambiguous files units)
    {symbol : Symbol}
    (member : symbol ∈ right) :
    Owner.AgreeOn
      (ImportIndex.scannedIn ((ImportIndex.ofUnits units).packages left))
      (ImportIndex.scannedIn ((ImportIndex.ofUnits units).packages right))
      symbol.methods.occurrences := by
  rintro ⟨owner, name⟩ occurs
  cases owner with
  | imported path =>
      obtain ⟨unit, unitMember, named⟩ :=
        List.mem_flatMap.mp (gatheredRight.perm_flatten.mem_iff.mp member)
      have alone :=
        unambiguous unit unitMember symbol named path
          (List.mem_filterMap.mpr ⟨(.imported path, name), occurs, rfl⟩)
      have first (symbols : Universe)
          (gathered : FanIn.Interleaving (units.map (resolving files).namedSymbols) symbols) :
          ImportIndex.scannedIn ((ImportIndex.ofUnits units).packages symbols) path =
            (((units.flatMap (resolving files).namedSymbols).filter
              ((ImportIndex.ofUnits units).provides path)).head?).map Symbol.package := by
        rw [ImportIndex.scannedIn_packages, ← List.head?_filter, filter_gathered gathered alone]
      simp only [Owner.localize, first left gatheredLeft, first right gatheredRight]
  | _ => rfl

include apart gatheredLeft in
/-- Symbols that were gathered and declared at one place with one type are of one entity. -/
theorem identity_eq_of_label_eq
    {symbol other : Symbol}
    (member : symbol ∈ left)
    (otherMember : other ∈ left)
    (same : Report.TypeLabel.ofSymbol symbol = .ofSymbol other) :
    symbol.identity = other.identity := by
  have sameType : symbol.typeString = other.typeString := congrArg Report.TypeLabel.name same
  have sameFile : symbol.declaration.file = other.declaration.file := by
    have sameText := congrArg (fun label => label.place.fileName) same
    exact congrArg Path.mk sameText
  obtain ⟨unit, unitMember, named⟩ :=
    List.mem_flatMap.mp (gatheredLeft.perm_flatten.mem_iff.mp member)
  obtain ⟨otherUnit, otherUnitMember, otherNamed⟩ :=
    List.mem_flatMap.mp (gatheredLeft.perm_flatten.mem_iff.mp otherMember)
  have comesFrom := comesFrom_of_mem_namedSymbols named
  have otherComesFrom := comesFrom_of_mem_namedSymbols otherNamed
  have sameUnit : unit = otherUnit :=
    SourceUnit.eq_of_shared_file apart unitMember otherUnitMember comesFrom.inUnit
      (sameFile ▸ otherComesFrom.inUnit)
  subst sameUnit
  rw [Symbol.identity, Symbol.identity, comesFrom.package_eq otherComesFrom sameFile, sameType]

include apart gatheredLeft in
/-- No two interfaces among the matches of a query have the same label. -/
theorem nodup_labels_of_gathered
    (config : Config) :
    ((matchesIn config units left).map fun found =>
      Report.TypeLabel.ofSymbol found.interface).Nodup := by
  have original (found : Match) (member : found ∈ matchesIn config units left) :
      ∃ symbol ∈ left, symbol.identity = found.interface.identity ∧
        Report.TypeLabel.ofSymbol symbol = .ofSymbol found.interface := by
    obtain ⟨symbol, symbolMember, localized⟩ :=
      List.mem_map.mp (Matching.interface_of_find member)
    exact ⟨symbol, symbolMember, by rw [← localized]; exact ⟨rfl, rfl⟩⟩
  refine List.pairwise_map.mpr
    ((Matching.interfaces_pairwise _ _ _).imp_of_mem fun {first second} inFirst inSecond => ?_)
  intro differ same
  obtain ⟨symbol, member, identity, label⟩ := original first inFirst
  obtain ⟨other, otherMember, otherIdentity, otherLabel⟩ := original second inSecond
  have sameIdentity := identity_eq_of_label_eq apart gatheredLeft member otherMember
    (label.trans (same.trans otherLabel.symm))
  rw [← identity, ← otherIdentity, sameIdentity] at differ
  exact differ (IdentityKey.same_self _)

include apart gatheredLeft gatheredRight in
/-- The reports on two universes of the same unambiguous units have the same rows. -/
theorem rows_of_gathered
    (unambiguous : Unambiguous files units)
    (config : Config) :
    Report.rows (matchesIn config units left) = Report.rows (matchesIn config units right) := by
  have localized :
      Universe.Agree ((ImportIndex.ofUnits units).localize left)
        ((ImportIndex.ofUnits units).localize right) :=
    ImportIndex.localize_agree (agree_of_gathered apart gatheredLeft gatheredRight)
      fun _ member => agreeOn_of_gathered gatheredLeft gatheredRight unambiguous member
  exact Report.rows_eq_of_paired
    (Matching.find_paired localized config.concreteOnly config.interface)
    (nodup_labels_of_gathered apart gatheredLeft config)

end Universes

/-! ## Two runs -/

/-- The units of a query have different paths and no file in common. -/
theorem pairwise_of_walked
    {files : FileSystem}
    {config : Config}
    {units : List SourceUnit}
    {warnings : List Warning}
    (walk : walked files config = .ok (units, warnings)) :
    units.Pairwise SourceUnit.Apart := by
  unfold walked at walk
  split at walk
  · next found =>
      cases walk
      exact Walk.unitsAt_pairwise found
  · cases walk

/-- A query whose walk succeeds answers what the verdict of its fan-in says. -/
theorem Answers.exists_verdict
    {files : FileSystem}
    {config : Config}
    {answer : Except QueryError (List Match)}
    {units : List SourceUnit}
    {warnings : List Warning}
    (answers : Answers files config answer)
    (walk : walked files config = .ok (units, warnings)) :
    ∃ verdict,
      FanIn.MayEnd config.workers config.capacity (units.map (resolving files).outcome) verdict ∧
        answer = answerOf config units verdict := by
  cases answers with
  | unwalked failed => simp [walk] at failed
  | resolved walkAgain ends =>
      cases walk.symm.trans walkAgain
      exact ⟨_, ends, rfl⟩

/-- A query whose walk fails has only that failure to answer. -/
theorem Answers.eq_error
    {files : FileSystem}
    {config : Config}
    {answer : Except QueryError (List Match)}
    {error : QueryError}
    (answers : Answers files config answer)
    (failed : walked files config = .error error) :
    answer = .error error := by
  cases answers with
  | unwalked failedAgain =>
      obtain rfl := Except.error.inj (failedAgain.symm.trans failed)
      rfl
  | resolved walk _ => cases walk.symm.trans failed

/-- A query succeeds when its fan-in has gathered symbols. -/
theorem answerOf_eq_ok_iff
    {config : Config}
    {units : List SourceUnit}
    {verdict : FanIn.Verdict Symbol ResolutionError}
    {found : List Match} :
    answerOf config units verdict = .ok found ↔
      ∃ symbols, verdict = .gathered symbols ∧ matchesIn config units symbols = found := by
  cases verdict <;> simp [answerOf]

/-- A query that may succeed gives no other kind of answer. -/
theorem Answers.isOk_iff
    {files : FileSystem}
    {config : Config}
    {answer : Except QueryError (List Match)}
    {units : List SourceUnit}
    {warnings : List Warning}
    (answers : Answers files config answer)
    (walk : walked files config = .ok (units, warnings)) :
    answer.isOk ↔
      ∀ unit ∈ units, ∃ symbols, (resolving files).outcome unit = .produced symbols := by
  obtain ⟨verdict, ends, rfl⟩ := answers.exists_verdict walk
  rw [← (gathered_of_mayEnd ends).1]
  cases verdict <;> simp [answerOf, Except.isOk, Except.toBool]

/--
Two runs of a query that differ in the number of workers, the capacity of the channel and the order
of events either both fail or both succeed.  When they succeed and every import path that occurs in
a method set is provided by one unit at most, their reports have the same rows with the same
implementers in the same order.
-/
theorem rows_scheduling
    {files : FileSystem}
    {config : Config}
    {workers capacity otherWorkers otherCapacity : Nat}
    {answer other : Except QueryError (List Match)}
    (run : Answers files { config with workers, capacity } answer)
    (otherRun :
      Answers files { config with workers := otherWorkers, capacity := otherCapacity } other) :
    (answer.isOk ↔ other.isOk) ∧
      ∀ units warnings, walked files config = .ok (units, warnings) → Unambiguous files units →
        ∀ found otherFound, answer = .ok found → other = .ok otherFound →
          Report.rows found = Report.rows otherFound := by
  cases walk : walked files config with
  | error error =>
      rw [run.eq_error walk, otherRun.eq_error walk]
      exact ⟨.rfl, fun _ _ walkAgain => nomatch walkAgain⟩
  | ok walkedUnits =>
      refine ⟨(run.isOk_iff walk).trans (otherRun.isOk_iff walk).symm, ?_⟩
      rintro units warnings ⟨rfl⟩ unambiguous found otherFound isFound isOtherFound
      obtain ⟨verdict, ends, rfl⟩ := run.exists_verdict walk
      obtain ⟨otherVerdict, otherEnds, rfl⟩ := otherRun.exists_verdict walk
      obtain ⟨symbols, gathered, rfl⟩ := answerOf_eq_ok_iff.mp isFound
      obtain ⟨otherSymbols, otherGathered, rfl⟩ := answerOf_eq_ok_iff.mp isOtherFound
      exact rows_of_gathered (pairwise_of_walked walk)
        ((gathered_of_mayEnd ends).2 symbols gathered)
        ((gathered_of_mayEnd otherEnds).2 otherSymbols otherGathered) unambiguous config

/-! ## Two modules with one import path -/

namespace SharedImportPath

/-- A file with a text. -/
def file
    (text : String) :
    Entry :=
  .file (.text text)

/--
The module `m` with a package `a`, a package `c` whose interface mentions a type of `a`, and a
directory `x` that is a module of its own.
-/
def files
    (nested : String) :
    FileSystem :=
  { root :=
      .directory
        [ ("w",
            .directory
              [ ("a", .directory [("a.go", file "package a\n\ntype T interface{ M(t T) }\n")]),
                ("c",
                  .directory
                    [ ("c.go",
                        file "package c\n\nimport \"m/a\"\n\ntype I interface{ M(t a.T) }\n")]),
                ("go.mod", file "module m\n"),
                ("x",
                  .directory
                    [("go.mod", file nested), ("x.go", file "package x\n\ntype T int\n")])])]
    workingDirectory := ["w"] }

/-- A query for the interface of `c`. -/
def config : Config :=
  { root := ⟨"."⟩, interface := ⟨"c", "I"⟩ }

/-- A unit of one file in a directory. -/
def unit
    (directory file importPath : String) :
    SourceUnit :=
  { path := ⟨directory⟩
    files := [⟨file⟩]
    singleFile := false
    importPath := some importPath }

/-- The units of the packages, where the one of `x` has some import path. -/
def units
    (nested : String) :
    List SourceUnit :=
  [unit "./a" "./a/a.go" "m/a", unit "./c" "./c/c.go" "m/c", unit "./x" "./x/x.go" nested]

/-- The files that the walk finds. -/
def found : List Path :=
  [⟨"./a/a.go"⟩, ⟨"./c/c.go"⟩, ⟨"./go.mod"⟩, ⟨"./x/go.mod"⟩, ⟨"./x/x.go"⟩]

theorem filesBelow_files
    (nested : String) :
    Walk.filesBelow (files nested) {} ⟨"."⟩ ["w"] = .ok found := by
  cbv

theorem units_found
    (nested : String) :
    Walk.units ⟨"."⟩ (found.filter (Walk.accepts {})) =
      (units nested).map fun unit => { unit with importPath := none } := by
  cbv

/-- The walk finds the units, when they get their import paths. -/
theorem walked_files
    {text nested : String}
    (located : (files text).locate ⟨"."⟩ = .ok ["w"])
    (paths :
      Walk.withImportPaths (files text) []
          ((units nested).map fun unit => { unit with importPath := none }) =
        (units nested, [])) :
    walked (files text) config = .ok (units nested, []) := by
  have isDirectory : ((files text).root.at? ["w"]).any Entry.isDirectory := by rfl
  have below :
      Walk.unitsBelow (files text) {} ⟨"."⟩ ["w"] = .ok (units nested, []) := by
    simp only [Walk.unitsBelow, filesBelow_files, units_found nested, bind, Except.bind, paths]
    rfl
  simp only [walked, config, Walk.unitsAt, located, isDirectory, ↓reduceIte, below]

/-- Three units of one symbol each, whose symbols arrive in the reverse order. -/
theorem mayEnd_reversed
    (first second third : Symbol) :
    FanIn.MayEnd 3 256 [.produced [first], .produced [second], .produced [third]]
      (.gathered [third, second, first] : FanIn.Verdict Symbol ResolutionError) := by
  let outcomes : List UnitOutcome :=
    [.produced [first], .produced [second], .produced [third]]
  let final : FanIn.State UnitOutcome Symbol ResolutionError :=
    { queue := []
      workers := [.exited, .exited, .exited]
      symbols := []
      errors := []
      stopped := false
      cancelled := false
      released := true
      symbolsOpen := false
      errorsOpen := false
      gathered := [third, second, first]
      firstError := none }
  have followed :
      FanIn.follow? (FanIn.outcomeSetup 3 256 outcomes) [] (.initial 3 false outcomes)
          [.release, .work 0, .work 1, .work 2, .work 2, .work 2, .work 2, .receiveSymbol, .work 2,
            .work 2, .work 1, .work 1, .work 1, .receiveSymbol, .work 1, .work 1, .work 0, .work 0,
            .work 0, .receiveSymbol, .work 0, .work 0, .closeSymbols, .closeErrors] =
        some (outcomes.reverse, final) := by
    cbv
  exact ⟨final, (FanIn.Logged.here.follow _ followed).reaches, rfl, rfl, rfl⟩

/-- Three units of one symbol each, whose symbols arrive in the order of the units. -/
theorem mayEnd_inOrder
    (first second third : Symbol) :
    FanIn.MayEnd 1 256 [.produced [first], .produced [second], .produced [third]]
      (.gathered [first, second, third] : FanIn.Verdict Symbol ResolutionError) := by
  let outcomes : List UnitOutcome :=
    [.produced [first], .produced [second], .produced [third]]
  have followed : FanIn.run 1 256 false outcomes = .gathered [first, second, third] := by
    cbv
  exact followed ▸ FanIn.mayEnd_run 1 256 outcomes

/-- A unit with one named symbol is resolved. -/
theorem outcome_of_single
    {files : FileSystem}
    {unit : SourceUnit}
    (single : ((resolving files).namedSymbols unit).length = 1) :
    ∃ symbol, (resolving files).namedSymbols unit = [symbol] ∧
      (resolving files).outcome unit = .produced [symbol] := by
  obtain ⟨symbol, named⟩ := List.length_eq_one_iff.mp single
  refine ⟨symbol, named, ?_⟩
  cases resolved : resolveUnit files unit with
  | error _ => simp [Frontend.namedSymbols, resolving, resolved] at named
  | ok found =>
      simp only [Frontend.namedSymbols, resolving, resolved] at named
      simp only [Frontend.outcome, resolving, resolved, unitOutcome, named]

/-- Both orders of arrival are possible when each unit has one named symbol. -/
theorem answers_both
    {text nested : String}
    (walk : walked (files text) config = .ok (units nested, []))
    (single :
      ∀ unit ∈ units nested, ((resolving (files text)).namedSymbols unit).length = 1) :
    Answers (files text) { config with workers := 1, capacity := 256 }
        (.ok (matchesIn config (units nested)
          ((units nested).flatMap (resolving (files text)).namedSymbols))) ∧
      Answers (files text) { config with workers := 3, capacity := 256 }
        (.ok (matchesIn config (units nested)
          ((units nested).reverse.flatMap (resolving (files text)).namedSymbols))) := by
  simp only [units, List.forall_mem_cons, List.not_mem_nil, false_implies, implies_true,
    and_true] at single
  obtain ⟨singleA, singleC, singleX⟩ := single
  obtain ⟨first, namedFirst, outcomeFirst⟩ := outcome_of_single singleA
  obtain ⟨second, namedSecond, outcomeSecond⟩ := outcome_of_single singleC
  obtain ⟨third, namedThird, outcomeThird⟩ := outcome_of_single singleX
  have outcomes :
      (units nested).map (resolving (files text)).outcome =
        [.produced [first], .produced [second], .produced [third]] := by
    simp only [units, List.map_cons, List.map_nil, outcomeFirst, outcomeSecond, outcomeThird]
  have inOrder :
      (units nested).flatMap (resolving (files text)).namedSymbols = [first, second, third] := by
    simp [units, namedFirst, namedSecond, namedThird]
  have reversed :
      (units nested).reverse.flatMap (resolving (files text)).namedSymbols =
        [third, second, first] := by
    simp [units, namedFirst, namedSecond, namedThird]
  rw [inOrder, reversed]
  constructor
  · exact @Answers.resolved _ { config with workers := 1, capacity := 256 } _ _ _ walk
      (outcomes ▸ mayEnd_inOrder first second third)
  · exact @Answers.resolved _ { config with workers := 3, capacity := 256 } _ _ _ walk
      (outcomes ▸ mayEnd_reversed first second third)

/-- The nested module has a path of its own, so both orders of arrival give the same rows. -/
theorem rows_scheduling_apart :
    let files := files "module m/x\n"
    let left := matchesIn config (units "m/x") ((units "m/x").flatMap (resolving files).namedSymbols)
    let right :=
      matchesIn config (units "m/x") ((units "m/x").reverse.flatMap (resolving files).namedSymbols)
    Answers files { config with workers := 1, capacity := 256 } (.ok left) ∧
      Answers files { config with workers := 3, capacity := 256 } (.ok right) ∧
      walked files config = .ok (units "m/x", []) ∧ Unambiguous files (units "m/x") ∧
      Report.rows left = Report.rows right := by
  intro files left right
  have walk : walked files config = .ok (units "m/x", []) :=
    walked_files (by decide +kernel) (by decide +kernel)
  have unambiguous : Unambiguous files (units "m/x") := by decide +kernel
  obtain ⟨inOrder, reversed⟩ := answers_both walk (by decide +kernel)
  exact ⟨inOrder, reversed, walk, unambiguous,
    (rows_scheduling inOrder reversed).2 _ _ walk unambiguous left right rfl rfl⟩

/--
The nested module has the import path of the package `a`.  In the order of the units the import path
stands for `a`, and the interface of `a` implements the one of `c`; when the symbol of the nested
module arrives first, nothing implements it.
-/
theorem rows_differ :
    ∃ inOrder reversed,
      Answers (files "module m/a\n") { config with workers := 1, capacity := 256 } (.ok inOrder) ∧
      Answers (files "module m/a\n") { config with workers := 3, capacity := 256 } (.ok reversed) ∧
      Report.rows inOrder =
        [⟨⟨"c.I", ⟨"./c/c.go", 5, 6⟩⟩, [⟨"a.T", ⟨"./a/a.go", 3, 6⟩⟩]⟩] ∧
      Report.rows reversed = [⟨⟨"c.I", ⟨"./c/c.go", 5, 6⟩⟩, []⟩] := by
  obtain ⟨inOrder, reversed⟩ :=
    answers_both (@walked_files "module m/a\n" "m/a" (by decide +kernel)
      (by decide +kernel)) (by decide +kernel)
  exact ⟨_, _, inOrder, reversed, by decide +kernel, by decide +kernel⟩

end SharedImportPath

end Implementers.Query
