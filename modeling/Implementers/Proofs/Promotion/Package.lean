import Implementers.Proofs.Promotion.Declared
import Implementers.Proofs.Scope.Collection

/-!
# The method sets of a package

When a package resolves, every method set that it reports and every one that can be asked for
afterwards has come out of the promotion over the declared types, as they have been found at the
end of the resolution.
-/

namespace Implementers

open Syntax (FuncDecl Receiver)

namespace Scope

/-! ## Declared names -/

/-- Joining declarations keeps them in order and gives no name twice. -/
theorem addDecls_ok
    (added : List TypeDecl) :
    ∀ {earlier joined : List TypeDecl},
      addDecls earlier added = .ok joined →
      (earlier.map TypeDecl.name).Nodup →
      joined = earlier ++ added ∧ (joined.map TypeDecl.name).Nodup := by
  induction added with
  | nil =>
      intro earlier joined answered distinct
      cases answered
      exact ⟨(List.append_nil _).symm, distinct⟩
  | cons decl rest inductionHypothesis =>
      intro earlier joined answered distinct
      simp only [addDecls] at answered
      split at answered
      · cases answered
      · next fresh =>
          have absent : decl.name ∉ earlier.map TypeDecl.name := by
            intro member
            obtain ⟨other, otherMember, same⟩ := List.mem_map.mp member
            have different := List.find?_eq_none.mp fresh other otherMember
            simp [same] at different
          obtain ⟨rfl, joinedDistinct⟩ := inductionHypothesis answered (by
            rw [List.map_append]
            refine List.nodup_append.mpr ⟨distinct, List.nodup_singleton _, ?_⟩
            rintro name member _ single rfl
            rw [List.map_singleton, List.mem_singleton] at single
            exact absent (single ▸ member))
          exact ⟨by simp, joinedDistinct⟩

/-- A package gives no name to two declarations. -/
theorem nodup_names_of_ofFiles
    {package : PackageId}
    {files : List FileScope}
    {scope : Scope}
    (opened : ofFiles package files = .ok scope) :
    (scope.decls.map TypeDecl.name).Nodup := by
  unfold ofFiles at opened
  cases joined : addDecls [] (files.flatMap declsOf) with
  | error _ =>
      rw [joined] at opened
      cases opened
  | ok decls =>
      rw [joined] at opened
      cases opened
      exact (addDecls_ok _ joined .nil).2

/-- Where no name is given twice, a declaration is found under its name and no other. -/
theorem findDecl?_eq_some_iff
    {decls : List TypeDecl}
    (distinct : (decls.map TypeDecl.name).Nodup)
    {name : String}
    {decl : TypeDecl} :
    findDecl? decls name = some decl ↔ decl ∈ decls ∧ decl.name = name := by
  constructor
  · intro found
    exact ⟨List.mem_of_find?_eq_some found, by simpa using List.find?_some found⟩
  · rintro ⟨member, rfl⟩
    cases found : findDecl? decls decl.name with
    | none =>
        have different := List.find?_eq_none.mp found decl member
        simp at different
    | some other =>
        have same : other.name = decl.name := by simpa using List.find?_some found
        exact congrArg some
          (List.inj_on_of_nodup_map distinct (List.mem_of_find?_eq_some found) member same)

theorem lookup?_of_mem
    {scope : Scope}
    (distinct : (scope.decls.map TypeDecl.name).Nodup)
    {decl : TypeDecl}
    (member : decl ∈ scope.decls) :
    scope.lookup? decl.name = some decl :=
  (findDecl?_eq_some_iff distinct).mpr ⟨member, rfl⟩

/-! ## Receivers -/

/-- A declaration behind aliases is found under its name and is no alias itself. -/
theorem throughAliases?_some
    {scope : Scope}
    {hops : Nat}
    {name : String}
    {decl : TypeDecl}
    (leads : scope.throughAliases? hops name = some (some decl)) :
    scope.lookup? decl.name = some decl ∧ decl.spec.isAlias = false := by
  induction hops generalizing name with
  | zero => cases leads
  | succ hops inductionHypothesis =>
      simp only [throughAliases?] at leads
      split at leads
      · cases leads
      · next found =>
          split at leads
          · split at leads
            · split at leads
              · cases leads
              · split at leads
                · cases leads
                · exact inductionHypothesis leads
            · cases leads
          · next notAlias =>
              cases leads
              exact ⟨lookup?_self found, by simpa using notAlias⟩

/-- A declared type that methods may be declared on, as far as a state has found out. -/
structure Receivable
    (scope : Scope)
    (state : ScopeState)
    (base : String) :
    Prop where
  declared :
    ∃ decl, scope.lookup? base = some decl ∧ (decl.spec.isAlias || decl.spec.generic) = false
  found :
    ∃ underlying, state.finished.lookup base = some underlying ∧ underlying.isInterface = false

/-- Promotion may start from a type that methods may be declared on. -/
theorem Receivable.promotable
    {scope : Scope}
    {state : ScopeState}
    {base : String}
    (receivable : scope.Receivable state base) :
    scope.Promotable (.declared base) := by
  obtain ⟨decl, found, kept⟩ := receivable.declared
  exact ⟨decl, found, (Bool.or_eq_false_iff.mp kept).1⟩

theorem Receivable.later
    {scope : Scope}
    {state later : ScopeState}
    {base : String}
    (receivable : scope.Receivable state base)
    (covers : later.Covers state) :
    scope.Receivable later base := by
  obtain ⟨underlying, finished, notInterface⟩ := receivable.found
  exact ⟨receivable.declared, underlying, covers base underlying finished, notInterface⟩

/-- The declared type of a receiver is one that methods may be declared on. -/
theorem receivable_of_receiverBase
    {scope : Scope}
    {file : FileScope}
    {position : Position}
    {type : Syntax.TypeExpr}
    {state after : ScopeState}
    {decl : TypeDecl}
    (answered : scope.receiverBase file position type state = (.ok (some decl), after)) :
    scope.Receivable after decl.name := by
  cases type with
  | name span qualifier ident hasArgs args =>
      rcases qualifier with _ | _
      · rcases ident with _ | ident
        · cases answered
        · simp only [receiverBase] at answered
          cases leads : scope.throughAliases? aliasLimit ident.text with
          | none =>
              rw [leads] at answered
              cases answered
          | some target =>
              rw [leads] at answered
              cases target with
              | none =>
                  simp only at answered
                  split at answered <;> cases answered
              | some target =>
                  simp only at answered
                  split at answered
                  · cases answered
                  · next plain =>
                      obtain ⟨underlying, middle, ran, next⟩ := Resolve.andThen_ok answered
                      split at next
                      · cases next
                      · next notInterface =>
                          cases next
                          obtain ⟨declared, notAlias⟩ := throughAliases?_some leads
                          have notGeneric : decl.spec.generic = false := by
                            simp only [Bool.or_eq_true, not_or, Bool.not_eq_true] at plain
                            exact plain.1
                          exact ⟨⟨decl, declared, by rw [notAlias, notGeneric]; rfl⟩, underlying,
                            lookup_of_underlyingOf declared notAlias ran,
                            by simpa using notInterface⟩
      · cases answered
  | _ => cases answered

/-- The declared type of a receiver clause is one that methods may be declared on. -/
theorem receivable_of_receiverOf
    {scope : Scope}
    {file : FileScope}
    {receiver : Receiver}
    {state after : ScopeState}
    {base : TypeDecl × Bool}
    (answered : scope.receiverOf file receiver state = (.ok (some base), after)) :
    scope.Receivable after base.1.name := by
  have written (type : Syntax.TypeExpr)
      (answered : scope.writtenReceiver file (file.position receiver.span.start) type state =
        (.ok (some base), after)) :
      scope.Receivable after base.1.name := by
    unfold writtenReceiver at answered
    cases bare : bareReceiver false type with
    | error _ =>
        rw [bare] at answered
        cases answered
    | ok bareType =>
        rw [bare] at answered
        obtain ⟨found, middle, ran, returned⟩ := Resolve.andThen_ok answered
        obtain ⟨same, rfl⟩ := Prod.mk.inj returned
        obtain ⟨decl, rfl, rfl⟩ := Option.map_eq_some_iff.mp (Except.ok.inj same)
        exact receivable_of_receiverBase ran
  obtain ⟨span, param⟩ := receiver
  rcases param with _ | ⟨_, _, _, type⟩
  · cases answered
  · have receivable := written type
    cases type with
    | missing _ => cases answered
    | _ => exact receivable answered

/-- Every receiver of a table has a type that methods may be declared on. -/
def Receives
    (scope : Scope)
    (state : ScopeState)
    (table : MethodTable) :
    Prop :=
  ∀ site ∈ table.receivers, scope.Receivable state site.base

/-- One method declaration more keeps the receivers of a table in order. -/
theorem receives_addMethodDecl
    {scope : Scope}
    {file : FileScope}
    {table added : MethodTable}
    {func : FuncDecl}
    {state after : ScopeState}
    (coherent : state.Coherent scope)
    (receives : scope.Receives state table)
    (answered : scope.addMethodDecl file table func state = (.ok added, after)) :
    scope.Receives after added := by
  obtain ⟨steady, _⟩ :=
    (scope.eager_addMethodDecl table (file, func)).steady coherent answered
  have kept : scope.Receives after table :=
    fun site member => (receives site member).later steady.covers
  unfold addMethodDecl at answered
  cases isReceived : func.receiver with
  | none =>
      rw [isReceived] at answered
      cases answered
      exact kept
  | some receiver =>
      rw [isReceived] at answered
      obtain ⟨base, middle, ran, next⟩ := Resolve.andThen_ok answered
      obtain ⟨_, middleCoherent⟩ :=
        ((hastening scope).receiverOf (.stay scope) (hastening_declMeaning scope) file
          receiver).steady coherent ran
      rcases base with _ | ⟨decl, pointer⟩
      · cases next
        exact kept
      · have sited (covers : after.Covers middle) :
            ∀ site ∈ table.receivers ++ (receiverSite? file receiver decl.name pointer).toList,
              scope.Receivable after site.base := by
          intro site member
          rcases List.mem_append.mp member with earlier | own
          · exact kept site earlier
          · obtain ⟨name, _, written⟩ := Option.bind_eq_some_iff.mp (Option.mem_toList.mp own)
            split at written
            · cases written
            · cases written
              exact (receivable_of_receiverOf ran).later covers
        cases named : func.name with
        | none =>
            rw [named] at next
            cases next
            exact kept
        | some name =>
            simp only [named] at next
            split at next
            · cases next
              exact sited (.refl _)
            · obtain ⟨signature, last, ranSignature, returned⟩ := Resolve.andThen_ok next
              obtain ⟨steadySignature, _⟩ :=
                ((hastening scope).lowerSignature (.stay scope) (hastening_declMeaning scope) file
                  func.params func.result).steady middleCoherent ranSignature
              split at returned
              · cases returned
              · cases returned
                exact sited steadySignature.covers

/-- The receivers of a package have types that methods may be declared on. -/
theorem receives_addMethodDecls
    {scope : Scope}
    (funcs : List (FileScope × FuncDecl)) :
    ∀ {table added : MethodTable} {state after : ScopeState},
      state.Coherent scope →
      scope.Receives state table →
      scope.addMethodDecls table funcs state = (.ok added, after) →
      scope.Receives after added := by
  induction funcs with
  | nil =>
      intro table added state after _ receives answered
      cases answered
      exact receives
  | cons func rest inductionHypothesis =>
      intro table added state after coherent receives answered
      obtain ⟨next, middle, ran, answeredRest⟩ := Resolve.andThen_ok answered
      obtain ⟨_, middleCoherent⟩ :=
        (scope.eager_addMethodDecl table func).steady coherent ran
      exact inductionHypothesis middleCoherent (receives_addMethodDecl coherent receives ran)
        answeredRest

/-! ## Symbols -/

/-- How a declaration comes to its symbol, or to none, with the state after that. -/
inductive DeclAnswer
    (scope : Scope)
    (table : MethodTable)
    (decl : TypeDecl) :
    Option PlacedSymbol → ScopeState → Prop where
  | passedOver
      {after : ScopeState}
      (isPassedOver : (decl.spec.isAlias || decl.spec.generic) = true) :
      DeclAnswer scope table decl none after
  | interface
      {interface : InterfaceMethods}
      {after : ScopeState}
      (kept : (decl.spec.isAlias || decl.spec.generic) = false)
      (found : after.finished.lookup decl.name = some (.interface interface)) :
      DeclAnswer scope table decl
        (if interface.isConstraint then
          none
        else
          some (scope.typeSymbol decl .interface interface.methods interface.isPartial))
        after
  | concrete
      {underlying : Underlying}
      {middle after : ScopeState}
      {methods : MethodSet}
      (kept : (decl.spec.isAlias || decl.spec.generic) = false)
      (coherent : middle.Coherent scope)
      (found : middle.finished.lookup decl.name = some underlying)
      (notInterface : underlying.isInterface = false)
      (answered : scope.concreteMethods table decl.name false middle = (.ok methods, after)) :
      DeclAnswer scope table decl (some (scope.typeSymbol decl .concrete methods false)) after

/-- What is underneath a declaration makes the symbol of its kind. -/
theorem underlyingSymbol?_ok
    {scope : Scope}
    {table : MethodTable}
    {decl : TypeDecl}
    {state after : ScopeState}
    {symbol : Option PlacedSymbol}
    (declared : scope.lookup? decl.name = some decl)
    (kept : (decl.spec.isAlias || decl.spec.generic) = false)
    (coherent : state.Coherent scope)
    (answered : scope.underlyingSymbol? table decl state = (.ok symbol, after)) :
    scope.DeclAnswer table decl symbol after := by
  obtain ⟨underlying, middle, ran, next⟩ := Resolve.andThen_ok answered
  have found := lookup_of_underlyingOf declared (Bool.or_eq_false_iff.mp kept).1 ran
  have middleCoherent :=
    (((hastening scope).underlyingOf (.stay scope) (hastening_declMeaning scope)
      decl.name).steady coherent ran).2
  have concrete (notInterface : underlying.isInterface = false)
      (next :
        ((scope.concreteMethods table decl.name false).andThen fun methods =>
          .answer (some (scope.typeSymbol decl .concrete methods false))) middle =
          (.ok symbol, after)) :
      scope.DeclAnswer table decl symbol after := by
    obtain ⟨methods, last, ranMethods, returned⟩ := Resolve.andThen_ok next
    cases returned
    exact .concrete kept middleCoherent found notInterface ranMethods
  cases underlying with
  | interface interface =>
      have answer : scope.DeclAnswer table decl _ middle := .interface kept found
      simp only at next
      split at next
      · next constraint =>
          cases next
          simpa [constraint] using answer
      · next ordinary =>
          cases next
          simpa [ordinary] using answer
  | struct _ _ => exact concrete rfl next
  | imported _ => exact concrete rfl next
  | other => exact concrete rfl next

/-- A declaration that answers has come to its answer in one of these ways. -/
theorem declSymbol?_ok
    {scope : Scope}
    {table : MethodTable}
    {decl : TypeDecl}
    {state after : ScopeState}
    {symbol : Option PlacedSymbol}
    (declared : scope.lookup? decl.name = some decl)
    (coherent : state.Coherent scope)
    (answered : scope.declSymbol? table decl state = (.ok symbol, after)) :
    scope.DeclAnswer table decl symbol after := by
  unfold declSymbol? at answered
  cases kept : decl.spec.isAlias || decl.spec.generic with
  | true =>
      rw [if_pos kept] at answered
      cases answered
      exact .passedOver kept
  | false =>
      rw [if_neg (by simp [kept])] at answered
      cases shape : decl.spec.type with
      | struct _ fields =>
          rw [shape] at answered
          obtain ⟨_, middle, warned, next⟩ := Resolve.andThen_ok answered
          have eager :
              (hastening scope).Related Eq
                (scope.warnUnpromoted decl.file decl.name fields)
                (scope.warnUnpromoted (Relocation.stay.file decl.file) decl.name
                  (Syntax.fieldsMoved Relocation.stay.span fields)) :=
            (hastening scope).warnUnpromoted decl.file decl.name fields
          exact underlyingSymbol?_ok declared kept (eager.steady coherent warned).2 next
      | _ =>
          rw [shape] at answered
          exact underlyingSymbol?_ok declared kept coherent answered

/-- The symbol of a named receiver, when its type is declared. -/
theorem siteSymbol?_ok
    {scope : Scope}
    {table : MethodTable}
    {site : ReceiverSite}
    {state after : ScopeState}
    {symbol : Option PlacedSymbol}
    (promotable : scope.Promotable (.declared site.base))
    (answered : scope.siteSymbol? table site state = (.ok symbol, after)) :
    ∃ methods decl,
      scope.lookup? site.base = some decl ∧
        scope.concreteMethods table site.base site.pointer state = (.ok methods, after) ∧
        symbol = some
          ⟨site.file.index, site.offset,
            { name := site.base
              package := scope.package
              kind := .concrete
              pointer := site.pointer
              position := site.position
              declaration := decl.position
              methods
              isPartial := false }⟩ := by
  obtain ⟨decl, declared, _⟩ := promotable
  simp only [siteSymbol?, declared] at answered
  obtain ⟨methods, last, ran, returned⟩ := Resolve.andThen_ok answered
  cases returned
  exact ⟨methods, decl, declared, ran, rfl⟩

/--
Once a concrete type has been asked about, its method set can be asked for in both views, and
nothing new is remembered.
-/
theorem concreteMethods_of_asked
    {scope : Scope}
    {table : MethodTable}
    {decl : TypeDecl}
    {first last later : ScopeState}
    {symbol : Option PlacedSymbol}
    (asked : Asked scope first last (scope.declSymbol? table) decl symbol)
    (declared : scope.lookup? decl.name = some decl)
    (kept : (decl.spec.isAlias || decl.spec.generic) = false)
    (notInterface :
      ∀ interface, last.finished.lookup decl.name ≠ some (.interface interface))
    (isAhead : later.Ahead scope last)
    (pointer : Bool) :
    ∃ methods after,
      scope.concreteMethods table decl.name pointer later = (.ok methods, after) ∧
        after.finished = later.finished := by
  obtain ⟨before, after, answered, beforeCoherent, afterCoherent, _, steadyLast⟩ := asked.between
  cases declSymbol?_ok declared beforeCoherent answered with
  | passedOver isPassedOver =>
      rw [isPassedOver] at kept
      cases kept
  | interface _ found => exact absurd (steadyLast.covers _ _ found) (notInterface _)
  | @concrete _ start _ _ _ startCoherent _ _ ran =>
      have eager (otherPointer : Bool) :=
        (hastening scope).concreteMethods (.stay scope) (hastening_declMeaning scope) table table
          decl.name false otherPointer
      obtain ⟨steadyRun, _⟩ := (eager false).steady startCoherent ran
      have aheadOfAfter :=
        isAhead.trans (steadyLast.ahead afterCoherent isAhead.behindCoherent)
      obtain ⟨_, methods, laterAfter, laterRan, _, _, unchanged⟩ :=
        eager pointer start later _ after
          (aheadOfAfter.trans (steadyRun.ahead startCoherent afterCoherent)) ran
      exact ⟨methods, laterAfter, laterRan, unchanged aheadOfAfter.covers⟩

/-- How a package that resolves has come to its symbols. -/
structure Resolution
    (scope : Scope) where
  table : MethodTable
  types : List (Option PlacedSymbol)
  sites : List (Option PlacedSymbol)
  /-- The state after the function declarations have been asked about. -/
  tabled : ScopeState
  /-- The state after the declared types have been asked about as well. -/
  known : ScopeState
  final : ScopeState
  ranMethods : scope.methodTable .initial = (.ok table, tabled)
  ranTypes : Resolve.askAll (scope.declSymbol? table) scope.decls tabled = (.ok types, known)
  ranSites :
    Resolve.askAll (scope.siteSymbol? table) table.receivers known = (.ok sites, final)

/-- The symbols that a resolution comes to. -/
def Resolution.symbols
    {scope : Scope}
    (resolution : Resolution scope) :
    List Symbol :=
  ((resolution.types.flatMap Option.toList ++
    resolution.sites.flatMap Option.toList).mergeSort PlacedSymbol.notAfter).map
      PlacedSymbol.symbol

/-- A symbol comes from a declared type or from a named receiver. -/
theorem Resolution.mem_symbols
    {scope : Scope}
    (resolution : Resolution scope)
    {symbol : Symbol} :
    symbol ∈ resolution.symbols ↔
      ∃ placed, (some placed ∈ resolution.types ∨ some placed ∈ resolution.sites) ∧
        placed.symbol = symbol := by
  simp [Resolution.symbols]

/-- A package resolves when there is a way to come to its symbols. -/
theorem symbols_ok
    {scope : Scope}
    {symbols : List Symbol}
    {final : ScopeState} :
    scope.symbols .initial = (.ok symbols, final) ↔
      ∃ resolution : Resolution scope,
        resolution.symbols = symbols ∧ resolution.final = final := by
  constructor
  · intro answered
    obtain ⟨table, tabled, ranMethods, next⟩ := Resolve.andThen_ok answered
    obtain ⟨types, known, ranTypes, nextSites⟩ := Resolve.andThen_ok next
    obtain ⟨sites, last, ranSites, returned⟩ := Resolve.andThen_ok nextSites
    cases returned
    rw [declSymbols_eq_collect] at ranTypes
    rw [siteSymbols_eq_collect] at ranSites
    obtain ⟨typeAnswers, askedTypes, rfl⟩ := Resolve.collect_ok.mp ranTypes
    obtain ⟨siteAnswers, askedSites, rfl⟩ := Resolve.collect_ok.mp ranSites
    exact ⟨⟨table, typeAnswers, siteAnswers, tabled, known, final, ranMethods, askedTypes,
      askedSites⟩, rfl, rfl⟩
  · rintro ⟨⟨table, types, sites, tabled, known, final, ranMethods, ranTypes, ranSites⟩, rfl, rfl⟩
    have answeredTypes := Resolve.collect_ok.mpr ⟨types, ranTypes, rfl⟩
    have answeredSites := Resolve.collect_ok.mpr ⟨sites, ranSites, rfl⟩
    rw [← declSymbols_eq_collect] at answeredTypes
    rw [← siteSymbols_eq_collect] at answeredSites
    simp only [Scope.symbols, bind, Resolve.andThen, ranMethods, answeredTypes, answeredSites]
    rfl

/-- The methods of a type in a package, as a state has found what is underneath its names. -/
def Selects
    (scope : Scope)
    (table : MethodTable)
    (final : ScopeState)
    (base : String)
    (pointer : Bool)
    (methods : MethodSet) :
    Prop :=
  (scope.embedding table final.underlying).Selected ⟨.declared base, pointer⟩ methods

/-- A method set that was found on the way to a state is what the promotion finds. -/
theorem selects_of_concreteMethods
    {scope : Scope}
    {table : MethodTable}
    {final before after : ScopeState}
    {base : String}
    {pointer : Bool}
    {methods : MethodSet}
    (promotable : scope.Promotable (.declared base))
    (coherent : before.Coherent scope)
    (answered : scope.concreteMethods table base pointer before = (.ok methods, after))
    (finds : after.Finds final.underlying) :
    scope.Selects table final base pointer methods := by
  rw [concreteMethods_eq promotable coherent answered finds]
  exact selected_methodSet promotable

/-- A declared type is one that promotion may start from, if it is no alias. -/
theorem promotable_of_lookup
    {scope : Scope}
    {decl : TypeDecl}
    (declared : scope.lookup? decl.name = some decl)
    (kept : (decl.spec.isAlias || decl.spec.generic) = false) :
    scope.Promotable (.declared decl.name) :=
  ⟨decl, declared, (Bool.or_eq_false_iff.mp kept).1⟩

namespace Resolution

variable
  {scope : Scope}
  (resolution : Resolution scope)

theorem steady_tabled :
    ScopeState.initial.Steady resolution.tabled ∧ resolution.tabled.Coherent scope :=
  (scope.eager_addMethodDecls .empty scope.funcDecls).steady (ScopeState.initial_coherent scope)
    resolution.ranMethods

theorem steady_known :
    resolution.tabled.Steady resolution.known ∧ resolution.known.Coherent scope := by
  obtain ⟨steady, coherent, _⟩ :=
    asked_of_askAll (scope.eager_declSymbol? resolution.table) _ resolution.steady_tabled.2
      resolution.ranTypes
  exact ⟨steady, coherent⟩

theorem steady_final :
    resolution.known.Steady resolution.final ∧ resolution.final.Coherent scope := by
  obtain ⟨steady, coherent, _⟩ :=
    asked_of_askAll (scope.eager_siteSymbol? resolution.table) _ resolution.steady_known.2
      resolution.ranSites
  exact ⟨steady, coherent⟩

/-- The declared types have been asked about one by one. -/
theorem asked_types :
    List.Forall₂
      (Asked scope resolution.tabled resolution.known (scope.declSymbol? resolution.table))
      scope.decls resolution.types :=
  (asked_of_askAll (scope.eager_declSymbol? resolution.table) _ resolution.steady_tabled.2
    resolution.ranTypes).2.2

/-- The named receivers have been asked about one by one. -/
theorem asked_sites :
    List.Forall₂
      (Asked scope resolution.known resolution.final (scope.siteSymbol? resolution.table))
      resolution.table.receivers resolution.sites :=
  (asked_of_askAll (scope.eager_siteSymbol? resolution.table) _ resolution.steady_known.2
    resolution.ranSites).2.2

/-- The receivers have types that methods may be declared on. -/
theorem receives :
    scope.Receives resolution.tabled resolution.table :=
  receives_addMethodDecls scope.funcDecls (ScopeState.initial_coherent scope)
    (fun _ member => by simp [MethodTable.empty] at member) resolution.ranMethods

/-- The method set of a concrete type can be asked for again once a package resolves. -/
theorem concreteMethods_final
    (distinct : (scope.decls.map TypeDecl.name).Nodup)
    {decl : TypeDecl}
    (member : decl ∈ scope.decls)
    (kept : (decl.spec.isAlias || decl.spec.generic) = false)
    (notInterface : (resolution.final.underlying decl.name).isInterface = false)
    (pointer : Bool) :
    ∃ methods after,
      scope.concreteMethods resolution.table decl.name pointer resolution.final =
          (.ok methods, after) ∧
        after.Finds resolution.final.underlying := by
  obtain ⟨_, _, asked⟩ := exists_related_right resolution.asked_types member
  obtain ⟨steady, coherent⟩ := resolution.steady_final
  have declared := lookup?_of_mem distinct member
  have neverInterface :
      ∀ interface, resolution.known.finished.lookup decl.name ≠ some (.interface interface) := by
    intro interface found
    rw [steady.covers.finds _ _ found] at notInterface
    cases notInterface
  obtain ⟨methods, after, ran, unchanged⟩ :=
    concreteMethods_of_asked asked declared kept neverInterface
      (steady.ahead resolution.steady_known.2 coherent) pointer
  exact ⟨methods, after, ran,
    ((ScopeState.Covers.refl resolution.final).of_finished_eq rfl unchanged).finds⟩

/-- The method set of a concrete type can be asked for in both views once a package resolves. -/
theorem selects_of_decl
    (distinct : (scope.decls.map TypeDecl.name).Nodup)
    {decl : TypeDecl}
    (member : decl ∈ scope.decls)
    (kept : (decl.spec.isAlias || decl.spec.generic) = false)
    (notInterface : (resolution.final.underlying decl.name).isInterface = false)
    (pointer : Bool) :
    ∃ methods after,
      scope.concreteMethods resolution.table decl.name pointer resolution.final =
          (.ok methods, after) ∧
        scope.Selects resolution.table resolution.final decl.name pointer methods := by
  obtain ⟨methods, after, ran, finds⟩ :=
    resolution.concreteMethods_final distinct member kept notInterface pointer
  have declared := lookup?_of_mem distinct member
  exact ⟨methods, after, ran,
    selects_of_concreteMethods (promotable_of_lookup declared kept) resolution.steady_final.2 ran
      finds⟩

/-- What a declaration comes to in a package that resolves, by what is found underneath it. -/
inductive TypeAnswer
    (decl : TypeDecl) :
    Option PlacedSymbol → Prop where
  | passedOver
      (isPassedOver : (decl.spec.isAlias || decl.spec.generic) = true) :
      TypeAnswer decl none
  | interface
      {interface : InterfaceMethods}
      (kept : (decl.spec.isAlias || decl.spec.generic) = false)
      (found : resolution.known.finished.lookup decl.name = some (.interface interface)) :
      TypeAnswer decl
        (if interface.isConstraint then
          none
        else
          some (scope.typeSymbol decl .interface interface.methods interface.isPartial))
  | concrete
      {underlying : Underlying}
      {methods : MethodSet}
      (kept : (decl.spec.isAlias || decl.spec.generic) = false)
      (found : resolution.known.finished.lookup decl.name = some underlying)
      (notInterface : underlying.isInterface = false)
      (selects : scope.Selects resolution.table resolution.final decl.name false methods) :
      TypeAnswer decl (some (scope.typeSymbol decl .concrete methods false))

/-- What a named receiver comes to in a package that resolves. -/
inductive SiteAnswer
    (site : ReceiverSite) :
    Option PlacedSymbol → Prop where
  | concrete
      {methods : MethodSet}
      (decl : TypeDecl)
      (selects :
        scope.Selects resolution.table resolution.final site.base site.pointer methods) :
      SiteAnswer site (some
        ⟨site.file.index, site.offset,
          { name := site.base
            package := scope.package
            kind := .concrete
            pointer := site.pointer
            position := site.position
            declaration := decl.position
            methods
            isPartial := false }⟩)

/-- The declarations of a package come to their answers by what is found underneath them. -/
theorem typeAnswers
    (distinct : (scope.decls.map TypeDecl.name).Nodup) :
    List.Forall₂ resolution.TypeAnswer scope.decls resolution.types := by
  refine List.forall₂_iff_zip.mpr ⟨resolution.asked_types.length_eq, ?_⟩
  intro decl answer paired
  have member := (List.of_mem_zip paired).1
  have asked := (List.forall₂_iff_zip.mp resolution.asked_types).2 paired
  obtain ⟨before, after, answered, beforeCoherent, _, _, steadyAfter⟩ := asked.between
  have declared := lookup?_of_mem distinct member
  cases declSymbol?_ok declared beforeCoherent answered with
  | passedOver isPassedOver => exact .passedOver isPassedOver
  | interface kept found => exact .interface kept (steadyAfter.covers _ _ found)
  | @concrete _ start _ _ kept startCoherent found notInterface ran =>
      have eager :=
        (hastening scope).concreteMethods (.stay scope) (hastening_declMeaning scope)
          resolution.table resolution.table decl.name false false
      obtain ⟨steadyRun, _⟩ := eager.steady startCoherent ran
      have steady := (steadyRun.trans steadyAfter).covers
      exact .concrete kept (steady _ _ found) notInterface
        (selects_of_concreteMethods (promotable_of_lookup declared kept) startCoherent ran
          (steadyAfter.trans resolution.steady_final.1).covers.finds)

/-- What the symbols of a package that resolves are made of. -/
inductive Makes : Symbol → Prop where
  | interface
      {decl : TypeDecl}
      {interface : InterfaceMethods}
      (member : decl ∈ scope.decls)
      (underneath : resolution.final.underlying decl.name = .interface interface)
      (ordinary : interface.isConstraint = false) :
      Makes (scope.typeSymbol decl .interface interface.methods interface.isPartial).symbol
  | concrete
      {decl : TypeDecl}
      {methods : MethodSet}
      (member : decl ∈ scope.decls)
      (selects : scope.Selects resolution.table resolution.final decl.name false methods) :
      Makes (scope.typeSymbol decl .concrete methods false).symbol
  | receiver
      {site : ReceiverSite}
      {decl : TypeDecl}
      {methods : MethodSet}
      (declared : scope.lookup? site.base = some decl)
      (selects :
        scope.Selects resolution.table resolution.final site.base site.pointer methods) :
      Makes
        { name := site.base
          package := scope.package
          kind := .concrete
          pointer := site.pointer
          position := site.position
          declaration := decl.position
          methods
          isPartial := false }

/-- The answer for a named receiver is a concrete symbol. -/
theorem siteAnswer
    {site : ReceiverSite}
    {answer : Option PlacedSymbol}
    (member : site ∈ resolution.table.receivers)
    (asked :
      Asked scope resolution.known resolution.final (scope.siteSymbol? resolution.table) site
        answer) :
    resolution.SiteAnswer site answer ∧
      ∀ placed, answer = some placed → resolution.Makes placed.symbol := by
  obtain ⟨before, after, answered, beforeCoherent, _, _, steadyAfter⟩ := asked.between
  have promotable := (resolution.receives site member).promotable
  obtain ⟨methods, decl, declared, ran, rfl⟩ := siteSymbol?_ok promotable answered
  have selects :=
    selects_of_concreteMethods promotable beforeCoherent ran steadyAfter.covers.finds
  refine ⟨.concrete decl selects, ?_⟩
  rintro _ ⟨⟩
  exact .receiver declared selects

/-- The named receivers of a package come to concrete symbols. -/
theorem siteAnswers :
    List.Forall₂ resolution.SiteAnswer resolution.table.receivers resolution.sites := by
  refine List.forall₂_iff_zip.mpr ⟨resolution.asked_sites.length_eq, ?_⟩
  intro site answer paired
  have asked := (List.forall₂_iff_zip.mp resolution.asked_sites).2 paired
  exact (resolution.siteAnswer (List.of_mem_zip paired).1 asked).1

/-- Every symbol is made of an interface, of a concrete type or for a named receiver. -/
theorem makes_of_mem
    (distinct : (scope.decls.map TypeDecl.name).Nodup)
    {symbol : Symbol}
    (member : symbol ∈ resolution.symbols) :
    resolution.Makes symbol := by
  obtain ⟨placed, ofType | ofSite, rfl⟩ := resolution.mem_symbols.mp member
  · obtain ⟨decl, declMember, answers⟩ :=
      exists_related_left (resolution.typeAnswers distinct) ofType
    generalize same : some placed = answer at answers
    cases answers with
    | passedOver _ => cases same
    | interface _ found =>
        split at same
        · cases same
        · next ordinary =>
            cases same
            exact .interface declMember (resolution.steady_final.1.covers.finds _ _ found)
              (by simpa using ordinary)
    | concrete _ _ _ selects =>
        cases same
        exact .concrete declMember selects
  · obtain ⟨site, siteMember, asked⟩ := exists_related_left resolution.asked_sites ofSite
    exact (resolution.siteAnswer siteMember asked).2 placed rfl

/-- The method set of a concrete symbol is what the promotion finds. -/
theorem selects_of_symbol
    (distinct : (scope.decls.map TypeDecl.name).Nodup)
    {symbol : Symbol}
    (member : symbol ∈ resolution.symbols)
    (concrete : symbol.kind = .concrete) :
    scope.Selects resolution.table resolution.final symbol.name symbol.pointer symbol.methods := by
  cases resolution.makes_of_mem distinct member with
  | interface _ _ _ => cases concrete
  | concrete _ selects => exact selects
  | receiver _ selects => exact selects

end Resolution

end Scope

/-- A package resolves when its names are declared once and its declarations come to symbols. -/
theorem resolvePackage_ok
    {package : PackageId}
    {files : List FileScope}
    {symbols : List Symbol}
    {warnings : List Warning}
    (resolved : resolvePackage package files = .ok (symbols, warnings)) :
    ∃ scope, ∃ resolution : Scope.Resolution scope,
      Scope.ofFiles package files = .ok scope ∧ resolution.symbols = symbols ∧
        scope.symbols .initial = (.ok symbols, resolution.final) := by
  unfold resolvePackage at resolved
  cases opened : Scope.ofFiles package files with
  | error _ =>
      rw [opened] at resolved
      cases resolved
  | ok scope =>
      rw [opened] at resolved
      cases answered : scope.symbols .initial with
      | mk outcome final =>
          cases outcome with
          | error _ =>
              simp only [bind, Except.bind, answered] at resolved
              cases resolved
          | ok found =>
              simp only [bind, Except.bind, answered] at resolved
              cases resolved
              obtain ⟨resolution, rfl, rfl⟩ := Scope.symbols_ok.mp answered
              exact ⟨scope, resolution, rfl, rfl, answered⟩

/--
The method sets of a package that resolves.  Every declared type that is concrete has one in both
views, and every concrete symbol has one; each of them consists of the methods of the selector rule
and the overlooked ones, so that it follows the rule exactly when nothing is overlooked.
-/
theorem resolvePackage_selects
    {package : PackageId}
    {files : List FileScope}
    {symbols : List Symbol}
    {warnings : List Warning}
    (resolved : resolvePackage package files = .ok (symbols, warnings)) :
    ∃ scope table final,
      Scope.ofFiles package files = .ok scope ∧
      (∃ after, scope.methodTable .initial = (.ok table, after)) ∧
      scope.symbols .initial = (.ok symbols, final) ∧
      (∀ decl ∈ scope.decls, (decl.spec.isAlias || decl.spec.generic) = false →
        (final.underlying decl.name).isInterface = false → ∀ pointer,
          ∃ methods after,
            scope.concreteMethods table decl.name pointer final = (.ok methods, after) ∧
              (scope.embedding table final.underlying).Selected
                ⟨.declared decl.name, pointer⟩ methods) ∧
      ∀ symbol ∈ symbols, symbol.kind = .concrete →
        (scope.embedding table final.underlying).Selected
          ⟨.declared symbol.name, symbol.pointer⟩ symbol.methods := by
  obtain ⟨scope, resolution, opened, rfl, answered⟩ := resolvePackage_ok resolved
  have distinct := Scope.nodup_names_of_ofFiles opened
  refine ⟨scope, resolution.table, resolution.final, opened,
    ⟨resolution.tabled, resolution.ranMethods⟩, answered, ?_, ?_⟩
  · intro decl member kept notInterface pointer
    exact resolution.selects_of_decl distinct member kept notInterface pointer
  · intro symbol member concrete
    exact resolution.selects_of_symbol distinct member concrete

/-! ## A diamond -/

/-- What is no error is a result. -/
theorem exists_ok_of_isOk
    {answer : Except ε α}
    (isOk : answer.isOk = true) :
    ∃ value, answer = .ok value := by
  cases answer with
  | error _ => cases isOk
  | ok value => exact ⟨value, rfl⟩

/-- A question that does not fail has an answer. -/
theorem ok_of_isOk
    {answer : Except UnitError α × ScopeState}
    (isOk : answer.1.isOk = true) :
    ∃ value after, answer = (.ok value, after) := by
  obtain ⟨value, isValue⟩ := exists_ok_of_isOk isOk
  exact ⟨value, answer.2, Prod.ext isValue rfl⟩

namespace Sketch

/-- A name at an offset. -/
def ident
    (offset : Nat)
    (text : String) :
    Syntax.Ident :=
  ⟨text, ⟨offset, offset + text.length⟩⟩

/-- A type that is named at an offset. -/
def named
    (offset : Nat)
    (name : String) :
    Syntax.TypeExpr :=
  .name (ident offset name).span none (some (ident offset name)) false []

/-- A field that embeds a type. -/
def embeds
    (offset : Nat)
    (name : String) :
    Syntax.FieldDecl :=
  .mk (ident offset name).span [] false (named offset name)

/-- A declaration of a type by its right-hand side. -/
def declares
    (offset : Nat)
    (name : String)
    (isAlias : Bool)
    (type : Syntax.TypeExpr) :
    Syntax.TypeSpec :=
  ⟨⟨offset, offset⟩, some (ident offset name), false, isAlias, type⟩

/-- A method without parameters and results. -/
def method
    (offset : Nat)
    (base name : String) :
    FuncDecl where
  span := ⟨offset, offset⟩
  receiver := some ⟨⟨offset, offset⟩, some (.mk ⟨offset, offset⟩ none false (named offset base))⟩
  name := some (ident offset name)
  generic := false
  params := .list ⟨offset, offset⟩ []
  result := .absent

/-- A file with declarations. -/
def file
    (types : List Syntax.TypeSpec)
    (funcs : List FuncDecl) :
    FileScope where
  index := 0
  path := ⟨"p/a.go"⟩
  text := ""
  lines := ⟨[0]⟩
  source := ⟨some (ident 8 "p"), [], types, funcs⟩
  imports := []
  dotImports := []

/-- The package of the file. -/
def package : PackageId :=
  ⟨⟨"p"⟩, "p"⟩

end Sketch

namespace Diamond

open Sketch (package)

/-- A struct type that embeds types, each given with the offset where it is named. -/
def structType
    (offset : Nat)
    (name : String)
    (embedded : List (Nat × String)) :
    Syntax.TypeSpec :=
  Sketch.declares offset name false
    (.struct ⟨offset, offset⟩ (embedded.map fun field => Sketch.embeds field.1 field.2))

/--
The file that declares `type Z struct{}`, `func (Z) M() {}`, `type A struct{ Z }`,
`type B struct{ A }`, `type C struct{ A }` and `type D struct { B; C }`.
-/
def file : FileScope :=
  Sketch.file
    [ structType 16 "Z" [], structType 62 "A" [(73, "Z")], structType 82 "B" [(93, "A")],
      structType 102 "C" [(113, "A")], structType 122 "D" [(134, "B"), (137, "C")]]
    [Sketch.method 29 "Z" "M"]

/-- The declarations of the package. -/
def scope : Scope :=
  ⟨package, [file], Scope.declsOf file⟩

/-- The methods that the package declares. -/
def table : MethodTable :=
  (scope.methodTable .initial).1.toOption.getD .empty

/-- What has been found at the end of the resolution. -/
def final : ScopeState :=
  (scope.symbols .initial).2

/-- The embedded fields of the package. -/
def embedding : Embedding :=
  scope.embedding table final.underlying

/-- The view on `D` itself. -/
def view : View :=
  ⟨.declared "D", false⟩

/-- Two paths lead from `D` to the only method, and no shorter path leads to one of its name. -/
theorem embedding_found :
    embedding.Hidden view 3 "M" ∧ 2 ≤ (embedding.found view 3 "M").length := by
  have shorter : ∀ depth < 3, (embedding.found view depth "M").isEmpty = true := by
    decide +kernel
  exact ⟨fun depth earlier => List.isEmpty_iff.mp (shorter depth earlier), by decide +kernel⟩

/-- The diamond resolves, and its method sets follow. -/
theorem resolvePackage_selects_diamond :
    ∃ symbols warnings,
      resolvePackage package [file] = .ok (symbols, warnings) ∧
        ∃ scope table final,
          Scope.ofFiles package [file] = .ok scope ∧
          scope.symbols .initial = (.ok symbols, final) ∧
          ∀ symbol ∈ symbols, symbol.kind = .concrete →
            (scope.embedding table final.underlying).Selected
              ⟨.declared symbol.name, symbol.pointer⟩ symbol.methods := by
  have resolves : (resolvePackage package [file]).isOk = true := by decide +kernel
  obtain ⟨⟨symbols, warnings⟩, resolved⟩ := exists_ok_of_isOk resolves
  obtain ⟨scope, table, final, opened, _, answered, _, ofSymbols⟩ :=
    resolvePackage_selects resolved
  exact ⟨symbols, warnings, resolved, scope, table, final, opened, answered, ofSymbols⟩

/-- The diamond resolves with a method for `D` that the selector rule does not promote. -/
theorem concreteMethods_diamond :
    (resolvePackage package [file]).isOk = true ∧
      Scope.ofFiles package [file] = .ok scope ∧
      (∃ symbols, scope.symbols .initial = (.ok symbols, final)) ∧
      (∃ after, scope.methodTable .initial = (.ok table, after)) ∧
      ∃ methods after,
        scope.concreteMethods table "D" false final = (.ok methods, after) ∧
          ∃ method ∈ methods.methods, ¬embedding.Promotes view method := by
  refine ⟨by decide +kernel, rfl, ?_, ?_, ?_⟩
  · obtain ⟨symbols, after, answered⟩ :=
      ok_of_isOk (show (scope.symbols .initial).1.isOk = true by decide +kernel)
    exact ⟨symbols, by rw [final, answered]⟩
  · obtain ⟨found, after, answered⟩ :=
      ok_of_isOk (show (scope.methodTable .initial).1.isOk = true by decide +kernel)
    exact ⟨after, by rw [table, answered]; rfl⟩
  · have names :
        ((scope.concreteMethods table "D" false final).1.toOption.map fun methods =>
          methods.methods.map fun method => method.name.name) = some ["M"] := by
      decide +kernel
    cases answered : scope.concreteMethods table "D" false final with
    | mk outcome after =>
        rw [answered] at names
        cases outcome with
        | error _ => cases names
        | ok methods =>
            have single : (methods.methods.map fun method => method.name.name) = ["M"] :=
              Option.some.inj names
            obtain ⟨method, member, named⟩ :=
              List.mem_map.mp (single ▸ List.mem_singleton_self "M")
            obtain ⟨hidden, several⟩ := embedding_found
            refine ⟨methods, after, rfl, method, member, ?_⟩
            exact Embedding.not_promotes_of_several (named ▸ hidden) (named ▸ several)

end Diamond

end Implementers
