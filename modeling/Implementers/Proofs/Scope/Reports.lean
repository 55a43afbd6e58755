import Implementers.Proofs.Scope.Origin

namespace Implementers

/-!
# What a package reports

A package that resolves reports each declared type once, unless it is blank, an alias, generic or a
mere constraint, and each receiver with a name once, unless its type is generic or has type
arguments.  The reports stand in the order of the files, and within a file in the order in which the
names stand.  There are no others.
-/

open Syntax (FuncDecl Ident Param Receiver TypeExpr TypeSpec)

/-! ## Entries that may be passed over -/

/-- Entries that each come to one value at most come to the values of all of them. -/
theorem exists_options
    {related : α → Option β → Prop}
    {values : γ → List β}
    {left : List α}
    {right : List γ}
    (pairs : List.Forall₂
      (fun entry other => ∃ option, related entry option ∧ values other = option.toList)
      left right) :
    ∃ options, List.Forall₂ related left options ∧
      right.flatMap values = options.flatMap Option.toList := by
  induction pairs with
  | nil => exact ⟨[], .nil, rfl⟩
  | cons head _ inductionHypothesis =>
      obtain ⟨option, relates, isOption⟩ := head
      obtain ⟨options, pairs, areOptions⟩ := inductionHypothesis
      refine ⟨option :: options, .cons relates pairs, ?_⟩
      rw [List.flatMap_cons, List.flatMap_cons, isOption, areOptions]

/-- The answer about an entry that may be absent; then there is none. -/
def AnswersOption
    (related : β → Option γ → Prop) :
    Option β → Option γ → Prop
  | none, answer => answer = none
  | some entry, answer => related entry answer

/-- Answers about the entries that are there are answers about all entries. -/
theorem exists_spread
    {related : β → Option γ → Prop}
    (options : List (Option β))
    {answers : List (Option γ)}
    (pairs : List.Forall₂ related (options.flatMap Option.toList) answers) :
    ∃ spread, List.Forall₂ (AnswersOption related) options spread ∧
      spread.flatMap Option.toList = answers.flatMap Option.toList := by
  induction options generalizing answers with
  | nil =>
      cases pairs
      exact ⟨[], .nil, rfl⟩
  | cons option options inductionHypothesis =>
      rcases option with _ | entry
      · obtain ⟨spread, relates, same⟩ := inductionHypothesis pairs
        exact ⟨none :: spread, .cons rfl relates, same⟩
      · obtain ⟨answer, answers, relatesFirst, pairsRest, rfl⟩ :=
          List.forall₂_cons_left_iff.mp pairs
        obtain ⟨spread, relates, same⟩ := inductionHypothesis pairsRest
        exact ⟨answer :: spread, .cons relatesFirst relates, congrArg (answer.toList ++ ·) same⟩

/-- Entries are related to those that their own are related to. -/
theorem forall₂_trans
    {first : α → β → Prop}
    {second : β → γ → Prop}
    {both : α → γ → Prop}
    {left : List α}
    {middle : List β}
    {right : List γ}
    (pairs : List.Forall₂ first left middle)
    (pairsNext : List.Forall₂ second middle right)
    (joins : ∀ entry other last, first entry other → second other last → both entry last) :
    List.Forall₂ both left right := by
  induction pairs generalizing right with
  | nil =>
      cases pairsNext
      exact .nil
  | cons head _ inductionHypothesis =>
      obtain ⟨last, rest, headNext, restNext, rfl⟩ := List.forall₂_cons_left_iff.mp pairsNext
      exact .cons (joins _ _ _ head headNext) (inductionHypothesis restNext)

/-- Related entries are entries of their lists. -/
theorem forall₂_mem
    {related : α → β → Prop}
    {left : List α}
    {right : List β}
    (pairs : List.Forall₂ related left right) :
    List.Forall₂ (fun entry other => entry ∈ left ∧ related entry other) left right := by
  refine List.forall₂_iff_zip.mpr ⟨pairs.length_eq, fun paired => ?_⟩
  exact ⟨(List.of_mem_zip paired).1, (List.forall₂_iff_zip.mp pairs).2 paired⟩

/-! ## Receivers as they are written -/

/-- A receiver type: a name in parentheses or not, with a pointer in front of it or not. -/
inductive Syntax.TypeExpr.IsReceiver :
    TypeExpr → Bool → Ident → Bool → Prop where
  | name
      {span : Syntax.Span}
      {ident : Ident}
      {hasArgs : Bool}
      {args : List TypeExpr} :
      IsReceiver (.name span none (some ident) hasArgs args) false ident hasArgs
  | paren
      {span : Syntax.Span}
      {inner : TypeExpr}
      {pointer : Bool}
      {ident : Ident}
      {hasArgs : Bool}
      (within : inner.IsReceiver pointer ident hasArgs) :
      IsReceiver (.paren span inner) pointer ident hasArgs
  | pointer
      {span : Syntax.Span}
      {elem : TypeExpr}
      {ident : Ident}
      {hasArgs : Bool}
      (within : elem.IsReceiver false ident hasArgs) :
      IsReceiver (.pointer span elem) true ident hasArgs

namespace Scope

/-- A name leads to a declaration that is no alias, through aliases that are written as names. -/
inductive NamesBase
    (scope : Scope) :
    String → TypeDecl → Prop where
  | itself
      {name : String}
      {decl : TypeDecl}
      (found : scope.lookup? name = some decl)
      (notAlias : decl.spec.isAlias = false) :
      NamesBase scope name decl
  | through
      {name : String}
      {decl target : TypeDecl}
      {span : Syntax.Span}
      {ident : Ident}
      {hasArgs : Bool}
      {args : List TypeExpr}
      (found : scope.lookup? name = some decl)
      (isAlias : decl.spec.isAlias = true)
      (written : decl.spec.type = .name span none (some ident) hasArgs args)
      (leads : NamesBase scope ident.text target) :
      NamesBase scope name target

variable
  {scope : Scope}

/-- What a name leads to is declared and no alias. -/
theorem NamesBase.lookup
    {name : String}
    {decl : TypeDecl}
    (leads : scope.NamesBase name decl) :
    scope.lookup? decl.name = some decl := by
  induction leads with
  | itself found _ => exact lookup?_self found
  | through _ _ _ _ inductionHypothesis => exact inductionHypothesis

theorem NamesBase.notAlias
    {name : String}
    {decl : TypeDecl}
    (leads : scope.NamesBase name decl) :
    decl.spec.isAlias = false := by
  induction leads with
  | itself _ notAlias => exact notAlias
  | through _ _ _ _ inductionHypothesis => exact inductionHypothesis

/-- What aliases lead to is what a name leads to. -/
theorem namesBase_of_throughAliases?
    {decl : TypeDecl} :
    ∀ {hops : Nat} {name : String},
      scope.throughAliases? hops name = some (some decl) → scope.NamesBase name decl
  | 0, _, leads => by cases leads
  | hops + 1, name, leads => by
      simp only [throughAliases?] at leads
      split at leads
      · cases leads
      · next found =>
          split at leads
          · next isAlias =>
              split at leads
              · next written =>
                  split at leads
                  · cases leads
                  · split at leads
                    · cases leads
                    · exact .through found isAlias written (namesBase_of_throughAliases? leads)
              · cases leads
          · next notAlias =>
              cases leads
              exact .itself found (eq_false_of_ne_true notAlias)

/-- A receiver type that comes down to a name is written as a receiver. -/
theorem isReceiver_of_bareReceiver
    {span : Syntax.Span}
    {ident : Ident}
    {hasArgs : Bool}
    {args : List TypeExpr}
    {isPointer : Bool}
    (type : TypeExpr)
    (pointer : Bool)
    (isBare : bareReceiver pointer type =
      .ok ⟨isPointer, .name span none (some ident) hasArgs args⟩) :
    ∃ own, type.IsReceiver own ident hasArgs ∧ isPointer = (pointer || own) ∧
      (pointer = true → own = false) := by
  fun_induction bareReceiver pointer type with
  | case1 => cases isBare
  | case2 pointer _ inner _ inductionHypothesis =>
      obtain ⟨own, within, rest⟩ := inductionHypothesis isBare
      exact ⟨own, .paren within, rest⟩
  | case3 => cases isBare
  | case4 => cases isBare
  | case5 pointer _ notPointer elem _ inductionHypothesis =>
      obtain ⟨own, within, isPointer, once⟩ := inductionHypothesis isBare
      rw [once rfl] at within
      refine ⟨true, .pointer within, ?_, fun again => absurd again notPointer⟩
      rw [isPointer, Bool.true_or, Bool.or_true]
  | case6 pointer other =>
      cases isBare
      exact ⟨false, .name, (Bool.or_false _).symm, fun _ => rfl⟩

/-- The base of a receiver that answers is what its name denotes, unless that is generic. -/
theorem receiverBase_ok
    {file : FileScope}
    {position : Position}
    {type : TypeExpr}
    {state after : ScopeState}
    {base : Option TypeDecl}
    (answered : scope.receiverBase file position type state = (.ok base, after)) :
    ∃ span ident hasArgs args decl,
      type = .name span none (some ident) hasArgs args ∧ scope.NamesBase ident.text decl ∧
        ((decl.spec.generic || hasArgs) = true ∧ base = none ∨
          (decl.spec.generic || hasArgs) = false ∧ base = some decl) := by
  cases type with
  | name span qualifier ident hasArgs args =>
      rcases qualifier with _ | _
      · rcases ident with _ | ident
        · cases answered
        · simp only [receiverBase] at answered
          rcases leads : scope.throughAliases? aliasLimit ident.text with _ | _ | decl
          · rw [leads] at answered
            cases answered
          · rw [leads] at answered
            simp only at answered
            split at answered <;> cases answered
          · rw [leads] at answered
            refine ⟨span, ident, hasArgs, args, decl, rfl, namesBase_of_throughAliases? leads, ?_⟩
            by_cases isGeneric : (decl.spec.generic || hasArgs) = true
            · simp only [if_pos isGeneric] at answered
              cases answered
              exact .inl ⟨isGeneric, rfl⟩
            · simp only [if_neg isGeneric] at answered
              obtain ⟨underlying, middle, _, next⟩ := Resolve.andThen_ok answered
              split at next
              · cases next
              · cases next
                exact .inr ⟨eq_false_of_ne_true isGeneric, rfl⟩
      · cases answered
  | _ => cases answered

/-- What a receiver clause that answers is a receiver of. -/
structure ReceiverOf
    (scope : Scope)
    (receiver : Receiver)
    (param : Param)
    (pointer : Bool)
    (hasArgs : Bool)
    (decl : TypeDecl) :
    Prop where
  isParam : receiver.param = some param
  denotes : ∃ ident, param.type.IsReceiver pointer ident hasArgs ∧ scope.NamesBase ident.text decl

/-- A receiver clause that answers is one of a declared type, whose methods count if it is plain. -/
theorem receiverOf_answered
    {file : FileScope}
    {receiver : Receiver}
    {state after : ScopeState}
    {base : Option (TypeDecl × Bool)}
    (answered : scope.receiverOf file receiver state = (.ok base, after)) :
    ∃ param pointer hasArgs decl,
      scope.ReceiverOf receiver param pointer hasArgs decl ∧
        ((decl.spec.generic || hasArgs) = true ∧ base = none ∨
          (decl.spec.generic || hasArgs) = false ∧ base = some (decl, pointer)) := by
  obtain ⟨span, param⟩ := receiver
  rcases param with _ | param
  · cases answered
  · have written (answered : scope.writtenReceiver file (file.position span.start) param.type state =
          (.ok base, after)) :
        ∃ pointer hasArgs decl,
          scope.ReceiverOf ⟨span, some param⟩ param pointer hasArgs decl ∧
            ((decl.spec.generic || hasArgs) = true ∧ base = none ∨
              (decl.spec.generic || hasArgs) = false ∧ base = some (decl, pointer)) := by
      unfold writtenReceiver at answered
      rcases bare : bareReceiver false param.type with _ | ⟨isPointer, type⟩
      · rw [bare] at answered
        cases answered
      · rw [bare] at answered
        obtain ⟨found, middle, ran, returned⟩ := Resolve.andThen_ok answered
        obtain ⟨same, rfl⟩ := Prod.mk.inj returned
        obtain rfl := Except.ok.inj same
        obtain ⟨_, ident, hasArgs, args, decl, rfl, denotes, outcome⟩ := receiverBase_ok ran
        obtain ⟨own, isReceiver, isOwn, _⟩ := isReceiver_of_bareReceiver _ _ bare
        rw [Bool.false_or] at isOwn
        subst isOwn
        refine ⟨isPointer, hasArgs, decl, ⟨rfl, ident, isReceiver, denotes⟩, ?_⟩
        rcases outcome with ⟨isGeneric, rfl⟩ | ⟨plain, rfl⟩
        · exact .inl ⟨isGeneric, rfl⟩
        · exact .inr ⟨plain, rfl⟩
    obtain ⟨paramSpan, name, variadic, type⟩ := param
    cases type with
    | missing _ => cases answered
    | _ => exact ⟨_, written answered⟩

/-! ## Reports -/

/-- The method set of a view on a declared type at the end of a resolution. -/
def HasMethods
    (scope : Scope)
    (table : MethodTable)
    (final : ScopeState)
    (base : String)
    (pointer : Bool)
    (methods : MethodSet) :
    Prop :=
  ∃ after, scope.concreteMethods table base pointer final = (.ok methods, after)

/-- What a package reports of a type declaration of a file. -/
inductive TypeReport
    (scope : Scope)
    (final : ScopeState)
    (table : MethodTable)
    (file : FileScope)
    (spec : TypeSpec) :
    Option PlacedSymbol → Prop where
  | unnamed
      (absent : spec.name = none) :
      TypeReport scope final table file spec none
  | blank
      {name : Ident}
      (named : spec.name = some name)
      (isBlank : name.text = blankName) :
      TypeReport scope final table file spec none
  | passedOver
      (isPassedOver : (spec.isAlias || spec.generic) = true) :
      TypeReport scope final table file spec none
  | constraint
      {name : Ident}
      {interface : InterfaceMethods}
      (named : spec.name = some name)
      (found : final.finished.lookup name.text = some (.interface interface))
      (isConstraint : interface.isConstraint = true) :
      TypeReport scope final table file spec none
  | interface
      {name : Ident}
      {interface : InterfaceMethods}
      (named : spec.name = some name)
      (visible : name.text ≠ blankName)
      (kept : (spec.isAlias || spec.generic) = false)
      (found : final.finished.lookup name.text = some (.interface interface))
      (ordinary : interface.isConstraint = false) :
      TypeReport scope final table file spec (some
        ⟨file.index, name.span.start,
          { name := name.text
            package := scope.package
            kind := .interface
            pointer := false
            position := file.position name.span.start
            declaration := file.position name.span.start
            methods := interface.methods
            isPartial := interface.isPartial }⟩)
  | concrete
      {name : Ident}
      {underlying : Underlying}
      {methods : MethodSet}
      (named : spec.name = some name)
      (visible : name.text ≠ blankName)
      (kept : (spec.isAlias || spec.generic) = false)
      (found : final.finished.lookup name.text = some underlying)
      (notInterface : underlying.isInterface = false)
      (hasMethods : scope.HasMethods table final name.text false methods) :
      TypeReport scope final table file spec (some
        ⟨file.index, name.span.start,
          { name := name.text
            package := scope.package
            kind := .concrete
            pointer := false
            position := file.position name.span.start
            declaration := file.position name.span.start
            methods
            isPartial := false }⟩)

/-- What a package reports of a function declaration of a file. -/
inductive ReceiverReport
    (scope : Scope)
    (final : ScopeState)
    (table : MethodTable)
    (file : FileScope)
    (func : FuncDecl) :
    Option PlacedSymbol → Prop where
  | function
      (absent : func.receiver = none) :
      ReceiverReport scope final table file func none
  | nameless
      (absent : func.name = none) :
      ReceiverReport scope final table file func none
  | unnamed
      {receiver : Receiver}
      (received : func.receiver = some receiver)
      (absent : receiver.param.bind Param.name = none) :
      ReceiverReport scope final table file func none
  | blank
      {receiver : Receiver}
      {name : Ident}
      (received : func.receiver = some receiver)
      (named : receiver.param.bind Param.name = some name)
      (isBlank : name.text = blankName) :
      ReceiverReport scope final table file func none
  | generic
      {receiver : Receiver}
      {param : Param}
      {pointer hasArgs : Bool}
      {decl : TypeDecl}
      (received : func.receiver = some receiver)
      (isReceiver : scope.ReceiverOf receiver param pointer hasArgs decl)
      (isGeneric : (decl.spec.generic || hasArgs) = true) :
      ReceiverReport scope final table file func none
  | reported
      {receiver : Receiver}
      {param : Param}
      {name : Ident}
      {pointer : Bool}
      {decl : TypeDecl}
      {methods : MethodSet}
      (received : func.receiver = some receiver)
      (declares : func.name.isSome)
      (isReceiver : scope.ReceiverOf receiver param pointer false decl)
      (named : param.name = some name)
      (visible : name.text ≠ blankName)
      (plain : decl.spec.generic = false)
      (hasMethods : scope.HasMethods table final decl.name pointer methods) :
      ReceiverReport scope final table file func (some
        ⟨file.index, name.span.start,
          { name := decl.name
            package := scope.package
            kind := .concrete
            pointer
            position := file.position name.span.start
            declaration := decl.position
            methods
            isPartial := false }⟩)

/-- The type declarations of a package with their files. -/
def typeSpecs
    (scope : Scope) :
    List (FileScope × TypeSpec) :=
  scope.files.flatMap fun file => file.source.types.map fun spec => (file, spec)

/-- The site that a function declaration adds to the method table of its package. -/
inductive Sited
    (scope : Scope)
    (func : FileScope × FuncDecl) :
    Option ReceiverSite → Prop where
  | passedOver
      (reports : ∀ final table, scope.ReceiverReport final table func.1 func.2 none) :
      Sited scope func none
  | sited
      {receiver : Receiver}
      {param : Param}
      {name : Ident}
      {pointer : Bool}
      {decl : TypeDecl}
      (received : func.2.receiver = some receiver)
      (declares : func.2.name.isSome)
      (isReceiver : scope.ReceiverOf receiver param pointer false decl)
      (named : param.name = some name)
      (visible : name.text ≠ blankName)
      (plain : decl.spec.generic = false) :
      Sited scope func (some ⟨decl.name, pointer, func.1, name.span.start⟩)

/-- The site of a receiver of a plain type is its name. -/
theorem sited_receiverSite?
    {func : FileScope × FuncDecl}
    {receiver : Receiver}
    {param : Param}
    {pointer hasArgs : Bool}
    {decl : TypeDecl}
    (received : func.2.receiver = some receiver)
    (declares : func.2.name.isSome)
    (isReceiver : scope.ReceiverOf receiver param pointer hasArgs decl)
    (plain : (decl.spec.generic || hasArgs) = false) :
    scope.Sited func (receiverSite? func.1 receiver decl.name pointer) := by
  obtain ⟨notGeneric, rfl⟩ := Bool.or_eq_false_iff.mp plain
  have isParam := isReceiver.isParam
  unfold receiverSite?
  rcases named : param.name with _ | name
  · rw [isParam, Option.bind_some, named]
    exact .passedOver fun _ _ => .unnamed received (by rw [isParam, Option.bind_some, named])
  · rw [isParam, Option.bind_some, named, Option.bind_some]
    by_cases isBlank : name.text = blankName
    · rw [if_pos (beq_iff_eq.mpr isBlank)]
      exact .passedOver fun _ _ =>
        .blank received (by rw [isParam, Option.bind_some, named]) isBlank
    · rw [if_neg (by simpa using isBlank)]
      exact .sited received declares isReceiver named isBlank notGeneric

/-- A function declaration that answers adds its site to the table, if it has one. -/
theorem sited_of_entry
    {func : FileScope × FuncDecl}
    {state after : ScopeState}
    {entry : MethodTable}
    (answered : scope.entry func state = (.ok entry, after)) :
    ∃ site, scope.Sited func site ∧ entry.receivers = site.toList := by
  obtain ⟨file, func⟩ := func
  unfold Scope.entry addMethodDecl at answered
  rcases received : func.receiver with _ | receiver
  · rw [received] at answered
    cases answered
    exact ⟨none, .passedOver fun _ _ => .function received, rfl⟩
  rw [received] at answered
  obtain ⟨base, middle, ran, next⟩ := Resolve.andThen_ok answered
  obtain ⟨param, pointer, hasArgs, decl, isReceiver, outcome⟩ := receiverOf_answered ran
  rcases outcome with ⟨isGeneric, rfl⟩ | ⟨plain, rfl⟩
  · cases next
    exact ⟨none, .passedOver fun _ _ => .generic received isReceiver isGeneric, rfl⟩
  rcases named : func.name with _ | name
  · rw [named] at next
    cases next
    exact ⟨none, .passedOver fun _ _ => .nameless named, rfl⟩
  have declares : func.name.isSome := by
    rw [named]
    rfl
  refine ⟨receiverSite? file receiver decl.name pointer,
    sited_receiverSite? received declares isReceiver plain, ?_⟩
  simp only [named] at next
  split at next
  · cases next
    exact List.nil_append _
  · obtain ⟨signature, last, _, returned⟩ := Resolve.andThen_ok next
    split at returned
    · cases returned
    · cases returned
      exact List.nil_append _

namespace Resolution

variable
  (resolution : Resolution scope)

/-- The receivers of a package are the sites of its function declarations. -/
theorem exists_sites :
    ∃ sites, List.Forall₂ scope.Sited scope.funcDecls sites ∧
      resolution.table.receivers = sites.flatMap Option.toList := by
  obtain ⟨entries, ranEntries, joined, _⟩ :=
    (addMethodDecls_ok _ MethodTable.distinct_empty).mp resolution.ranMethods
  obtain ⟨_, _, asked⟩ :=
    asked_of_askAll (scope.eager_addMethodDecl .empty) scope.funcDecls
      (ScopeState.initial_coherent scope) ranEntries
  rw [joined, MethodTable.empty_join]
  refine exists_options (asked.imp fun func entry askedOne => ?_)
  obtain ⟨before, after, answered, _⟩ := askedOne.between
  exact sited_of_entry answered

/-- What was found to be the method set of a view is its method set at the end. -/
theorem hasMethods
    (distinct : (scope.decls.map TypeDecl.name).Nodup)
    {decl : TypeDecl}
    (declared : scope.lookup? decl.name = some decl)
    (kept : (decl.spec.isAlias || decl.spec.generic) = false)
    {underlying : Underlying}
    (found : resolution.final.finished.lookup decl.name = some underlying)
    (notInterface : underlying.isInterface = false)
    {pointer : Bool}
    {before after : ScopeState}
    {methods : MethodSet}
    (coherent : before.Coherent scope)
    (answered :
      scope.concreteMethods resolution.table decl.name pointer before = (.ok methods, after))
    (steady : after.Steady resolution.final) :
    scope.HasMethods resolution.table resolution.final decl.name pointer methods := by
  have member := List.mem_of_find?_eq_some declared
  have promotable := promotable_of_lookup declared kept
  have stillNotInterface : (resolution.final.underlying decl.name).isInterface = false := by
    rwa [(ScopeState.Covers.refl resolution.final).finds _ _ found]
  obtain ⟨again, last, ranAgain, finds⟩ :=
    resolution.concreteMethods_final distinct member kept stillNotInterface pointer
  have same : again = methods :=
    calc
      again = _ := concreteMethods_eq promotable resolution.steady_final.2 ranAgain finds
      _ = methods := (concreteMethods_eq promotable coherent answered steady.covers.finds).symm
  exact ⟨last, same ▸ ranAgain⟩

/-- Nothing is reported of a type declaration that declares no name. -/
theorem typeReport_of_declOf?
    {file : FileScope}
    {spec : TypeSpec}
    (made : file.declOf? spec = none)
    {final : ScopeState}
    {table : MethodTable} :
    scope.TypeReport final table file spec none := by
  rcases named : spec.name with _ | name
  · exact .unnamed named
  · refine .blank named ?_
    simpa [FileScope.declOf?, named] using made

/-- What was found out about a declared type is what the package reports of its declaration. -/
theorem typeReport
    (distinct : (scope.decls.map TypeDecl.name).Nodup)
    {file : FileScope}
    {spec : TypeSpec}
    {decl : TypeDecl}
    (made : file.declOf? spec = some decl)
    (member : decl ∈ scope.decls)
    {answer : Option PlacedSymbol}
    (asked : Asked scope resolution.tabled resolution.known
      (scope.declSymbol? resolution.table) decl answer) :
    scope.TypeReport resolution.final resolution.table file spec answer := by
  obtain ⟨name, named, visible, rfl⟩ : ∃ name, spec.name = some name ∧ name.text ≠ blankName ∧
      decl = ⟨name.text, file, spec, name.span.start⟩ := by
    obtain ⟨name, named, isDecl⟩ := Option.bind_eq_some_iff.mp made
    simp only [Option.ite_none_left_eq_some, beq_iff_eq] at isDecl
    exact ⟨name, named, isDecl.1, (Option.some.inj isDecl.2).symm⟩
  obtain ⟨before, after, answered, beforeCoherent, _, _, steadyKnown⟩ := asked.between
  have steadyFinal := steadyKnown.trans resolution.steady_final.1
  have declared := lookup?_of_mem distinct member
  cases declSymbol?_ok declared beforeCoherent answered with
  | passedOver isPassedOver => exact .passedOver isPassedOver
  | @interface interface _ kept found =>
      have foundFinally := steadyFinal.covers _ _ found
      by_cases isConstraint : interface.isConstraint = true
      · rw [if_pos isConstraint]
        exact .constraint named foundFinally isConstraint
      · rw [if_neg isConstraint]
        exact .interface named visible kept foundFinally (eq_false_of_ne_true isConstraint)
  | @concrete underlying start _ methods kept startCoherent found notInterface ran =>
      have eager :=
        (hastening scope).concreteMethods (.stay scope) (hastening_declMeaning scope)
          resolution.table resolution.table name.text false false
      obtain ⟨steadyRun, _⟩ := eager.steady startCoherent ran
      have foundFinally := (steadyRun.trans steadyFinal).covers _ _ found
      exact .concrete named visible kept foundFinally notInterface
        (resolution.hasMethods distinct declared kept foundFinally notInterface startCoherent ran
          steadyFinal)

/-- What was found out about a named receiver is what the package reports of its function. -/
theorem receiverReport
    (distinct : (scope.decls.map TypeDecl.name).Nodup)
    {func : FileScope × FuncDecl}
    {site : ReceiverSite}
    (isSited : scope.Sited func (some site))
    (member : site ∈ resolution.table.receivers)
    {answer : Option PlacedSymbol}
    (asked : Asked scope resolution.known resolution.final
      (scope.siteSymbol? resolution.table) site answer) :
    scope.ReceiverReport resolution.final resolution.table func.1 func.2 answer := by
  obtain ⟨before, after, answered, beforeCoherent, _, _, steadyFinal⟩ := asked.between
  have receivable := resolution.receives site member
  cases isSited with
  | @sited receiver param name pointer decl received declares isReceiver named visible plain =>
      obtain ⟨_, _, namesBase⟩ := isReceiver.denotes
      have declared := namesBase.lookup
      obtain ⟨underlying, tabled, notInterface⟩ := receivable.found
      have found := (resolution.steady_known.1.trans resolution.steady_final.1).covers _ _ tabled
      simp only [siteSymbol?, declared] at answered
      obtain ⟨methods, last, ran, returned⟩ := Resolve.andThen_ok answered
      cases returned
      have kept : (decl.spec.isAlias || decl.spec.generic) = false := by
        rw [namesBase.notAlias, plain]
        rfl
      exact .reported received declares isReceiver named visible plain
        (resolution.hasMethods distinct declared kept found notInterface beforeCoherent ran
          steadyFinal)

/-- What a package reports of its type declarations. -/
theorem exists_typeReports
    (distinct : (scope.decls.map TypeDecl.name).Nodup)
    (opened : scope.decls = scope.files.flatMap declsOf) :
    ∃ reports,
      List.Forall₂
        (fun place => scope.TypeReport resolution.final resolution.table place.1 place.2)
        scope.typeSpecs reports ∧
      reports.flatMap Option.toList = resolution.types.flatMap Option.toList := by
  have options : scope.decls =
      (scope.typeSpecs.map fun place => place.1.declOf? place.2).flatMap Option.toList := by
    rw [opened, typeSpecs, List.map_flatMap, List.flatMap_assoc]
    refine List.flatMap_congr fun file _ => ?_
    rw [List.map_map, List.flatMap_map]
    exact List.filterMap_eq_flatMap_toList file.declOf? file.source.types
  have asked := forall₂_mem resolution.asked_types
  rw [options] at asked
  obtain ⟨reports, answered, same⟩ := exists_spread _ asked
  refine ⟨reports, (List.forall₂_map_left_iff.mp answered).imp fun place report answers => ?_, same⟩
  rcases made : place.1.declOf? place.2 with _ | decl
  · rw [made] at answers
    obtain rfl : report = none := answers
    exact typeReport_of_declOf? made
  · rw [made] at answers
    obtain ⟨member, askedOne⟩ := answers
    exact resolution.typeReport distinct made (options ▸ member) askedOne

/-- What a package reports of its function declarations. -/
theorem exists_receiverReports
    (distinct : (scope.decls.map TypeDecl.name).Nodup) :
    ∃ reports,
      List.Forall₂
        (fun place => scope.ReceiverReport resolution.final resolution.table place.1 place.2)
        scope.funcDecls reports ∧
      reports.flatMap Option.toList = resolution.sites.flatMap Option.toList := by
  obtain ⟨sites, areSited, receivers⟩ := resolution.exists_sites
  have asked := forall₂_mem resolution.asked_sites
  rw [receivers] at asked
  obtain ⟨reports, answered, same⟩ := exists_spread sites asked
  refine ⟨reports, forall₂_trans areSited answered fun func site report isSited answers => ?_, same⟩
  rcases site with _ | site
  · obtain rfl : report = none := answers
    cases isSited with
    | passedOver reports => exact reports _ _
  · obtain ⟨member, askedOne⟩ := answers
    exact resolution.receiverReport distinct isSited (receivers ▸ member) askedOne

end Resolution

end Scope

/-- Sorting symbols by their places puts them in the order of the files and of the offsets. -/
theorem PlacedSymbol.pairwise_mergeSort
    (symbols : List PlacedSymbol) :
    (symbols.mergeSort notAfter).Pairwise fun left right =>
      left.file < right.file ∨ left.file = right.file ∧ left.offset ≤ right.offset := by
  have inOrder (left right : PlacedSymbol) :
      left.notAfter right = true ↔
        left.file < right.file ∨ left.file = right.file ∧ left.offset ≤ right.offset := by
    simp [notAfter]
  have sorted : (symbols.mergeSort notAfter).Pairwise fun left right => left.notAfter right := by
    apply List.pairwise_mergeSort
    · intro first second third earlier later
      rw [inOrder] at earlier later ⊢
      omega
    · intro left right
      rw [Bool.or_eq_true, inOrder, inOrder]
      omega
  exact sorted.imp fun before => (inOrder _ _).mp before

/--
What a package reports that resolves.  Each of its type declarations and each of its function
declarations comes to one report or to none, and the symbols are these reports, in the order of the
files and of the offsets of the names.
-/
theorem resolvePackage_reports
    {package : PackageId}
    {files : List PackageFile}
    {symbols : List Symbol}
    {warnings : List Warning}
    (resolved : resolvePackage package (PackageFile.scopes 0 files) = .ok (symbols, warnings)) :
    ∃ scope table final,
      Scope.ofFiles package (PackageFile.scopes 0 files) = .ok scope ∧
      (∃ after, scope.methodTable .initial = (.ok table, after)) ∧
      scope.symbols .initial = (.ok symbols, final) ∧
      scope.files = PackageFile.scopes 0 files ∧
      (∀ (index : Nat) (file : FileScope), scope.files[index]? = some file → file.index = index) ∧
      scope.decls = scope.files.flatMap Scope.declsOf ∧
      ∃ (types receivers : List (Option PlacedSymbol)) (placed : List PlacedSymbol),
        List.Forall₂ (fun place => scope.TypeReport final table place.1 place.2)
          scope.typeSpecs types ∧
        List.Forall₂ (fun place => scope.ReceiverReport final table place.1 place.2)
          scope.funcDecls receivers ∧
        placed.Perm ((types ++ receivers).flatMap Option.toList) ∧
        placed.Pairwise (fun left right =>
          left.file < right.file ∨ left.file = right.file ∧ left.offset ≤ right.offset) ∧
        symbols = placed.map PlacedSymbol.symbol := by
  obtain ⟨scope, resolution, isOpened, rfl, answered⟩ := resolvePackage_ok resolved
  have distinct := Scope.nodup_names_of_ofFiles isOpened
  obtain ⟨rfl, _⟩ := Scope.ofFiles_ok.mp isOpened
  obtain ⟨types, typeReports, sameTypes⟩ := resolution.exists_typeReports distinct rfl
  obtain ⟨receivers, receiverReports, sameReceivers⟩ := resolution.exists_receiverReports distinct
  refine ⟨_, resolution.table, resolution.final, isOpened,
    ⟨resolution.tabled, resolution.ranMethods⟩, answered, rfl, ?_, rfl, types, receivers,
    (resolution.types.flatMap Option.toList ++
      resolution.sites.flatMap Option.toList).mergeSort PlacedSymbol.notAfter,
    typeReports, receiverReports, ?_, PlacedSymbol.pairwise_mergeSort _, rfl⟩
  · intro index file isFile
    obtain ⟨source, _, rfl⟩ := Option.map_eq_some_iff.mp
      ((PackageFile.getElem?_scopes 0 index files).symm.trans isFile)
    exact Nat.zero_add index
  · rw [List.flatMap_append, sameTypes, sameReceivers]
    exact List.mergeSort_perm _ _

namespace Argued

/-- A file with a type and a method, whose receiver is given. -/
def text
    (receiver : String) :
    String :=
  "package p\n\ntype T struct\x7b\x7d\n\nfunc (" ++ receiver ++ ") M() \x7b\x7d\n"

/-- The package of the file. -/
def package : PackageId :=
  ⟨⟨"p"⟩, "p"⟩

/-- The parsed file. -/
def files
    (receiver : String) :
    List PackageFile :=
  ((PackageFile.ofText ⟨"p/a.go"⟩ (text receiver)).toOption).toList

/-- The file of the package. -/
def scopes
    (receiver : String) :
    List FileScope :=
  PackageFile.scopes 0 (files receiver)

/-- The type and the pointer to it are reported, each where it is written. -/
theorem resolvePackage_reports_pointer :
    ∃ symbols warnings,
      resolvePackage package (scopes "t *T") = .ok (symbols, warnings) ∧
        ∃ scope table final,
          Scope.ofFiles package (scopes "t *T") = .ok scope ∧
            ∃ (types receivers : List (Option PlacedSymbol)) (placed : List PlacedSymbol),
              List.Forall₂ (fun place => scope.TypeReport final table place.1 place.2)
                scope.typeSpecs types ∧
              List.Forall₂ (fun place => scope.ReceiverReport final table place.1 place.2)
                scope.funcDecls receivers ∧
              placed.Perm ((types ++ receivers).flatMap Option.toList) ∧
              placed.Pairwise (fun left right =>
                left.file < right.file ∨ left.file = right.file ∧ left.offset ≤ right.offset) ∧
              symbols = placed.map PlacedSymbol.symbol := by
  have resolves : (resolvePackage package (scopes "t *T")).isOk = true := by
    decide +kernel
  obtain ⟨⟨symbols, warnings⟩, resolved⟩ := exists_ok_of_isOk resolves
  obtain ⟨scope, table, final, isOpened, _, _, _, _, _, types, receivers, placed, ofTypes,
    ofReceivers, all, sorted, same⟩ := resolvePackage_reports resolved
  exact ⟨symbols, warnings, resolved, scope, table, final, isOpened, types, receivers, placed,
    ofTypes, ofReceivers, all, sorted, same⟩

/-- Whether a function has a named receiver of a plain type that is written with type arguments. -/
def isArgued
    (file : FileScope)
    (symbols : List Symbol)
    (func : FuncDecl) :
    Bool :=
  match func.receiver with
  | some ⟨_, some ⟨_, some name, _, .name _ none (some ident) true _⟩⟩ =>
      name.text != blankName &&
        ((⟨package, [file], Scope.declsOf file⟩ : Scope).lookup? ident.text).any
          (fun decl => !decl.spec.isAlias && !decl.spec.generic) &&
        symbols.all fun symbol => symbol.position != file.position name.span.start
  | _ => false

/-- A named receiver of a type that is not generic is not reported if it has type arguments. -/
theorem resolvePackage_argued :
    ∃ file symbols warnings,
      scopes "t T[int]" = [file] ∧ resolvePackage package [file] = .ok (symbols, warnings) ∧
        ∃ func ∈ file.source.funcs, ∃ receiver param name ident decl,
          func.receiver = some receiver ∧ receiver.param = some param ∧ param.name = some name ∧
            name.text ≠ blankName ∧ param.type.IsReceiver false ident true ∧
            (⟨package, [file], Scope.declsOf file⟩ : Scope).NamesBase ident.text decl ∧
            decl.spec.generic = false ∧
            ∀ symbol ∈ symbols, symbol.position ≠ file.position name.span.start := by
  have single : (scopes "t T[int]").length = 1 := by decide +kernel
  have shown :
      (scopes "t T[int]").all (fun file =>
        (resolvePackage package [file]).toOption.any fun answer =>
          file.source.funcs.any (isArgued file answer.1)) = true := by
    decide +kernel
  obtain ⟨file, isFile⟩ := List.length_eq_one_iff.mp single
  rw [isFile] at shown
  cases resolved : resolvePackage package [file] with
  | error _ =>
      simp only [List.all_cons, resolved, Except.toOption] at shown
      cases shown
  | ok answer =>
      simp only [List.all_cons, List.all_nil, Bool.and_true, resolved, Except.toOption,
        Option.any_some, List.any_eq_true] at shown
      obtain ⟨func, member, argued⟩ := shown
      unfold isArgued at argued
      split at argued
      · next received =>
          simp only [Bool.and_eq_true, bne_iff_ne, Option.any_eq_true, Bool.not_eq_true',
            List.all_eq_true] at argued
          obtain ⟨⟨visible, decl, found, notAlias, plain⟩, apart⟩ := argued
          exact ⟨file, answer.1, answer.2, isFile, resolved, func, member, _, _, _, _, decl, received,
            rfl, rfl, visible, .name, .itself found notAlias, plain, apart⟩
      · cases argued

end Argued

end Implementers
