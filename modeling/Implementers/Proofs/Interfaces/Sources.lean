import Implementers.Proofs.Interfaces.Founded

namespace Implementers

/-!
# Interfaces gather what they embed

A run over the elements of an interface comes to the methods and flags of the closure of these
elements, given that what is underneath declared names fits their sources.  So does every search for
what is underneath a declared name, by induction on the declarations that are looked into inside
each other.
-/

open Syntax (Ident TypeExpr Elem ParamList)

/-- What declared names mean at a depth keeps states founded and fits the sources of the names. -/
structure Grounded
    (scope : Scope)
    (final : ScopeState)
    (depth : Nat) :
    Prop where
  within : depth ≤ scope.decls.length + 1
  agreement :
    (founding scope final).Agreement .stay scope (scope.meaning depth) (scope.meaning depth)
  sourced : ∀ name decl, scope.lookup? name = some decl → ∀ state value after,
    Run scope final ((scope.meaning depth).underlying decl) state value after →
      scope.Sourced final decl.file decl.spec.type value

namespace Grounded

variable
  {scope : Scope}
  {final : ScopeState}
  {depth : Nat}

/-! ## Names -/

/-- What is underneath an undeclared name fits the source of the name. -/
theorem fits_undeclared
    {file : FileScope}
    {ident : Ident}
    {state after : ScopeState}
    {value : Underlying}
    (answered : scope.undeclaredUnderlying file ident state = (.ok value, after)) :
    ∃ source, Scope.undeclaredSource? file ident.text = some source ∧
      scope.Fits final source value := by
  revert answered
  fun_cases Scope.undeclaredUnderlying scope file ident with
  | case1 named =>
      intro answered
      cases answered
      exact ⟨.errorInterface, by rw [named]; rfl, .interface rfl Scope.gathers_error⟩
  | case2 named =>
      intro answered
      cases answered
      exact ⟨.anyInterface, by rw [named]; rfl, .interface rfl Scope.gathers_any⟩
  | case3 named =>
      intro answered
      cases answered
      exact ⟨.comparableInterface, by rw [named]; rfl, .interface rfl Scope.gathers_comparable⟩
  | case4 _ _ _ predeclared =>
      intro answered
      cases answered
      refine ⟨.restriction, ?_, .other⟩
      simp_all [Scope.undeclaredSource?]
  | case5 path dotImported _ _ _ unknown =>
      intro answered
      cases answered
      have hasDots : file.dotImports.isEmpty = false := by
        cases dots : file.dotImports with
        | nil => simp [dots] at dotImported
        | cons _ _ => rfl
      refine ⟨.imported, ?_, .imported⟩
      simp_all [Scope.undeclaredSource?]
  | case6 =>
      intro answered
      cases answered

/-- What is underneath a name fits the source that the name leads to. -/
theorem sourced_plainName
    (grounded : Grounded scope final depth)
    {file : FileScope}
    {span : Syntax.Span}
    {qualifier ident : Option Ident}
    {hasArgs : Bool}
    {args : List TypeExpr}
    {state after : ScopeState}
    {value : Underlying}
    (plain : (qualifier.isNone && hasArgs) = false)
    (run : Run scope final
      (scope.plainNameUnderlying (scope.meaning depth) file span qualifier ident)
      state value after) :
    scope.Sourced final file (.name span qualifier ident hasArgs args) value := by
  cases ident with
  | none => cases run.answered
  | some ident =>
      cases qualifier with
      | some package =>
          simp only [Scope.plainNameUnderlying] at run
          cases known : file.importPath? package.text with
          | none =>
              rw [known] at run
              cases run.answered
          | some path =>
              rw [known] at run
              cases run.answered
              exact ⟨.imported, .qualified known, .imported⟩
      | none =>
          obtain rfl : hasArgs = false := plain
          simp only [Scope.plainNameUnderlying] at run
          cases found : scope.lookup? ident.text with
          | some decl =>
              rw [found] at run
              obtain ⟨source, leads, fits⟩ := grounded.sourced _ decl found _ _ _ run
              exact ⟨source, .declared found leads, fits⟩
          | none =>
              rw [found] at run
              obtain ⟨source, known, fits⟩ := fits_undeclared run.answered
              exact ⟨source, .undeclared found known, fits⟩

/-- What an embedded name contributes is gathered from its source. -/
theorem gathers_contribution
    {file : FileScope}
    {span : Syntax.Span}
    {position : Position}
    {source : InterfaceSource}
    {underlying : Underlying}
    {state after : ScopeState}
    {inner : InterfaceMethods}
    (fits : scope.Fits final source underlying)
    (answered : Scope.contribution file span position underlying state = (.ok inner, after)) :
    scope.Gathers final source inner := by
  cases fits with
  | interface _ gathers =>
      cases answered
      exact gathers
  | imported =>
      cases answered
      exact Scope.gathers_imported
  | struct =>
      cases answered
      exact Scope.gathers_restriction
  | other =>
      cases answered
      exact Scope.gathers_restriction

/-! ## Signatures -/

/-- The parts of a signature that were resolved on the way are the same in the state at the end. -/
theorem lowerSignature_final
    (grounded : Grounded scope final depth)
    (settled : final.Settled scope)
    {file : FileScope}
    {params : ParamList}
    {result : Syntax.Result}
    {state middle after : ScopeState}
    {types results : List Ty}
    {variadic : Bool}
    (paramsRun : Run scope final
      (scope.lowerParamListWith (scope.meaning depth) file params) state (types, variadic) middle)
    (resultRun : Run scope final
      (scope.lowerResultWith (scope.meaning depth) file result) middle results after) :
    ∃ last, scope.lowerSignature file params result final =
      (.ok (.mk types results variadic), last) := by
  -- The state at the end is ahead of every state on the way, and it allows at least this depth.
  have agreement := hastening_meaning_le scope depth grounded.within
  have eagerParams := (hastening scope).lowerParamListWith_stay agreement file params
  have eagerResult := (hastening scope).lowerResultWith_stay agreement file result
  have steady := (eagerParams.steady paramsRun.coherent paramsRun.answered).1
  have isAhead := settled.ahead paramsRun.coherent (paramsRun.covers.trans steady.covers)
  obtain ⟨_, _, finalMiddle, ran, rfl, middleAhead, _⟩ :=
    eagerParams state final _ middle isAhead paramsRun.answered
  obtain ⟨_, _, last, ranResult, rfl, _⟩ :=
    eagerResult middle finalMiddle _ after middleAhead resultRun.answered
  refine ⟨last, ?_⟩
  simp only [Scope.lowerSignature, Bind.bind, Resolve.andThen, Scope.declMeaning, ran, ranResult]
  rfl

/-! ## Elements -/

/-- The parts of a run over a method that is not blank, and over the elements behind it. -/
theorem method_parts
    (grounded : Grounded scope final depth)
    {file : FileScope}
    {explicit : List String}
    {own methods : InterfaceMethods}
    {span : Syntax.Span}
    {ident : Ident}
    {params : ParamList}
    {result : Syntax.Result}
    {rest : List Elem}
    {state after : ScopeState}
    (notBlank : ident.text ≠ blankName)
    (run : Run scope final
      (scope.interfaceMethodsWith (scope.meaning depth) file explicit own
        (.method span (some ident) params result :: rest))
      state methods after) :
    ∃ types variadic results added first second third,
      Run scope final (scope.lowerParamListWith (scope.meaning depth) file params) state
        (types, variadic) first ∧
      Run scope final (scope.lowerResultWith (scope.meaning depth) file result) first results
        second ∧
      Scope.addMethod (file.position ident.span.start) own.methods
        (.mk (scope.methodName ident.text) (.mk types results variadic)) = .ok added ∧
      Run scope final
        (scope.interfaceMethodsWith (scope.meaning depth) file (ident.text :: explicit)
          { own with methods := added } rest)
        third methods after := by
  simp only [Scope.interfaceMethodsWith] at run
  rw [if_neg (by simpa using notBlank)] at run
  by_cases written : explicit.contains ident.text = true
  · rw [if_pos written] at run
    cases run.answered
  · rw [if_neg written] at run
    have others (added : MethodSet) :=
      (founding scope final).interfaceMethodsWith_stay grounded.agreement file
        (ident.text :: explicit) { own with methods := added } rest
    have adding (types : List Ty × Bool) (results : List Ty) :=
      (founding scope final).sequence
        ((founding scope final).ofExcept
          (rfl : (Scope.addMethod (file.position ident.span.start) own.methods
            (.mk (scope.methodName ident.text) (.mk types.1 results types.2))).toOption = _))
        others
    have resulting (types : List Ty × Bool) :=
      (founding scope final).sequence
        ((founding scope final).lowerResultWith_stay grounded.agreement file result)
        (adding types)
    obtain ⟨types, first, paramsRun, run⟩ :=
      Founding.parts
        ((founding scope final).lowerParamListWith_stay grounded.agreement file params)
        resulting run
    obtain ⟨results, second, resultRun, run⟩ :=
      Founding.parts
        ((founding scope final).lowerResultWith_stay grounded.agreement file result)
        (adding types) run
    obtain ⟨added, third, addRun, run⟩ :=
      Founding.parts ((founding scope final).ofExcept rfl) others run
    exact ⟨types.1, types.2, results, added, first, second, third, paramsRun, resultRun,
      addRun.of_ofExcept, run⟩

/-- The parts of a run over an embedded element and over the elements behind it. -/
theorem embedded_parts
    (grounded : Grounded scope final depth)
    {file : FileScope}
    {explicit : List String}
    {own methods : InterfaceMethods}
    {span : Syntax.Span}
    {type : TypeExpr}
    {rest : List Elem}
    {state after : ScopeState}
    (run : Run scope final
      (scope.interfaceMethodsWith (scope.meaning depth) file explicit own
        (.embedded span type :: rest))
      state methods after) :
    ∃ inner joined first second,
      Run scope final
        (scope.embeddedMethodsWith (scope.meaning depth) file (file.position span.start) type) state
        inner first ∧
      Scope.embed (file.position span.start) own inner = .ok joined ∧
      Run scope final (scope.interfaceMethodsWith (scope.meaning depth) file explicit joined rest)
        second methods after := by
  have others (joined : InterfaceMethods) :=
    (founding scope final).interfaceMethodsWith_stay grounded.agreement file explicit joined rest
  have joining (inner : InterfaceMethods) :=
    (founding scope final).sequence
      ((founding scope final).ofExcept
        (rfl : (Scope.embed (file.position span.start) own inner).toOption = _))
      others
  have embedding :=
    (founding scope final).embeddedMethodsWith_stay grounded.agreement file
      (file.position span.start) type
  have parts
      (run : Run scope final
        ((scope.embeddedMethodsWith (scope.meaning depth) file (file.position span.start)
          type).andThen fun inner =>
            (Resolve.ofExcept (Scope.embed (file.position span.start) own inner)).andThen
              fun joined =>
                scope.interfaceMethodsWith (scope.meaning depth) file explicit joined rest)
        state methods after) := Founding.parts embedding joining run
  cases type with
  | missing _ => cases run.answered
  | _ =>
      obtain ⟨inner, first, embedRun, run⟩ := parts run
      obtain ⟨joined, second, joinRun, run⟩ :=
        Founding.parts ((founding scope final).ofExcept rfl) others run
      exact ⟨inner, joined, first, second, embedRun, joinRun.of_ofExcept, run⟩

/-- What is made of other types and is no interface restricts. -/
theorem gathers_composite
    {meaning : Meaning}
    {file : FileScope}
    {position : Position}
    {type : TypeExpr}
    {state after : ScopeState}
    {inner : InterfaceMethods}
    (shape : isComposite type = true)
    (run : Run scope final (scope.embeddedMethodsWith meaning file position type)
      state inner after) :
    ∃ source, scope.Embeds file type source ∧ scope.Gathers final source inner := by
  have restricts :
      scope.embeddedMethodsWith meaning file position type = .answer { isConstraint := true } := by
    cases type with
    | pointer _ _ | slice _ _ | array _ _ _ | map _ _ _ | chan _ _ _ | func _ _ _
    | struct _ _ => rfl
    | missing _ | name _ _ _ _ _ | interface _ _ | paren _ _ => cases shape
  rw [restricts] at run
  cases run.answered
  exact ⟨.restriction, .composite shape, Scope.gathers_restriction⟩

/-- What is underneath a type that is made of other types and is no interface restricts. -/
theorem sourced_composite
    {meaning : Meaning}
    {file : FileScope}
    {type : TypeExpr}
    {state after : ScopeState}
    {value : Underlying}
    (shape : isComposite type = true)
    (answered : scope.underlyingWith meaning file type state = (.ok value, after)) :
    scope.Sourced final file type value := by
  refine ⟨.restriction, .composite shape, ?_⟩
  cases type with
  | struct _ fields =>
      obtain ⟨_, _, _, answered⟩ := Resolve.andThen_ok answered
      cases answered
      exact .struct
  | pointer _ _ | slice _ _ | array _ _ _ | map _ _ _ | chan _ _ _ | func _ _ _ =>
      obtain ⟨_, _, _, answered⟩ := Resolve.andThen_ok answered
      cases answered
      exact .other
  | missing _ | name _ _ _ _ _ | interface _ _ | paren _ _ => cases shape

section Elements

variable
  (grounded : Grounded scope final depth)
  (settled : final.Settled scope)
  (file : FileScope)

include grounded settled

-- By recursion on the syntax; every element is embedded into what the elements before it gave.
set_option linter.unusedSectionVars false in
mutual

/-- A run over elements gathers them behind those that were gathered before. -/
theorem gathers_elems :
    ∀ (elems done : List Elem) (explicit : List String) (own methods : InterfaceMethods)
      (state after : ScopeState),
      scope.Gathers final (.body file done) own →
      Run scope final (scope.interfaceMethodsWith (scope.meaning depth) file explicit own elems)
        state methods after →
      scope.Gathers final (.body file (done ++ elems)) methods
  | [], done, _, own, methods, state, after, gathered, run => by
      cases run.answered
      rwa [List.append_nil]
  | .method _ none _ _ :: _, _, _, _, _, _, _, _, run => by
      cases run.answered
  | .method span (some ident) params result :: rest, done, explicit, own, methods, state, after,
      gathered, run => by
      rw [List.append_cons]
      by_cases blank : ident.text = blankName
      · simp only [Scope.interfaceMethodsWith] at run
        rw [if_pos (by simpa using blank)] at run
        apply gathers_elems rest _ explicit own methods state after ?_ run
        exact gathered.embed (Scope.gathers_blank blank)
          (Scope.embed_nothing (file.position span.start) own)
      · obtain ⟨types, variadic, results, added, _, _, third, paramsRun, resultRun, isAdded, run⟩ :=
          grounded.method_parts blank run
        obtain ⟨_, resolved⟩ := grounded.lowerSignature_final settled paramsRun resultRun
        apply gathers_elems rest _ _ _ methods third after ?_ run
        exact gathered.embed (Scope.gathers_method blank resolved) (Scope.embed_method isAdded)
  | .embedded span type :: rest, done, explicit, own, methods, state, after, gathered, run => by
      rw [List.append_cons]
      obtain ⟨inner, joined, first, second, embedRun, isJoined, run⟩ := grounded.embedded_parts run
      obtain ⟨source, embeds, gathers⟩ := gathers_elem type _ inner state first embedRun
      apply gathers_elems rest _ explicit joined methods second after ?_ run
      exact gathered.embed (gathers.embedded embeds) isJoined
  | .typeSet span :: rest, done, explicit, own, methods, state, after, gathered, run => by
      rw [List.append_cons]
      apply gathers_elems rest _ explicit _ methods state after ?_ run
      exact gathered.embed (Scope.gathers_typeSet span)
        (Scope.embed_restriction (file.position span.start) own)

/-- What an embedded element contributes is gathered from its source. -/
theorem gathers_elem :
    ∀ (type : TypeExpr) (position : Position) (inner : InterfaceMethods)
      (state after : ScopeState),
      Run scope final (scope.embeddedMethodsWith (scope.meaning depth) file position type)
        state inner after →
      ∃ source, scope.Embeds file type source ∧ scope.Gathers final source inner
  | .missing _, _, _, _, _, run => by
      cases run.answered
  | .paren _ within, position, inner, state, after, run => by
      obtain ⟨source, embeds, gathers⟩ := gathers_elem within position inner state after run
      exact ⟨source, .paren embeds, gathers⟩
  | .interface span elems, position, inner, state, after, run => by
      have gathers := gathers_elems elems [] [] {} inner state after Scope.gathers_nil run
      exact ⟨.body file elems, .interface, gathers⟩
  | .name span qualifier ident hasArgs args, position, inner, state, after, run => by
      simp only [Scope.embeddedMethodsWith] at run
      cases hasArgs with
      | true =>
          cases run.answered
          exact ⟨.restriction, .instantiation, Scope.gathers_restriction⟩
      | false =>
          have contributing (underlying : Underlying) :=
            (founding scope final).contribution file span span position position
              (Relocation.underlies_stay ▸ rfl : Relocation.stay.Underlies underlying underlying)
          have naming :=
            (founding scope final).plainNameUnderlying_stay grounded.agreement file span qualifier
              ident
          obtain ⟨underlying, _, nameRun, run⟩ := Founding.parts naming contributing run
          obtain ⟨source, denotes, fits⟩ :=
            @sourced_plainName _ _ _ grounded _ _ _ _ _ args _ _ _ (Bool.and_false _) nameRun
          exact ⟨source, .named denotes, gathers_contribution fits run.answered⟩
  | .pointer _ _, _, _, _, _, run => gathers_composite rfl run
  | .slice _ _, _, _, _, _, run => gathers_composite rfl run
  | .array _ _ _, _, _, _, _, run => gathers_composite rfl run
  | .map _ _ _, _, _, _, _, run => gathers_composite rfl run
  | .chan _ _ _, _, _, _, _, run => gathers_composite rfl run
  | .func _ _ _, _, _, _, _, run => gathers_composite rfl run
  | .struct _ _, _, _, _, _, run => gathers_composite rfl run

end

/-- What is underneath a type expression fits the source that it leads to. -/
theorem sourced_expr :
    ∀ (type : TypeExpr) (state after : ScopeState) (value : Underlying),
      Run scope final (scope.underlyingWith (scope.meaning depth) file type) state value after →
      scope.Sourced final file type value
  | .missing _, _, _, _, run => by
      cases run.answered
  | .paren _ inner, state, after, value, run => by
      obtain ⟨source, denotes, fits⟩ := sourced_expr inner state after value run
      exact ⟨source, .paren denotes, fits⟩
  | .interface span elems, state, after, value, run => by
      have gathering :=
        (founding scope final).interfaceMethodsWith_stay grounded.agreement file [] {} elems
      obtain ⟨methods, _, elemsRun, run⟩ :=
        Founding.parts gathering
          (fun methods => (founding scope final).answer
            (rfl : Underlying.interface methods = .interface methods)) run
      cases run.answered
      have gathers :=
        gathers_elems grounded settled file elems [] [] {} methods state _ Scope.gathers_nil
          elemsRun
      exact ⟨.body file elems, .interface, .interface rfl gathers⟩
  | .name span qualifier ident hasArgs args, state, after, value, run => by
      simp only [Scope.underlyingWith] at run
      by_cases instantiated : (qualifier.isNone && hasArgs) = true
      · rw [if_pos instantiated] at run
        obtain ⟨_, _, _, answered⟩ := Resolve.andThen_ok run.answered
        cases answered
        obtain ⟨unqualified, rfl⟩ := Bool.and_eq_true_iff.mp instantiated
        obtain rfl := Option.isNone_iff_eq_none.mp unqualified
        exact ⟨.restriction, .instantiation, .other⟩
      · rw [if_neg instantiated] at run
        exact grounded.sourced_plainName (by simpa using instantiated) run
  | .struct span fields, state, after, value, run =>
      sourced_composite rfl run.answered
  | .pointer _ _, _, _, _, run => sourced_composite rfl run.answered
  | .slice _ _, _, _, _, run => sourced_composite rfl run.answered
  | .array _ _ _, _, _, _, run => sourced_composite rfl run.answered
  | .map _ _ _, _, _, _, run => sourced_composite rfl run.answered
  | .chan _ _ _, _, _, _, run => sourced_composite rfl run.answered
  | .func _ _ _, _, _, _, run => sourced_composite rfl run.answered

end Elements

/-! ## Declarations -/

/-- Looking into an alias keeps a state founded. -/
theorem founding_expanding
    {decl : TypeDecl}
    {inside reading : Resolve α}
    (tracked : Tracked scope Eq inside reading)
    (inner : Founding scope final Eq inside inside) :
    Founding scope final Eq (.expanding decl inside) (.expanding decl inside) where
  eager := .expanding tracked tracked inner.eager
  founds := by
    intro state value after run
    obtain ⟨middle, insideRun, same⟩ := run.of_expanding
    have founded := inner.founds _ value middle insideRun
    intro name found finished
    exact founded name found (same ▸ finished)

/-- Looking for what is underneath a name keeps a state founded when what is found is sourced. -/
theorem founding_finding
    {decl : TypeDecl}
    (declared : scope.lookup? decl.name = some decl)
    (notAlias : decl.spec.isAlias = false)
    (inner : Founding scope final Eq
      (scope.underlyingWith (scope.meaning depth) decl.file decl.spec.type)
      (scope.underlyingWith (scope.meaning depth) decl.file decl.spec.type))
    (sourced : ∀ state value after,
      Run scope final (scope.underlyingWith (scope.meaning depth) decl.file decl.spec.type) state
        value after →
      scope.Sourced final decl.file decl.spec.type value) :
    Founding scope final Eq
      (.finding decl (scope.underlyingWith (scope.meaning depth) decl.file decl.spec.type))
      (.finding decl (scope.underlyingWith (scope.meaning depth) decl.file decl.spec.type)) := by
  have tracked := scope.tracked_rereading depth decl
  refine
    { eager := .finding declared notAlias tracked tracked
        (scope.confined_rereading depth decl) inner.eager
      founds := ?_ }
  intro state value after run
  rcases run.of_finding tracked with ⟨_, rfl⟩ | ⟨middle, insideRun, rfl⟩
  · exact run.founded
  · have founded := inner.founds _ value middle insideRun
    intro name found finished
    rw [ScopeState.lookup_finish] at finished
    by_cases same : name = decl.name
    · rw [if_pos same] at finished
      cases finished
      exact ⟨decl, same ▸ declared, sourced _ value middle insideRun⟩
    · rw [if_neg same] at finished
      exact founded name found finished

/-- What is found underneath a declared name one level further up fits the source of the name. -/
theorem sourced_underlying
    (grounded : Grounded scope final depth)
    (settled : final.Settled scope)
    {name : String}
    {decl : TypeDecl}
    (declared : scope.lookup? name = some decl)
    {state after : ScopeState}
    {value : Underlying}
    (run : Run scope final ((scope.meaning (depth + 1)).underlying decl) state value after) :
    scope.Sourced final decl.file decl.spec.type value := by
  have sourced := grounded.sourced_expr settled decl.file decl.spec.type
  simp only [Scope.meaning] at run
  cases isAlias : decl.spec.isAlias with
  | true =>
      rw [if_pos isAlias] at run
      obtain ⟨middle, insideRun, _⟩ := run.of_expanding
      exact sourced _ middle value insideRun
  | false =>
      rw [if_neg (by simp [isAlias])] at run
      rcases run.of_finding (scope.tracked_rereading depth decl) with found | ⟨middle, insideRun, _⟩
      · obtain ⟨other, otherDeclared, isSourced⟩ := run.founded _ _ found.1
        obtain rfl : decl = other :=
          Option.some.inj ((Scope.lookup?_self declared).symm.trans otherDeclared)
        exact isSourced
      · exact sourced _ middle value insideRun

/-- The meaning of declared names one level further up keeps states founded. -/
theorem agreement_succ
    (grounded : Grounded scope final depth)
    (settled : final.Settled scope) :
    (founding scope final).Agreement .stay scope (scope.meaning (depth + 1))
      (scope.meaning (depth + 1)) := by
  refine .inPlace ?typeOfAlias ?underlying
  case typeOfAlias =>
    intro name decl _ _
    exact founding_expanding
      ((tracking scope).lowerTypeWith_stay (tracking_meaning scope depth) _ _)
      ((founding scope final).lowerTypeWith_stay grounded.agreement decl.file decl.spec.type)
  case underlying =>
    intro name decl declared
    have inside :=
      (founding scope final).underlyingWith_stay grounded.agreement decl.file decl.spec.type
    simp only [Scope.meaning]
    cases isAlias : decl.spec.isAlias with
    | true => exact founding_expanding (scope.tracked_rereading depth decl) inside
    | false =>
        apply founding_finding (Scope.lookup?_self declared) isAlias inside
        intro state value after run
        exact grounded.sourced_expr settled decl.file decl.spec.type state after value run

end Grounded

/-- What declared names mean is grounded, at every depth up to the number of declarations. -/
theorem grounded_meaning
    {scope : Scope}
    {final : ScopeState}
    (settled : final.Settled scope)
    (depth : Nat)
    (within : depth ≤ scope.decls.length + 1) :
    Grounded scope final depth := by
  induction depth with
  | zero =>
      refine { within, agreement := .inPlace ?typeOfAlias ?underlying, sourced := ?sourced }
      case typeOfAlias =>
        intro name decl _ _
        exact (founding scope final).fail _ _
      case underlying =>
        intro name decl _
        exact (founding scope final).fail _ _
      case sourced =>
        intro name decl _ state value after run
        cases run.answered
  | succ depth inductionHypothesis =>
      have grounded := inductionHypothesis (Nat.le_of_succ_le within)
      refine { within, agreement := grounded.agreement_succ settled, sourced := ?_ }
      intro name decl declared state value after run
      exact grounded.sourced_underlying settled declared run

end Implementers
