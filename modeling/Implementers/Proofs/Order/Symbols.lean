import Implementers.Proofs.Order.Success

/-!
# The symbols of rearranged packages

Two arrangements of a package that both resolve find the same underneath each name and tabulate the
same methods.  Their types are embedded in each other in the same way, so that the selector rule
promotes the same methods, and their symbols are the same apart from places and order.
-/

namespace Implementers

namespace Embedding

/-- Types that declare the same in another order and embed each other in the same way. -/
structure Alike
    (left right : Embedding) :
    Prop where
  openings : left.openings = right.openings
  declarations : ∀ target, (left.declarations target).Perm (right.declarations target)

variable
  {left right : Embedding}

theorem Alike.symm
    (alike : left.Alike right) :
    right.Alike left :=
  ⟨alike.openings.symm, fun target => (alike.declarations target).symm⟩

theorem Alike.paths
    (alike : left.Alike right)
    (view : View)
    (depth : Nat) :
    left.paths view depth = right.paths view depth := by
  induction depth with
  | zero => rfl
  | succ depth inductionHypothesis =>
      simp only [Embedding.paths, inductionHypothesis, steps, alike.openings]

theorem Alike.declared
    (alike : left.Alike right)
    (target : EmbeddedTarget)
    (name : String) :
    (left.declared target name).Perm (right.declared target name) :=
  ((alike.declarations target).filter _).map _

/-- The same paths lead to the same declarations of a name. -/
theorem Alike.found
    (alike : left.Alike right)
    (view : View)
    (depth : Nat)
    (name : String) :
    (left.found view depth name).Perm (right.found view depth name) := by
  rw [Embedding.found, Embedding.found, alike.paths]
  exact List.Perm.flatMap_left _ fun path _ => (alike.declared _ name).map _

theorem Alike.hidden
    (alike : left.Alike right)
    {view : View}
    {depth : Nat}
    {name : String}
    (hidden : left.Hidden view depth name) :
    right.Hidden view depth name := by
  intro shorter earlier
  have nothing := alike.found view shorter name
  rw [hidden shorter earlier] at nothing
  exact nothing.symm.eq_nil

/-- What the selector rule promotes does not depend on the order of declarations. -/
theorem Alike.promotes
    (alike : left.Alike right)
    {view : View}
    {method : Method}
    (promotes : left.Promotes view method) :
    right.Promotes view method := by
  obtain ⟨depth, path, pointerOnly, hidden, single, callable⟩ := promotes
  have same := alike.found view depth method.name.name
  rw [single] at same
  exact ⟨depth, path, pointerOnly, alike.hidden hidden, List.perm_singleton.mp same.symm, callable⟩

/-- What is overlooked does not depend on the order of declarations. -/
theorem Alike.overlooked
    (alike : left.Alike right)
    {view : View}
    {method : Method}
    (overlooked : left.Overlooked view method) :
    right.Overlooked view method := by
  obtain ⟨depth, step, pointerOnly, hidden, several, once, last, callable⟩ := overlooked
  have same := alike.found view depth method.name.name
  refine ⟨depth, step, pointerOnly, alike.hidden hidden, same.length_eq ▸ several, ?_, ?_, ?_⟩
  · rw [← (alike.declared step.target method.name.name).length_eq]
    exact once
  · intro pair member
    exact last pair (same.mem_iff.mpr member)
  · intro isPointerOnly
    obtain ⟨pair, member, crosses⟩ := callable isPointerOnly
    exact ⟨pair, same.mem_iff.mp member, crosses⟩

/-- The methods of a view are the same in another order. -/
theorem Alike.selected
    (alike : left.Alike right)
    {view : View}
    {methods methods' : MethodSet}
    (selected : left.Selected view methods)
    (selected' : right.Selected view methods') :
    methods.methods.Perm methods'.methods := by
  apply (List.perm_ext_iff_of_nodup selected.distinct.of_map selected'.distinct.of_map).mpr
  intro method
  rw [selected.members, selected'.members]
  exact ⟨Or.imp alike.promotes alike.overlooked, Or.imp alike.symm.promotes alike.symm.overlooked⟩

end Embedding

namespace Scope

theorem fieldDeclarations_moved
    (move : Syntax.Span → Syntax.Span)
    (field : Syntax.FieldDecl) :
    fieldDeclarations (field.moved move) = fieldDeclarations field := by
  simp only [fieldDeclarations, fieldMembers, Syntax.FieldDecl.moved_isEmbedded,
    Syntax.FieldDecl.moved_embeddedName?, Syntax.FieldDecl.moved_names, List.map_map]
  rfl

/-- The fields of a struct give the same names wherever they stand. -/
theorem innerDeclarations_moved
    (relocation : Relocation)
    (underlying : Underlying) :
    innerDeclarations (relocation.underlying underlying) = innerDeclarations underlying := by
  cases underlying with
  | struct file fields =>
      simp only [Relocation.underlying, innerDeclarations, Syntax.fieldsMoved_eq_map,
        List.flatMap_map, fieldDeclarations_moved]
  | _ => rfl

/-- The embedded fields of a struct lead to the same types wherever they stand. -/
theorem innerOpenings_moved
    {relocation : Relocation}
    {before after : Scope}
    (moves : relocation.Moves before after)
    (underlying : Underlying) :
    after.innerOpenings (relocation.underlying underlying) = before.innerOpenings underlying := by
  cases underlying with
  | struct file fields =>
      simp only [Relocation.underlying, innerOpenings, Syntax.fieldsMoved_eq_map,
        List.filterMap_map, Function.comp_def, moves.retraces.fieldWay?]
  | _ => rfl

/-- Two packages in the same place that know the same and have the same methods. -/
structure Resolution.Agrees
    {scope other : Scope}
    (common : Scope)
    (left : scope.Resolution)
    (right : other.Resolution) :
    Prop where
  moves : Relocation.forget.Moves scope common
  moves' : Relocation.forget.Moves other common
  table : left.table.Alike right.table
  found :
    ∀ name,
      (left.known.finished.lookup name).map Relocation.forget.underlying =
        (right.known.finished.lookup name).map Relocation.forget.underlying

end Scope

/-- Two symbols that are the same but for their places and the order of their methods. -/
structure Symbol.Alike
    (left right : Symbol) :
    Prop where
  name : left.name = right.name
  package : left.package = right.package
  kind : left.kind = right.kind
  pointer : left.pointer = right.pointer
  isPartial : left.isPartial = right.isPartial
  methods : left.methods.methods.Perm right.methods.methods

/-- Two answers that are no symbols or symbols that are alike. -/
def PlacedSymbol.Alike
    (left right : Option PlacedSymbol) :
    Prop :=
  Option.Rel (fun left right => left.symbol.Alike right.symbol) left right

namespace Scope.Resolution.Agrees

variable
  {scope other common : Scope}
  {left : scope.Resolution}
  {right : other.Resolution}
  (agrees : Agrees common left right)

include agrees

theorem symm :
    Agrees common right left :=
  ⟨agrees.moves', agrees.moves, agrees.table.symm, fun name => (agrees.found name).symm⟩

theorem package :
    scope.package = other.package :=
  agrees.moves.package.symm.trans agrees.moves'.package

theorem underlying
    (name : String) :
    Relocation.forget.underlying (left.final.underlying name) =
      Relocation.forget.underlying (right.final.underlying name) := by
  have same := agrees.found name
  simp only [ScopeState.underlying, left.finished_final, right.finished_final]
  cases leftFound : left.known.finished.lookup name <;>
    cases rightFound : right.known.finished.lookup name <;>
      simp only [leftFound, rightFound, Option.map_none, Option.map_some, reduceCtorEq,
        Option.some.injEq] at same
  · rfl
  · exact same

/-- The types of both packages are embedded in each other in the same way. -/
theorem embedding :
    (scope.embedding left.table left.final.underlying).Alike
      (other.embedding right.table right.final.underlying) where
  openings := by
    funext target
    cases target with
    | errorInterface => rfl
    | declared name =>
        change scope.innerOpenings _ = other.innerOpenings _
        rw [← innerOpenings_moved agrees.moves, ← innerOpenings_moved agrees.moves',
          agrees.underlying]
  declarations target := by
    cases target with
    | errorInterface =>
        change (interfaceDeclarations scope.errorMethods).Perm
          (interfaceDeclarations other.errorMethods)
        rw [errorMethods, errorMethods, methodName, methodName, agrees.package]
    | declared name =>
        have same : innerDeclarations (left.final.underlying name) =
            innerDeclarations (right.final.underlying name) := by
          rw [← innerDeclarations_moved .forget, agrees.underlying, innerDeclarations_moved]
        refine List.Perm.append ?_ (.of_eq same)
        exact (agrees.table.methods.filter _).map _

/-- The method sets of a type are the same in another order. -/
theorem selects
    {base : String}
    {pointer : Bool}
    {methods methods' : MethodSet}
    (selects : scope.Selects left.table left.final base pointer methods)
    (selects' : other.Selects right.table right.final base pointer methods') :
    methods.methods.Perm methods'.methods :=
  agrees.embedding.selected selects selects'

/-- What is found underneath a name is an interface in both packages or in none. -/
theorem interface_found
    {name : String}
    {interface : InterfaceMethods}
    {underlying : Underlying}
    (found : left.known.finished.lookup name = some (.interface interface))
    (found' : right.known.finished.lookup name = some underlying) :
    underlying = .interface interface := by
  have same := agrees.found name
  rw [found, found'] at same
  cases underlying <;> simp_all [Relocation.underlying]

/-- A declaration comes to like symbols in both packages. -/
theorem typeAnswers
    {decl decl' : TypeDecl}
    {answer answer' : Option PlacedSymbol}
    (same : Relocation.forget.decl decl = Relocation.forget.decl decl')
    (answers : left.TypeAnswer decl answer)
    (answers' : right.TypeAnswer decl' answer') :
    PlacedSymbol.Alike answer answer' := by
  have sameName : decl.name = decl'.name := by
    simpa only [Relocation.decl_name] using congrArg TypeDecl.name same
  have sameKept : (decl.spec.isAlias || decl.spec.generic) =
      (decl'.spec.isAlias || decl'.spec.generic) := by
    simpa only [Relocation.decl_isAlias, Relocation.decl_generic] using
      congrArg (fun moved : TypeDecl => moved.spec.isAlias || moved.spec.generic) same
  cases answers with
  | passedOver isPassedOver =>
      rw [sameKept] at isPassedOver
      cases answers' with
      | passedOver _ => exact .none
      | interface kept _ => simp [kept] at isPassedOver
      | concrete kept _ _ _ => simp [kept] at isPassedOver
  | @interface interface kept found =>
      rw [sameKept] at kept
      rw [sameName] at found
      cases answers' with
      | passedOver isPassedOver => simp [kept] at isPassedOver
      | @interface interface' _ found' =>
          obtain rfl := Underlying.interface.inj (agrees.interface_found found found')
          cases interface'.isConstraint with
          | true => exact .none
          | false => exact .some ⟨sameName, agrees.package, rfl, rfl, rfl, .refl _⟩
      | concrete _ found' notInterface _ =>
          rw [agrees.interface_found found found'] at notInterface
          cases notInterface
  | concrete kept found notInterface selects =>
      rw [sameKept] at kept
      rw [sameName] at found selects
      cases answers' with
      | passedOver isPassedOver => simp [kept] at isPassedOver
      | interface _ found' =>
          rw [agrees.symm.interface_found found' found] at notInterface
          cases notInterface
      | concrete _ _ _ selects' =>
          exact .some ⟨sameName, agrees.package, rfl, rfl, rfl, agrees.selects selects selects'⟩

/-- A receiver comes to like symbols in both packages. -/
theorem siteAnswers
    {site site' : ReceiverSite}
    {answer answer' : Option PlacedSymbol}
    (same : site.Corresponds site')
    (answers : left.SiteAnswer site answer)
    (answers' : right.SiteAnswer site' answer') :
    PlacedSymbol.Alike answer answer' := by
  obtain ⟨sameBase, samePointer⟩ := same
  cases answers with
  | concrete _ selects =>
      cases answers' with
      | concrete _ selects' =>
          rw [sameBase, samePointer] at selects
          exact .some ⟨sameBase, agrees.package, rfl, samePointer, rfl,
            agrees.selects selects selects'⟩

/-- Packages with the same declarations come to like symbols. -/
theorem symbols
    (decls :
      (scope.decls.map Relocation.forget.decl).Perm (other.decls.map Relocation.forget.decl))
    (distinct : (scope.decls.map TypeDecl.name).Nodup)
    (distinct' : (other.decls.map TypeDecl.name).Nodup) :
    Paired Symbol.Alike left.symbols right.symbols := by
  have types : Paired PlacedSymbol.Alike left.types right.types :=
    (Paired.of_perm_map decls).carry (left.typeAnswers distinct) (right.typeAnswers distinct')
      fun _ _ _ _ same answers answers' => agrees.typeAnswers same answers answers'
  have sites : Paired PlacedSymbol.Alike left.sites right.sites :=
    agrees.table.receivers.carry left.siteAnswers right.siteAnswers
      fun _ _ _ _ same answers answers' => agrees.siteAnswers same answers answers'
  have listed {answers answers' : List (Option PlacedSymbol)}
      (paired : Paired PlacedSymbol.Alike answers answers') :
      Paired (fun placed placed' => placed.symbol.Alike placed'.symbol)
        (answers.flatMap Option.toList) (answers'.flatMap Option.toList) := by
    apply paired.flatMap
    intro answer answer' alike
    cases alike with
    | none => exact .of_forall₂ .nil
    | some alike => exact .of_forall₂ (.cons alike .nil)
  -- Sorting by place changes the order only.
  have sorted (placed : List PlacedSymbol) :
      Paired Eq (placed.mergeSort PlacedSymbol.notAfter) placed :=
    .of_perm (List.mergeSort_perm placed _)
  have placed := ((sorted _).trans ((listed types).append (listed sites))
    fun _ _ _ same alike => same ▸ alike).trans (sorted _).symm
      fun _ _ _ alike same => same ▸ alike
  exact placed.map fun _ _ alike => alike

end Scope.Resolution.Agrees

end Implementers
