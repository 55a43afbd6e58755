import Implementers.Proofs.Scope.Depth
import Implementers.Proofs.Scope.Expansion

/-!
# What aliases stand for

An alias may lead to a declared type through further aliases and parentheses.  Where a type
expression is lowered, where what is underneath a name is looked for and where an interface embeds a
name, the alias comes to what the type at the end comes to, unless an alias on the way is met again
while it is being expanded.
-/

namespace Implementers

open Syntax (Ident TypeExpr)

/-- A type expression that is an identifier, in parentheses or not. -/
inductive Syntax.TypeExpr.Spells :
    TypeExpr → Ident → Prop where
  | name
      {span : Syntax.Span}
      {ident : Ident} :
      Spells (.name span none (some ident) false []) ident
  | paren
      {span : Syntax.Span}
      {inner : TypeExpr}
      {ident : Ident}
      (within : inner.Spells ident) :
      Spells (.paren span inner) ident

namespace Scope

/-- A name leads to a declared type that is no alias, through the aliases on the way. -/
inductive StandsFor
    (scope : Scope) :
    String → List TypeDecl → TypeDecl → Prop where
  | itself
      {name : String}
      {target : TypeDecl}
      (found : scope.lookup? name = some target)
      (notAlias : target.spec.isAlias = false) :
      StandsFor scope name [] target
  | through
      {name : String}
      {decl target : TypeDecl}
      {ident : Ident}
      {aliases : List TypeDecl}
      (found : scope.lookup? name = some decl)
      (isAlias : decl.spec.isAlias = true)
      (written : decl.spec.type.Spells ident)
      (leads : StandsFor scope ident.text aliases target) :
      StandsFor scope name (decl :: aliases) target

end Scope

/-- Type expressions that differ in one name only, under pointers and parentheses. -/
inductive Syntax.TypeExpr.Exchanges
    (name other : String) :
    TypeExpr → TypeExpr → Prop where
  | name
      {span span' : Syntax.Span}
      {ident ident' : Ident}
      (isName : ident.text = name)
      (isOther : ident'.text = other) :
      Exchanges name other (.name span none (some ident) false [])
        (.name span' none (some ident') false [])
  | pointer
      {span span' : Syntax.Span}
      {elem elem' : TypeExpr}
      (within : Exchanges name other elem elem') :
      Exchanges name other (.pointer span elem) (.pointer span' elem')
  | paren
      {span span' : Syntax.Span}
      {inner inner' : TypeExpr}
      (within : Exchanges name other inner inner') :
      Exchanges name other (.paren span inner) (.paren span' inner')

/-- A type expression spells one identifier at most. -/
theorem Syntax.TypeExpr.Spells.unique
    {expr : TypeExpr}
    {ident other : Ident}
    (spells : expr.Spells ident)
    (spellsOther : expr.Spells other) :
    ident = other := by
  induction spells with
  | name =>
      cases spellsOther
      rfl
  | paren _ inductionHypothesis =>
      cases spellsOther with
      | paren within => exact inductionHypothesis within

/-- Names can be exchanged back. -/
theorem Syntax.TypeExpr.Exchanges.symm
    {name other : String}
    {expr expr' : TypeExpr}
    (exchanges : expr.Exchanges name other expr') :
    expr'.Exchanges other name expr := by
  induction exchanges with
  | name isName isOther => exact .name isOther isName
  | pointer _ inductionHypothesis => exact .pointer inductionHypothesis
  | paren _ inductionHypothesis => exact .paren inductionHypothesis

section Chain

variable
  {scope : Scope}
  {name : String}
  {aliases : List TypeDecl}
  {target : TypeDecl}
  {expr expr' : TypeExpr}

namespace Scope.StandsFor

/-- A name leads through the same aliases always. -/
theorem unique
    {others : List TypeDecl}
    {other : TypeDecl}
    (leads : scope.StandsFor name aliases target)
    (leadsOther : scope.StandsFor name others other) :
    aliases = others := by
  induction leads generalizing others with
  | itself found notAlias =>
      cases leadsOther with
      | itself _ _ => rfl
      | through foundOther isAlias _ _ =>
          rw [found] at foundOther
          cases foundOther
          simp [notAlias] at isAlias
  | through found isAlias written _ inductionHypothesis =>
      cases leadsOther with
      | itself foundOther notAlias =>
          rw [found] at foundOther
          cases foundOther
          simp [notAlias] at isAlias
      | through foundOther _ writtenOther leadsOther =>
          rw [found] at foundOther
          cases foundOther
          cases written.unique writtenOther
          rw [inductionHypothesis leadsOther]

/-- The target is declared and no alias. -/
theorem target_itself
    (leads : scope.StandsFor name aliases target) :
    scope.StandsFor target.name [] target := by
  induction leads with
  | itself found notAlias => exact .itself (lookup?_self found) notAlias
  | through _ _ _ _ inductionHypothesis => exact inductionHypothesis

/-- Every alias on the way is declared, and leads on through fewer aliases behind it. -/
theorem of_mem
    {decl : TypeDecl}
    (leads : scope.StandsFor name aliases target)
    (member : decl ∈ aliases) :
    scope.lookup? decl.name = some decl ∧
      ∃ rest, rest.length < aliases.length ∧ scope.StandsFor decl.name (decl :: rest) target := by
  induction leads with
  | itself _ _ => cases member
  | through found isAlias written leads inductionHypothesis =>
      rcases List.mem_cons.mp member with rfl | inRest
      · have self := lookup?_self found
        exact ⟨self, _, Nat.lt_succ_self _, .through self isAlias written leads⟩
      · obtain ⟨declared, rest, fewer, leadsOn⟩ := inductionHypothesis inRest
        exact ⟨declared, rest, Nat.lt_succ_of_lt fewer, leadsOn⟩

/-- No alias on the way is met twice. -/
theorem name_ne
    {decl other : TypeDecl}
    (leads : scope.StandsFor name (decl :: aliases) target)
    (member : other ∈ aliases) :
    other.name ≠ decl.name := by
  intro sameName
  cases leads with
  | through found isAlias written leads =>
      have self := lookup?_self found
      obtain ⟨declared, rest, fewer, leadsOn⟩ := leads.of_mem member
      rw [sameName, self] at declared
      cases declared
      have same := leadsOn.unique (.through self isAlias written leads)
      rw [List.cons.inj same |>.2] at fewer
      exact Nat.lt_irrefl _ fewer

/-- Looking into an alias on the way fails only where one on the way is being expanded. -/
theorem expanding
    {decl : TypeDecl}
    {inside : Resolve α}
    {state : ScopeState}
    {outcome : Except UnitError α × ScopeState}
    (leads : scope.StandsFor name (decl :: aliases) target)
    (meets :
      (∃ other ∈ aliases, other.name ∈ decl.name :: state.expanding ∧
        (inside { state with expanding := decl.name :: state.expanding }).1 =
          .error other.recursive) ∨
      inside { state with expanding := decl.name :: state.expanding } = outcome) :
    (∃ other ∈ decl :: aliases, other.name ∈ state.expanding ∧
      (Resolve.expanding decl inside state).1 = .error other.recursive) ∨
    Resolve.expanding decl inside state =
      (outcome.1, { outcome.2 with expanding := outcome.2.expanding.tail }) := by
  simp only [Resolve.expanding, List.contains_eq_mem, decide_eq_true_eq]
  by_cases expanding : decl.name ∈ state.expanding
  · exact .inl ⟨decl, List.mem_cons_self, expanding, by rw [if_pos expanding]⟩
  · rw [if_neg expanding]
    rcases meets with ⟨other, member, isExpanding, fails⟩ | answers
    · have outside := (List.mem_cons.mp isExpanding).resolve_left (leads.name_ne member)
      exact .inl ⟨other, List.mem_cons_of_mem _ member, outside, fails⟩
    · rw [answers]
      exact .inr rfl

end Scope.StandsFor

/-! ## Type descriptors -/

namespace Scope

/-- A spelled identifier is lowered as a name without a qualifier. -/
theorem lowerType_of_spells
    {expr : TypeExpr}
    {ident : Ident}
    (spells : expr.Spells ident)
    (file : FileScope) :
    scope.lowerType file expr = scope.namedType scope.declMeaning file none ident [] := by
  induction spells with
  | name => rfl
  | paren _ inductionHypothesis => exact inductionHypothesis

/-- An alias is lowered to the type it stands for, unless one on the way is being expanded. -/
theorem StandsFor.namedType
    {ident : Ident}
    (leads : scope.StandsFor name aliases target)
    (isName : ident.text = name)
    (file : FileScope)
    (state : ScopeState) :
    (∃ decl ∈ aliases, decl.name ∈ state.expanding ∧
      (scope.namedType scope.declMeaning file none ident [] state).1 = .error decl.recursive) ∨
    scope.namedType scope.declMeaning file none ident [] state =
      (.ok (.named (.local scope.package) target.name []), state) := by
  induction leads generalizing ident file state with
  | itself found notAlias =>
      right
      subst isName
      simp only [Scope.namedType, found, notAlias, Bool.false_eq_true, ↓reduceIte,
        lookup?_name found]
      rfl
  | @through name decl target inner aliases found isAlias written leads inductionHypothesis =>
      subst isName
      have lowered :
          scope.namedType scope.declMeaning file none ident [] =
            .expanding decl (scope.namedType scope.declMeaning decl.file none inner []) := by
        simp only [Scope.namedType, found, isAlias, ↓reduceIte,
          scope.typeOfAlias_declMeaning found isAlias, lowerType_of_spells written]
      have behind :=
        inductionHypothesis rfl decl.file { state with expanding := decl.name :: state.expanding }
      rw [lowered]
      exact (through found isAlias written leads).expanding behind

/-- Type expressions with an alias are lowered as they are with its target. -/
theorem StandsFor.lowers
    (leads : scope.StandsFor name aliases target)
    (exchanges : expr.Exchanges name target.name expr')
    (file : FileScope)
    (state : ScopeState) :
    (∃ decl ∈ aliases, decl.name ∈ state.expanding ∧
      (scope.lowerType file expr state).1 = .error decl.recursive) ∨
    scope.lowerType file expr state = scope.lowerType file expr' state := by
  induction exchanges with
  | name isName isOther =>
      rw [lowerType_of_spells .name, lowerType_of_spells .name]
      rcases leads.target_itself.namedType isOther file state with ⟨_, member, _⟩ | same
      · cases member
      · rw [same]
        exact leads.namedType isName file state
  | @pointer span span' elem elem' _ inductionHypothesis =>
      have lowered (span : Syntax.Span) (elem : TypeExpr) :
          scope.lowerType file (.pointer span elem) =
            (scope.lowerType file elem).andThen fun type => .answer (.pointer type) :=
        rfl
      rw [lowered, lowered]
      simp only [Resolve.andThen]
      rcases inductionHypothesis with ⟨decl, member, expanding, fails⟩ | same
      · refine .inl ⟨decl, member, expanding, ?_⟩
        generalize scope.lowerType file elem state = outcome at fails ⊢
        obtain ⟨answer, after⟩ := outcome
        cases fails
        rfl
      · exact .inr (by rw [same])
  | paren _ inductionHypothesis => exact inductionHypothesis

/-! ## What is underneath -/

/-- A spelled identifier has underneath it what its declaration has. -/
theorem underlyingWith_of_spells
    {expr : TypeExpr}
    {ident : Ident}
    {decl : TypeDecl}
    (spells : expr.Spells ident)
    (found : scope.lookup? ident.text = some decl)
    (file : FileScope) :
    scope.underlyingWith scope.declMeaning file expr = scope.underlyingOf ident.text := by
  induction spells with
  | name => simp [Scope.underlyingWith, plainNameUnderlying, underlyingOf, found]
  | paren _ inductionHypothesis =>
      rw [← inductionHypothesis found]
      rfl

theorem StandsFor.lookup
    (leads : scope.StandsFor name aliases target) :
    ∃ decl, scope.lookup? name = some decl := by
  cases leads with
  | itself found _ => exact ⟨_, found⟩
  | through found _ _ _ => exact ⟨_, found⟩

/-- Underneath an alias is what is found underneath its target while the aliases are expanded. -/
theorem StandsFor.underlyingOf_eq
    (leads : scope.StandsFor name aliases target)
    (state : ScopeState) :
    (∃ decl ∈ aliases, decl.name ∈ state.expanding ∧
      (scope.underlyingOf name state).1 = .error decl.recursive) ∨
    scope.underlyingOf name state =
      let (answer, after) :=
        scope.underlyingOf target.name
          { state with expanding := (aliases.map TypeDecl.name).reverse ++ state.expanding }
      (answer, { after with expanding := after.expanding.drop aliases.length }) := by
  induction leads generalizing state with
  | itself found notAlias =>
      right
      rw [lookup?_name found]
      rfl
  | @through name decl target inner aliases found isAlias written leads inductionHypothesis =>
      obtain ⟨next, foundNext⟩ := leads.lookup
      have expands :
          scope.underlyingOf name = .expanding decl (scope.underlyingOf inner.text) := by
        rw [underlyingOf, found]
        simp only [scope.underlying_declMeaning found, isAlias, ↓reduceIte,
          underlyingWith_of_spells written foundNext]
      have behind := inductionHypothesis { state with expanding := decl.name :: state.expanding }
      rw [expands]
      refine ((through found isAlias written leads).expanding behind).imp_right fun answers => ?_
      rw [answers]
      simp

/--
Underneath an alias is what is underneath its target, unless an alias on the way is met again
while it is being expanded.
-/
theorem StandsFor.underlyingOf
    (leads : scope.StandsFor name aliases target)
    (state : ScopeState) :
    (∃ decl ∈ aliases, (scope.underlyingOf name state).1 = .error decl.recursive) ∨
    Abreast .stay Eq (scope.underlyingOf name state) (scope.underlyingOf target.name state) := by
  rcases leads.underlyingOf_eq state with ⟨decl, member, _, fails⟩ | same
  · exact .inl ⟨decl, member, fails⟩
  · have unwrapped :=
      (unwrapping scope (aliases.map TypeDecl.name).reverse state.expanding).underlyingOf
        (.stay scope) (unwrapping_meaning scope _ _ _) target.name []
        { state with expanding := (aliases.map TypeDecl.name).reverse ++ state.expanding } state
        ⟨rfl, rfl, rfl, rfl⟩
    rw [Relocation.underlies_stay] at unwrapped
    rw [same]
    generalize scope.underlyingOf target.name
      { state with expanding := (aliases.map TypeDecl.name).reverse ++ state.expanding } = outcome
      at unwrapped ⊢
    generalize scope.underlyingOf target.name state = other at unwrapped ⊢
    cases unwrapped with
    | answered agrees inside =>
        refine .inr (.answered agrees ⟨?_, inside.inProgress, ?_⟩)
        · simp [inside.finished]
        · simp [inside.within, inside.without]
    | failed _ _ _ _ => exact .inr (.failed trivial _ _)
    | @caught decl declared isOuter _ _ =>
        obtain ⟨met, member, sameName⟩ := List.mem_map.mp (List.mem_reverse.mp isOuter)
        have declaredMet := (leads.of_mem member).1
        rw [sameName, declared] at declaredMet
        cases declaredMet
        exact .inl ⟨decl, member, rfl⟩

/-- Underneath an alias outside of the aliases on the way stands what is known of its target. -/
theorem StandsFor.underlyingOf_known
    {found : Underlying}
    {state : ScopeState}
    (leads : scope.StandsFor name aliases target)
    (known : state.finished.lookup target.name = some found)
    (outside : ∀ decl ∈ aliases, decl.name ∉ state.expanding) :
    scope.underlyingOf name state = (.ok found, state) := by
  have declared : ∃ inside : Resolve Underlying,
      scope.underlyingOf target.name = .finding target inside := by
    cases leads.target_itself with
    | itself found notAlias =>
        rw [Scope.underlyingOf, found]
        simp only [scope.underlying_declMeaning found, notAlias, Bool.false_eq_true, ↓reduceIte]
        exact ⟨_, rfl⟩
  obtain ⟨inside, searches⟩ := declared
  rcases leads.underlyingOf_eq state with ⟨decl, member, expanding, _⟩ | same
  · exact absurd expanding (outside decl member)
  · rw [same, searches]
    simp [Resolve.finding, known]

/-! ## Interface elements -/

/-- A name that is an element contributes by what is underneath it. -/
theorem embeddedMethodsWith_name
    {ident : Ident}
    (declared : ∃ decl, scope.lookup? ident.text = some decl)
    (file : FileScope)
    (span : Syntax.Span)
    (position : Position) :
    scope.embeddedMethodsWith scope.declMeaning file position
        (.name span none (some ident) false []) =
      (scope.underlyingOf ident.text).andThen (contribution file span position) := by
  obtain ⟨decl, found⟩ := declared
  simp only [embeddedMethodsWith, plainNameUnderlying, Scope.underlyingOf, found,
    Bool.false_eq_true, ↓reduceIte]
  rfl

/-- Elements contribute alike when what is underneath their names is alike. -/
theorem abreast_element
    {other : String}
    {state : ScopeState}
    (exchanges : expr.Exchanges name other expr')
    (declared : ∃ decl, scope.lookup? name = some decl)
    (declaredOther : ∃ decl, scope.lookup? other = some decl)
    (abreast : Abreast .stay Eq (scope.underlyingOf name state) (scope.underlyingOf other state))
    (file : FileScope)
    (position : Position) :
    Abreast .stay Eq
      (scope.embeddedMethodsWith scope.declMeaning file position expr state)
      (scope.embeddedMethodsWith scope.declMeaning file position expr' state) := by
  induction exchanges with
  | @name span span' ident ident' isName isOther =>
      subst isName isOther
      rw [embeddedMethodsWith_name declared, embeddedMethodsWith_name declaredOther]
      simp only [Resolve.andThen]
      generalize scope.underlyingOf ident.text state = leftOutcome at abreast ⊢
      generalize scope.underlyingOf ident'.text state = rightOutcome at abreast ⊢
      cases abreast with
      | @answered found found' _ _ agrees mirrors =>
          have underlies : Relocation.stay.Underlies found found' := by
            rw [Relocation.underlies_stay, agrees]
          have contributes := (marching .stay).contribution file span span' position position
            underlies _ _ mirrors
          rwa [Relocation.stay_file] at contributes
      | failed errors _ _ => exact .failed errors _ _
  | pointer _ => exact .answered rfl ⟨by simp, rfl, rfl⟩
  | paren _ inductionHypothesis => exact inductionHypothesis

/--
An element that is an alias contributes what its target does, unless an alias on the way is met
again while it is being expanded.
-/
theorem StandsFor.contributes
    (leads : scope.StandsFor name aliases target)
    (exchanges : expr.Exchanges name target.name expr')
    (file : FileScope)
    (position : Position)
    (state : ScopeState) :
    (∃ decl ∈ aliases,
      (scope.embeddedMethodsWith scope.declMeaning file position expr state).1 =
        .error decl.recursive) ∨
    Abreast .stay Eq
      (scope.embeddedMethodsWith scope.declMeaning file position expr state)
      (scope.embeddedMethodsWith scope.declMeaning file position expr' state) := by
  rcases leads.underlyingOf state with ⟨decl, member, fails⟩ | abreast
  · induction exchanges with
    | name isName _ =>
        subst isName
        refine .inl ⟨decl, member, ?_⟩
        rw [embeddedMethodsWith_name leads.lookup]
        simp only [Resolve.andThen]
        generalize scope.underlyingOf _ state = outcome at fails ⊢
        obtain ⟨answer, after⟩ := outcome
        cases fails
        rfl
    | pointer _ => exact .inr (.answered rfl ⟨by simp, rfl, rfl⟩)
    | paren _ inductionHypothesis => exact inductionHypothesis
  · exact .inr (abreast_element exchanges leads.lookup leads.target_itself.lookup abreast file
      position)

/-- An element that is an alias contributes what is known of its target. -/
theorem StandsFor.contributes_known
    {found : Underlying}
    {state : ScopeState}
    (leads : scope.StandsFor name aliases target)
    (exchanges : expr.Exchanges name target.name expr')
    (known : state.finished.lookup target.name = some found)
    (outside : ∀ decl ∈ aliases, decl.name ∉ state.expanding)
    (file : FileScope)
    (position : Position) :
    Abreast .stay Eq
      (scope.embeddedMethodsWith scope.declMeaning file position expr state)
      (scope.embeddedMethodsWith scope.declMeaning file position expr' state) := by
  apply abreast_element exchanges leads.lookup leads.target_itself.lookup
  rw [leads.underlyingOf_known known outside, leads.target_itself.underlyingOf_known known nofun]
  exact .answered rfl ⟨by simp, rfl, rfl⟩

end Scope

end Chain

end Implementers
