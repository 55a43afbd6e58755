import Implementers.Proofs.Promotion.Aliases
import Implementers.Proofs.Promotion.Package
import Implementers.Proofs.Scope.Aliases

/-!
# An alias in the place of the type it stands for

Receivers and embedded fields follow aliases by themselves.  Both ask for aliases that are written
without parentheses, and receivers for fewer of them than a fixed number.  Then a method on an alias
is declared as one on the type is, and an embedded alias promotes what the type does.  Together with
the lowering of type expressions and the elements of interfaces this makes an alias as good as the
type it stands for.

It is not where the type is in parentheses in the alias, which receivers and embedded fields do not
look into, and where the alias is met again in the interface that it leads to.
-/

namespace Implementers

open Syntax (Ident TypeExpr FuncDecl FieldDecl)

/-- Whether the right-hand side of a declaration is an identifier without parentheses. -/
def TypeDecl.Bare
    (decl : TypeDecl) :
    Prop :=
  ∃ span ident, decl.spec.type = .name span none (some ident) false []

/-- A bare right-hand side is the identifier that it spells. -/
theorem TypeDecl.Bare.of_spells
    {decl : TypeDecl}
    {ident : Ident}
    (bare : decl.Bare)
    (spells : decl.spec.type.Spells ident) :
    ∃ span, decl.spec.type = .name span none (some ident) false [] := by
  obtain ⟨span, other, written⟩ := bare
  rw [written] at spells ⊢
  cases spells
  exact ⟨span, rfl⟩

section Chain

variable
  {scope : Scope}
  {name : String}
  {aliases : List TypeDecl}
  {target : TypeDecl}
  {expr expr' : TypeExpr}

namespace Scope

/-! ## Receivers -/

/-- Bare aliases are followed to the target if there are not too many. -/
theorem StandsFor.throughAliases?
    {hops : Nat}
    (leads : scope.StandsFor name aliases target)
    (bare : ∀ decl ∈ aliases, decl.Bare)
    (few : aliases.length < hops) :
    scope.throughAliases? hops name = some (some target) := by
  induction leads generalizing hops with
  | itself found notAlias =>
      obtain ⟨hops, rfl⟩ := Nat.exists_eq_add_of_le' few
      simp [Scope.throughAliases?, found, notAlias]
  | through found isAlias written _ inductionHypothesis =>
      obtain ⟨hops, rfl⟩ := Nat.exists_eq_add_of_le' (Nat.zero_lt_of_lt few)
      rw [List.length_cons, Nat.add_lt_add_iff_right] at few
      obtain ⟨isBare, bareRest⟩ := List.forall_mem_cons.mp bare
      obtain ⟨span, isName⟩ := isBare.of_spells written
      have some : hops ≠ 0 := Nat.ne_zero_of_lt few
      simp [Scope.throughAliases?, found, isAlias, isName, some,
        inductionHypothesis bareRest few]

/-- Bare aliases are not followed to the target if there are too many. -/
theorem StandsFor.throughAliases?_far
    {hops : Nat}
    (leads : scope.StandsFor name aliases target)
    (bare : ∀ decl ∈ aliases, decl.Bare)
    (many : hops ≤ aliases.length) :
    scope.throughAliases? hops name = none := by
  induction leads generalizing hops with
  | itself _ _ =>
      rw [Nat.le_zero.mp many]
      rfl
  | through found isAlias written _ inductionHypothesis =>
      cases hops with
      | zero => rfl
      | succ hops =>
          obtain ⟨isBare, bareRest⟩ := List.forall_mem_cons.mp bare
          obtain ⟨span, isName⟩ := isBare.of_spells written
          have fewer := Nat.le_of_succ_le_succ many
          simp [Scope.throughAliases?, found, isAlias, isName, inductionHypothesis bareRest fewer]

/-- Two resolutions that answer the same, or both fail, and leave the same state behind. -/
def Matches
    (left right : Resolve α) :
    Prop :=
  ∀ state, (left state).1.toOption = (right state).1.toOption ∧ (left state).2 = (right state).2

theorem Matches.refl
    (resolution : Resolve α) :
    Matches resolution resolution :=
  fun _ => ⟨rfl, rfl⟩

theorem Matches.fail
    (left right : UnitError) :
    Matches (.fail left : Resolve α) (.fail right) :=
  fun _ => ⟨rfl, rfl⟩

theorem Matches.andThen
    {left right : Resolve α}
    {leftNext rightNext : α → Resolve β}
    (first : Matches left right)
    (next : ∀ value, Matches (leftNext value) (rightNext value)) :
    Matches (left.andThen leftNext) (right.andThen rightNext) := by
  intro state
  obtain ⟨sameAnswer, sameState⟩ := first state
  simp only [Resolve.andThen]
  generalize left state = leftOutcome at sameAnswer sameState ⊢
  generalize right state = rightOutcome at sameAnswer sameState ⊢
  obtain ⟨leftAnswer, leftAfter⟩ := leftOutcome
  obtain ⟨rightAnswer, rightAfter⟩ := rightOutcome
  cases leftAnswer <;> cases rightAnswer <;> simp_all [Except.toOption]
  exact next _ _

/-- What remains of receiver types differs in the name only as well. -/
theorem bareReceiver_exchanged
    {other : String}
    (exchanges : expr.Exchanges name other expr')
    (pointer : Bool) :
    ∃ bare bare', bareReceiver pointer expr = .ok bare ∧ bareReceiver pointer expr' = .ok bare' ∧
      bare.pointer = bare'.pointer ∧ bare.type.Exchanges name other bare'.type := by
  induction exchanges generalizing pointer with
  | name isName isOther => exact ⟨_, _, rfl, rfl, rfl, .name isName isOther⟩
  | @pointer span span' elem elem' within inductionHypothesis =>
      cases pointer with
      | true =>
          refine ⟨⟨true, .pointer span elem⟩, ⟨true, .pointer span' elem'⟩, ?_, ?_, rfl,
            .pointer within⟩ <;> cases within <;> rfl
      | false =>
          obtain ⟨bare, bare', isBare, isBare', rest⟩ := inductionHypothesis true
          refine ⟨bare, bare', ?_, ?_, rest⟩
          · rw [← isBare]
            cases within <;> rfl
          · rw [← isBare']
            cases within <;> rfl
  | paren within inductionHypothesis =>
      obtain ⟨bare, bare', isBare, isBare', rest⟩ := inductionHypothesis pointer
      refine ⟨bare, bare', ?_, ?_, rest⟩
      · rw [← isBare]
        cases within <;> rfl
      · rw [← isBare']
        cases within <;> rfl

/-- The base of a receiver that is a name leading to a declaration. -/
theorem receiverBase_name
    {ident : Ident}
    {span : Syntax.Span}
    (followed : scope.throughAliases? aliasLimit ident.text = some (some target))
    (file : FileScope)
    (position : Position) :
    scope.receiverBase file position (.name span none (some ident) false []) =
      if target.spec.generic then
        .answer none
      else
        (scope.underlyingOf target.name).andThen fun underlying =>
          if underlying.isInterface then
            .fail (.invalidReceiver position (file.excerpt span))
          else
            .answer (some target) := by
  simp only [receiverBase, followed, Bool.or_false]
  rfl

/-- Receivers with names that lead to the same declaration have the same base. -/
theorem matches_receiverBase
    {other : String}
    (exchanges : expr.Exchanges name other expr')
    (followed : scope.throughAliases? aliasLimit name = some (some target))
    (followedOther : scope.throughAliases? aliasLimit other = some (some target))
    (file : FileScope)
    (position : Position) :
    Matches (scope.receiverBase file position expr) (scope.receiverBase file position expr') := by
  cases exchanges with
  | name isName isOther =>
      subst isName isOther
      rw [receiverBase_name followed, receiverBase_name followedOther]
      split
      · exact .refl _
      · apply Matches.andThen (.refl _)
        intro underlying
        split
        · exact .fail _ _
        · exact .refl _
  | pointer _ => exact .fail _ _
  | paren _ => exact .fail _ _

/-- A function declaration with a receiver of a type in the place of its own receiver. -/
def received
    (func : FuncDecl)
    (span paramSpan : Syntax.Span)
    (paramName : Option Ident)
    (variadic : Bool)
    (type : TypeExpr) :
    FuncDecl :=
  { func with receiver := some ⟨span, some (.mk paramSpan paramName variadic type)⟩ }

section Receiver

variable
  {other : String}
  (exchanges : expr.Exchanges name other expr')
  (file : FileScope)
  (span paramSpan : Syntax.Span)
  (paramName : Option Ident)
  (variadic : Bool)

include exchanges in
/-- What a receiver says is said by what remains of its type. -/
theorem receiverOf_bare
    {bare : BareReceiver}
    (isBare : bareReceiver false expr = .ok bare) :
    scope.receiverOf file ⟨span, some (.mk paramSpan paramName variadic expr)⟩ =
      (scope.receiverBase file (file.position span.start) bare.type).andThen fun base =>
        .answer (base.map fun decl => (decl, bare.pointer)) := by
  unfold receiverOf
  cases exchanges <;> simp only [Option.map_some, Syntax.Param.type, isBare] <;> rfl

variable
  (followed : scope.throughAliases? aliasLimit name = some (some target))

include exchanges followed in
/-- Receivers with names that lead to the same declaration say the same. -/
theorem matches_receiverOf
    (followedOther : scope.throughAliases? aliasLimit other = some (some target)) :
    Matches
      (scope.receiverOf file ⟨span, some (.mk paramSpan paramName variadic expr)⟩)
      (scope.receiverOf file ⟨span, some (.mk paramSpan paramName variadic expr')⟩) := by
  obtain ⟨bare, bare', isBare, isBare', samePointer, within⟩ :=
    bareReceiver_exchanged exchanges false
  rw [receiverOf_bare exchanges file span paramSpan paramName variadic isBare,
    receiverOf_bare exchanges.symm file span paramSpan paramName variadic isBare',
    samePointer]
  exact (matches_receiverBase within followed followedOther file _).andThen fun _ => .refl _

include exchanges in
/-- A receiver whose name leads nowhere within the limit is refused. -/
theorem receiverOf_far
    (far : scope.throughAliases? aliasLimit name = none)
    (state : ScopeState) :
    (scope.receiverOf file ⟨span, some (.mk paramSpan paramName variadic expr)⟩ state).1.toOption =
      none := by
  obtain ⟨⟨pointer, type⟩, ⟨_, _⟩, isBare, _, _, within⟩ := bareReceiver_exchanged exchanges false
  rw [receiverOf_bare exchanges file span paramSpan paramName variadic isBare]
  cases within with
  | name isName _ =>
      subst isName
      simp only [Resolve.andThen, receiverBase, far]
      rfl
  | pointer _ => rfl
  | paren _ => rfl

include exchanges in
/-- A method on a receiver whose name leads nowhere within the limit is refused. -/
theorem addMethodDecl_far
    (far : scope.throughAliases? aliasLimit name = none)
    (table : MethodTable)
    (func : FuncDecl)
    (state : ScopeState) :
    (scope.addMethodDecl file table
      (received func span paramSpan paramName variadic expr) state).1.toOption = none := by
  have refused := receiverOf_far exchanges file span paramSpan paramName variadic far state
  simp only [addMethodDecl, received, bind, Resolve.andThen]
  generalize scope.receiverOf file _ state = outcome at refused ⊢
  obtain ⟨answer, after⟩ := outcome
  cases answer with
  | error _ => rfl
  | ok _ => cases refused

include exchanges followed in
/-- A receiver whose name leads to a declaration belongs to it. -/
theorem receiverOf_ok
    {state after : ScopeState}
    {base : Option (TypeDecl × Bool)}
    (notGeneric : target.spec.generic = false)
    (answered :
      scope.receiverOf file ⟨span, some (.mk paramSpan paramName variadic expr)⟩ state =
        (.ok base, after)) :
    ∃ pointer, base = some (target, pointer) := by
  obtain ⟨⟨pointer, type⟩, ⟨_, _⟩, isBare, _, _, within⟩ := bareReceiver_exchanged exchanges false
  rw [receiverOf_bare exchanges file span paramSpan paramName variadic isBare] at answered
  obtain ⟨found, middle, ran, rest⟩ := Resolve.andThen_ok answered
  cases rest
  cases within with
  | name isName _ =>
      subst isName
      rw [receiverBase_name followed, notGeneric] at ran
      obtain ⟨underlying, _, _, last⟩ := Resolve.andThen_ok ran
      split at last
      · cases last
      · cases last
        exact ⟨pointer, rfl⟩
  | pointer _ => cases ran
  | paren _ => cases ran

include exchanges followed in
/-- Methods on receivers with names that lead to the same declaration are declared alike. -/
theorem matches_addMethodDecl
    (followedOther : scope.throughAliases? aliasLimit other = some (some target))
    (table : MethodTable)
    (func : FuncDecl) :
    Matches
      (scope.addMethodDecl file table (received func span paramSpan paramName variadic expr))
      (scope.addMethodDecl file table (received func span paramSpan paramName variadic expr')) :=
  (matches_receiverOf exchanges file span paramSpan paramName variadic followed
    followedOther).andThen fun _ => .refl _

include exchanges followed in
/-- A method on a receiver whose name leads to a declaration is attached to it. -/
theorem addMethodDecl_attaches
    {table added : MethodTable}
    {func : FuncDecl}
    {ident : Ident}
    {state after : ScopeState}
    (notGeneric : target.spec.generic = false)
    (named : func.name = some ident)
    (visible : ident.text ≠ blankName)
    (answered :
      scope.addMethodDecl file table (received func span paramSpan paramName variadic expr) state =
        (.ok added, after)) :
    ∃ signature pointer, added.methods =
      table.methods ++ [⟨target.name, scope.methodName ident.text, signature, pointer⟩] := by
  obtain ⟨base, middle, ran, rest⟩ := Resolve.andThen_ok answered
  obtain ⟨pointer, rfl⟩ :=
    receiverOf_ok exchanges file span paramSpan paramName variadic followed notGeneric ran
  simp only [received, named, beq_iff_eq, visible, ↓reduceIte] at rest
  obtain ⟨signature, last, _, adds⟩ := Resolve.andThen_ok rest
  split at adds
  · cases adds
  · cases adds
    exact ⟨signature, pointer, rfl⟩

end Receiver

/-! ## Embedded fields -/

/-- Bare aliases lead to the target as those of embedded fields do. -/
theorem StandsFor.leadsTo
    (leads : scope.StandsFor name aliases target)
    (bare : ∀ decl ∈ aliases, decl.Bare) :
    ∃ path, scope.LeadsTo name path (.declared target.name) := by
  induction leads with
  | itself found notAlias => exact ⟨_, .declared found notAlias⟩
  | through found isAlias written _ inductionHypothesis =>
      obtain ⟨isBare, bareRest⟩ := List.forall_mem_cons.mp bare
      obtain ⟨span, isName⟩ := isBare.of_spells written
      obtain ⟨path, leadsTo⟩ := inductionHypothesis bareRest
      exact ⟨_, .through found isAlias isName leadsTo⟩

/-- An embedded field whose name leads to a declaration through bare aliases opens the way to it. -/
theorem StandsFor.fieldWay?
    {ident : Ident}
    (leads : scope.StandsFor name aliases target)
    (bare : ∀ decl ∈ aliases, decl.Bare)
    (isName : ident.text = name)
    (span nameSpan : Syntax.Span)
    (starred indirect : Bool) :
    scope.fieldWay? indirect (.mk span [] starred (.name nameSpan none (some ident) false [])) =
      some (.declared target.name, indirect || starred) := by
  obtain ⟨path, leadsTo⟩ := leads.leadsTo bare
  have promotes :
      scope.embeddedTarget? (.mk span [] starred (.name nameSpan none (some ident) false [])) =
        some (.declared target.name) :=
    embeddedTarget?_eq_some_iff.mpr ⟨nameSpan, ident, [], path, rfl, isName ▸ leadsTo⟩
  simp [Scope.fieldWay?, promotes, FieldDecl.isEmbedded, FieldDecl.names, FieldDecl.embedsPointer]

/-! ## An alias in the place of its target -/

/-- What an embedded field promotes by itself. -/
def promotedBy
    (scope : Scope)
    (table : MethodTable)
    (indirect : Bool)
    (field : FieldDecl) :
    Resolve MethodSet :=
  scope.promoteWithin table (scope.decls.length + 3)
    { seen := []
      settled := []
      methods := .empty
      ways := (scope.fieldWay? indirect field).toList }

/-- Whether a name can stand in the place of a declared type to which aliases lead from it. -/
structure Interchangeable
    (scope : Scope)
    (name : String)
    (aliases : List TypeDecl)
    (target : TypeDecl) :
    Prop where
  /-- Both are lowered to the same type, except inside of an alias on the way. -/
  lowers :
    ∀ {expr expr' : TypeExpr}, expr.Exchanges name target.name expr' →
      ∀ (file : FileScope) (state : ScopeState),
        (∃ decl ∈ aliases, decl.name ∈ state.expanding ∧
          (scope.lowerType file expr state).1 = .error decl.recursive) ∨
        scope.lowerType file expr state = scope.lowerType file expr' state
  /-- Methods on both are accepted alike. -/
  receives :
    aliases.length < aliasLimit → (∀ decl ∈ aliases, decl.Bare) →
      ∀ {expr expr' : TypeExpr}, expr.Exchanges name target.name expr' →
        ∀ (file : FileScope) (span paramSpan : Syntax.Span) (paramName : Option Ident)
          (variadic : Bool) (table : MethodTable) (func : FuncDecl),
          Matches
            (scope.addMethodDecl file table
              (received func span paramSpan paramName variadic expr))
            (scope.addMethodDecl file table
              (received func span paramSpan paramName variadic expr'))
  /-- Methods on the name are attached to the type. -/
  attaches :
    aliases.length < aliasLimit → (∀ decl ∈ aliases, decl.Bare) → target.spec.generic = false →
      ∀ {expr expr' : TypeExpr}, expr.Exchanges name target.name expr' →
        ∀ {file : FileScope} {span paramSpan : Syntax.Span} {paramName : Option Ident}
          {variadic : Bool} {table added : MethodTable} {func : FuncDecl} {ident : Ident}
          {state after : ScopeState},
          func.name = some ident → ident.text ≠ blankName →
          scope.addMethodDecl file table
            (received func span paramSpan paramName variadic expr) state = (.ok added, after) →
          ∃ signature pointer, added.methods =
            table.methods ++ [⟨target.name, scope.methodName ident.text, signature, pointer⟩]
  /-- Methods on a name too far from the type are refused. -/
  refuses :
    aliasLimit ≤ aliases.length → (∀ decl ∈ aliases, decl.Bare) →
      ∀ {expr expr' : TypeExpr}, expr.Exchanges name target.name expr' →
        ∀ (file : FileScope) (span paramSpan : Syntax.Span) (paramName : Option Ident)
          (variadic : Bool) (table : MethodTable) (func : FuncDecl) (state : ScopeState),
          (scope.addMethodDecl file table
            (received func span paramSpan paramName variadic expr) state).1.toOption = none
  /-- Embedded fields of both promote what the type does, or the pointer to it. -/
  promotes :
    (∀ decl ∈ aliases, decl.Bare) →
      ∀ {ident : Ident}, ident.text = name ∨ ident.text = target.name →
        ∀ (span nameSpan : Syntax.Span) (starred indirect : Bool) (table : MethodTable),
          scope.fieldWay? indirect
              (.mk span [] starred (.name nameSpan none (some ident) false [])) =
            some (.declared target.name, indirect || starred) ∧
          scope.promotedBy table indirect
              (.mk span [] starred (.name nameSpan none (some ident) false [])) =
            scope.concreteMethods table target.name (indirect || starred)
  /-- Elements contribute the same, unless an alias on the way is met again inside of itself. -/
  contributes :
    ∀ {expr expr' : TypeExpr}, expr.Exchanges name target.name expr' →
      ∀ (file : FileScope) (position : Position) (state : ScopeState),
        (∃ decl ∈ aliases,
          (scope.embeddedMethodsWith scope.declMeaning file position expr state).1 =
            .error decl.recursive) ∨
        Abreast .stay Eq
          (scope.embeddedMethodsWith scope.declMeaning file position expr state)
          (scope.embeddedMethodsWith scope.declMeaning file position expr' state)
  /-- They do so in any case once it is known what is underneath the type. -/
  contributesKnown :
    ∀ {expr expr' : TypeExpr}, expr.Exchanges name target.name expr' →
      ∀ (file : FileScope) (position : Position) {state : ScopeState} {found : Underlying},
        state.finished.lookup target.name = some found →
        (∀ decl ∈ aliases, decl.name ∉ state.expanding) →
        Abreast .stay Eq
          (scope.embeddedMethodsWith scope.declMeaning file position expr state)
          (scope.embeddedMethodsWith scope.declMeaning file position expr' state)

/--
A name from which aliases lead to a declared type can stand in its place.  Receivers and embedded
fields ask for aliases without parentheses, and receivers for fewer than sixty-four of them.
-/
theorem StandsFor.interchangeable
    (leads : scope.StandsFor name aliases target) :
    scope.Interchangeable name aliases target where
  lowers exchanges file state := leads.lowers exchanges file state
  receives few bare _ _ exchanges file span paramSpan paramName variadic table func :=
    matches_addMethodDecl exchanges file span paramSpan paramName variadic
      (leads.throughAliases? bare few)
      (leads.target_itself.throughAliases? nofun (by decide)) table func
  attaches few bare notGeneric _ _ exchanges file span paramSpan paramName variadic _ _ _ _ _ _
      named visible answered :=
    addMethodDecl_attaches exchanges file span paramSpan paramName variadic
      (leads.throughAliases? bare few) notGeneric named visible answered
  refuses many bare _ _ exchanges file span paramSpan paramName variadic table func state :=
    addMethodDecl_far exchanges file span paramSpan paramName variadic
      (leads.throughAliases?_far bare many) table func state
  promotes bare ident isName span nameSpan starred indirect table := by
    have opens :
        scope.fieldWay? indirect
            (.mk span [] starred (.name nameSpan none (some ident) false [])) =
          some (.declared target.name, indirect || starred) := by
      rcases isName with isAlias | isTarget
      · exact leads.fieldWay? bare isAlias span nameSpan starred indirect
      · exact leads.target_itself.fieldWay? nofun isTarget span nameSpan starred indirect
    exact ⟨opens, by rw [promotedBy, opens]; rfl⟩
  contributes exchanges file position state := leads.contributes exchanges file position state
  contributesKnown exchanges file position _ _ known outside :=
    leads.contributes_known exchanges known outside file position

/-- Bare aliases that receivers follow lead to the target and are not too many. -/
theorem standsFor_of_throughAliases?
    {hops : Nat}
    (bare : ∀ decl ∈ scope.decls, decl.spec.isAlias = true → decl.Bare)
    (followed : scope.throughAliases? hops name = some (some target)) :
    ∃ aliases, (∀ decl ∈ aliases, decl.Bare) ∧ aliases.length < hops ∧
      scope.StandsFor name aliases target := by
  induction hops generalizing name with
  | zero => cases followed
  | succ hops inductionHypothesis =>
      simp only [throughAliases?] at followed
      split at followed
      · cases followed
      · next decl found =>
          split at followed
          · next isAlias =>
              have isBare := bare decl (List.mem_of_find?_eq_some found) isAlias
              obtain ⟨span, ident, written⟩ := isBare
              rw [written] at followed
              simp only at followed
              split at followed
              · cases followed
              · obtain ⟨aliases, bareRest, few, leads⟩ := inductionHypothesis followed
                exact ⟨decl :: aliases, List.forall_mem_cons.mpr ⟨⟨span, ident, written⟩, bareRest⟩,
                  Nat.succ_lt_succ few, .through found isAlias (written ▸ .name) leads⟩
          · next notAlias =>
              cases followed
              exact ⟨[], nofun, Nat.succ_pos _, .itself found (by simpa using notAlias)⟩

end Scope

end Chain

/-! ## A long chain of aliases -/

namespace Relay

open Sketch (package)

/-- The names on the chain: the type and the aliases from the nearest to the farthest one. -/
def link
    (index : Nat) :
    String :=
  if index = 0 then "T" else "A" ++ toString index

/-- The alias of a link. -/
def forwards
    (index : Nat) :
    Syntax.TypeSpec :=
  Sketch.declares (index + 16) (link (index + 1)) true (Sketch.named (index + 16) (link index))

/-- A file with `type T struct{}`, aliases `A1` to `A64` in a chain, and a method on a receiver. -/
def file
    (receiver : String) :
    FileScope :=
  Sketch.file
    (Sketch.declares 16 "T" false (.struct ⟨16, 16⟩ []) :: (List.range 64).map forwards)
    [Sketch.method 100 receiver "M"]

/-- The package of the file. -/
def scope
    (receiver : String) :
    Scope :=
  ⟨package, [file receiver], Scope.declsOf (file receiver)⟩

/-- All aliases of the package are written without parentheses. -/
theorem bare
    (receiver : String) :
    ∀ decl ∈ (scope receiver).decls, decl.spec.isAlias = true → decl.Bare := by
  intro decl member isAlias
  obtain ⟨spec, listed, made⟩ := List.mem_filterMap.mp member
  have same : decl.spec = spec := by
    obtain ⟨ident, _, rest⟩ := Option.bind_eq_some_iff.mp made
    split at rest
    · cases rest
    · cases rest
      rfl
  rcases List.mem_cons.mp listed with rfl | inChain
  · rw [same] at isAlias
    cases isAlias
  · obtain ⟨index, _, rfl⟩ := List.mem_map.mp inChain
    exact ⟨_, _, by rw [same]; rfl⟩

/-- Some declaration that a name leads to is known when it is followed far enough. -/
theorem standsFor
    {receiver name : String}
    {hops : Nat}
    (followed :
      (((scope receiver).throughAliases? hops name).bind id).any
        (fun decl => decl.name == "T" && !decl.spec.generic) = true) :
    ∃ aliases target, (∀ decl ∈ aliases, decl.Bare) ∧ aliases.length < hops ∧
      target.name = "T" ∧ target.spec.generic = false ∧
        (scope receiver).StandsFor name aliases target := by
  obtain ⟨target, reached, isTarget⟩ := (Option.any_eq_true _ _).mp followed
  have found : (scope receiver).throughAliases? hops name = some (some target) := by
    obtain ⟨_, first, rfl⟩ := Option.bind_eq_some_iff.mp reached
    exact first
  obtain ⟨aliases, allBare, few, leads⟩ := Scope.standsFor_of_throughAliases? (bare receiver) found
  simp only [Bool.and_eq_true, beq_iff_eq, Bool.not_eq_true'] at isTarget
  exact ⟨aliases, target, allBare, few, isTarget.1, isTarget.2, leads⟩

/--
The second alias of the chain can stand in the place of the type, also as a receiver.  So can the
last one, but as a receiver it is refused.
-/
theorem interchangeable_near :
    (∃ aliases target,
      (scope "A2").StandsFor "A2" aliases target ∧ target.name = "T" ∧
        target.spec.generic = false ∧ (∀ decl ∈ aliases, decl.Bare) ∧
        aliases.length < Scope.aliasLimit ∧ (scope "A2").Interchangeable "A2" aliases target) ∧
    (∃ aliases target,
      (scope "A64").StandsFor "A64" aliases target ∧ target.name = "T" ∧
        target.spec.generic = false ∧ (∀ decl ∈ aliases, decl.Bare) ∧
        Scope.aliasLimit ≤ aliases.length ∧
        (scope "A64").Interchangeable "A64" aliases target) ∧
    (resolvePackage package [file "T"]).isOk = true ∧
    (resolvePackage package [file "A2"]).isOk = true ∧
    (resolvePackage package [file "A64"]).isOk = false := by
  obtain ⟨near, target, nearBare, few, isTarget, notGeneric, leads⟩ :=
    @standsFor "A2" "A2" Scope.aliasLimit (by decide +kernel)
  obtain ⟨far, target', farBare, _, isTarget', notGeneric', leads'⟩ :=
    @standsFor "A64" "A64" 65 (by decide +kernel)
  have many : Scope.aliasLimit ≤ far.length := by
    by_contra less
    have followed := leads'.throughAliases? farBare (Nat.not_le.mp less)
    have lost : ((scope "A64").throughAliases? Scope.aliasLimit "A64").isNone = true := by
      decide +kernel
    rw [followed] at lost
    cases lost
  exact ⟨⟨near, target, leads, isTarget, notGeneric, nearBare, few, leads.interchangeable⟩,
    ⟨far, target', leads', isTarget', notGeneric', farBare, many, leads'.interchangeable⟩,
    by decide +kernel, by decide +kernel, by decide +kernel⟩

end Relay

/-! ## Aliases that cannot stand in the place of their type -/

namespace Misfit

open Sketch (declares ident named package)

/--
A file with `type T struct{}`, `type A = (T)`, a struct type `S` that embeds a type, and a method on
a receiver.
-/
def wrapped
    (embedded receiver : String) :
    FileScope :=
  Sketch.file
    [ declares 16 "T" false (.struct ⟨16, 16⟩ []),
      declares 32 "A" true (.paren ⟨32, 32⟩ (named 33 "T")),
      declares 48 "S" false (.struct ⟨48, 48⟩ [Sketch.embeds 56 embedded]) ]
    [Sketch.method 100 receiver "M"]

/-- A file with `type S interface{ … }`, `type A = T` and `type T interface{ M(x A) }`. -/
def recurring
    (element : String) :
    FileScope :=
  Sketch.file
    [ declares 16 "S" false (.interface ⟨18, 30⟩ [.embedded ⟨29, 30⟩ (named 29 element)]),
      declares 39 "A" true (named 43 "T"),
      declares 51 "T" false
        (.interface ⟨53, 72⟩
          [.method ⟨64, 70⟩ (some (ident 64 "M"))
            (.list ⟨65, 70⟩ [.mk ⟨66, 69⟩ (some (ident 66 "x")) false (named 68 "A")]) .absent]) ]
    []

/-- The package of a file. -/
def scope
    (file : FileScope) :
    Scope :=
  ⟨package, [file], Scope.declsOf file⟩

/-- The names of the methods of the struct type, with the method on the other type. -/
def methodNames
    (embedded : String) :
    Option (List String) :=
  let scope := scope (wrapped embedded "T")
  ((scope.methodTable.andThen fun table =>
    scope.concreteMethods table "S" false) .initial).1.toOption.map fun methods =>
      methods.methods.map (·.name.name)

/--
An alias of a type in parentheses leads to the type, but it is refused as a receiver and promotes
nothing as an embedded field.  An alias of an interface that mentions the alias leads to the
interface, but it is refused as an element of another one that is declared in front.
-/
theorem resolvePackage_misfit :
    (∃ aliases target,
      (scope (wrapped "A" "A")).StandsFor "A" aliases target ∧ target.name = "T" ∧
        target.spec.generic = false) ∧
    (resolvePackage package [wrapped "T" "T"]).isOk = true ∧
    (resolvePackage package [wrapped "T" "A"]).isOk = false ∧
    methodNames "T" = some ["M"] ∧ methodNames "A" = some [] ∧
    (∃ aliases target,
      (scope (recurring "A")).StandsFor "A" aliases target ∧ target.name = "T" ∧
        target.spec.generic = false) ∧
    (resolvePackage package [recurring "T"]).isOk = true ∧
    (resolvePackage package [recurring "A"]).isOk = false := by
  refine ⟨⟨_, _, .through rfl rfl (.paren .name) (.itself rfl rfl), rfl, rfl⟩, ?_, ?_, ?_, ?_,
    ⟨_, _, .through rfl rfl .name (.itself rfl rfl), rfl, rfl⟩, ?_, ?_⟩ <;> decide +kernel

end Misfit

end Implementers
