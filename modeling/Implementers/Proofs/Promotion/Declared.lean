import Implementers.Proofs.Promotion.Rule
import Implementers.Proofs.Scope.Questions

/-!
# Embedded fields of declared types

The types that a package declares with their methods, fields and embedded fields, by what is found
underneath their names.  A resolution that answers with a method set has gone through the levels of
the promotion over these types.
-/

namespace Implementers

open Scope (PromotionState)
open Syntax (FieldDecl)

namespace Scope

/-- The methods of an interface as declarations. -/
def interfaceDeclarations
    (methods : MethodSet) :
    List (String × Declaration) :=
  methods.methods.map fun method =>
    (method.name.name, .method method.name method.signature false)

/-- The methods that are declared on a type. -/
def methodDeclarations
    (table : MethodTable)
    (name : String) :
    List (String × Declaration) :=
  (table.declared name).map fun method =>
    (method.name.name, .method method.name method.signature method.pointerReceiver)

/-- The fields of a field declaration. -/
def fieldDeclarations
    (field : FieldDecl) :
    List (String × Declaration) :=
  (fieldMembers field).map fun member => (member.1, .field)

/-- What is declared in the type underneath a name. -/
def innerDeclarations : Underlying → List (String × Declaration)
  | .interface interface => interfaceDeclarations interface.methods
  | .struct _ fields => fields.flatMap fieldDeclarations
  | _ => []

/-- The embedded fields of the type underneath a name. -/
def innerOpenings
    (scope : Scope) :
    Underlying → List (EmbeddedTarget × Bool)
  | .struct _ fields => fields.filterMap (scope.fieldWay? false)
  | _ => []

/-- What a type of a package declares, by what is underneath its name. -/
def declarationsOf
    (scope : Scope)
    (table : MethodTable)
    (underlying : String → Underlying) :
    EmbeddedTarget → List (String × Declaration)
  | .errorInterface => interfaceDeclarations scope.errorMethods
  | .declared name => methodDeclarations table name ++ innerDeclarations (underlying name)

/-- What the embedded fields of a type of a package lead to, by what is underneath its name. -/
def openingsOf
    (scope : Scope)
    (underlying : String → Underlying) :
    EmbeddedTarget → List (EmbeddedTarget × Bool)
  | .errorInterface => []
  | .declared name => scope.innerOpenings (underlying name)

/-- The methods of an interface are declared under their own names. -/
theorem named_interfaceDeclarations
    {methods : MethodSet}
    {key : String}
    {name : MethodName}
    {signature : Signature}
    {pointerOnly : Bool}
    (member : (key, Declaration.method name signature pointerOnly) ∈
      interfaceDeclarations methods) :
    name.name = key := by
  obtain ⟨method, _, same⟩ := List.mem_map.mp member
  simp only [Prod.mk.injEq, Declaration.method.injEq] at same
  rw [← same.1, ← same.2.1]

/-- The types of a package with their embedded fields. -/
def embedding
    (scope : Scope)
    (table : MethodTable)
    (underlying : String → Underlying) :
    Embedding where
  declarations := scope.declarationsOf table underlying
  openings := scope.openingsOf underlying
  named := by
    intro target key name signature pointerOnly member
    cases target with
    | errorInterface => exact named_interfaceDeclarations member
    | declared base =>
        rcases List.mem_append.mp member with own | inner
        · obtain ⟨method, _, same⟩ := List.mem_map.mp own
          simp only [Prod.mk.injEq, Declaration.method.injEq] at same
          rw [← same.1, ← same.2.1]
        · cases found : underlying base with
          | interface interface =>
              rw [found] at inner
              exact named_interfaceDeclarations inner
          | struct _ fields =>
              rw [found] at inner
              obtain ⟨field, _, fieldMember⟩ := List.mem_flatMap.mp inner
              obtain ⟨_, _, same⟩ := List.mem_map.mp fieldMember
              cases (Prod.mk.inj same).2
          | imported _ =>
              rw [found] at inner
              cases inner
          | other =>
              rw [found] at inner
              cases inner

/-- A type that promotion may start from or lead to: a declared one that is no alias, or `error`. -/
def Promotable
    (scope : Scope) :
    EmbeddedTarget → Prop
  | .errorInterface => True
  | .declared name => ∃ decl, scope.lookup? name = some decl ∧ decl.spec.isAlias = false

/-- A name leads through aliases to a type that promotion may lead to. -/
theorem promotable_of_embeddedThroughAliases?
    {scope : Scope}
    {hops : Nat}
    {visited : List String}
    {name : String}
    {target : EmbeddedTarget}
    (leads : scope.embeddedThroughAliases? hops visited name = some target) :
    scope.Promotable target := by
  induction hops generalizing visited name with
  | zero => cases leads
  | succ hops inductionHypothesis =>
      simp only [embeddedThroughAliases?] at leads
      split at leads
      · cases leads
      · split at leads
        · next decl found =>
            split at leads
            · split at leads
              · exact inductionHypothesis leads
              · cases leads
            · next notAlias =>
                cases leads
                exact ⟨decl, lookup?_self found, by simpa using notAlias⟩
        · split at leads
          · cases leads
            trivial
          · cases leads

/-- An embedded field leads to a type that promotion may lead to. -/
theorem promotable_of_fieldWay?
    {scope : Scope}
    {indirect : Bool}
    {field : FieldDecl}
    {way : EmbeddedTarget × Bool}
    (leads : scope.fieldWay? indirect field = some way) :
    scope.Promotable way.1 := by
  unfold fieldWay? at leads
  split at leads
  · obtain ⟨target, found, rfl⟩ := Option.map_eq_some_iff.mp leads
    unfold embeddedTarget? at found
    split at found
    · exact promotable_of_embeddedThroughAliases? found
    · cases found
  · cases leads

/-- The embedded fields of a type lead to types that promotion may lead to. -/
theorem promotable_of_mem_openings
    {scope : Scope}
    {underlying : String → Underlying}
    {target : EmbeddedTarget}
    {opening : EmbeddedTarget × Bool}
    (member : opening ∈ scope.openingsOf underlying target) :
    scope.Promotable opening.1 := by
  cases target with
  | errorInterface => cases member
  | declared name =>
      rw [openingsOf] at member
      cases found : underlying name with
      | struct _ fields =>
          rw [found] at member
          obtain ⟨field, _, leads⟩ := List.mem_filterMap.mp member
          exact promotable_of_fieldWay? leads
      | _ =>
          rw [found] at member
          cases member

/-- The types that promotion may lead to. -/
def promotableTypes
    (scope : Scope) :
    List EmbeddedTarget :=
  .errorInterface :: scope.decls.map fun decl => .declared decl.name

/-- Promotion leads to `error` and to types that are declared. -/
theorem Promotable.mem_promotableTypes
    {scope : Scope}
    {target : EmbeddedTarget}
    (promotable : scope.Promotable target) :
    target ∈ scope.promotableTypes := by
  cases target with
  | errorInterface => exact List.mem_cons_self
  | declared name =>
      obtain ⟨decl, found, _⟩ := promotable
      refine List.mem_cons_of_mem _ (List.mem_map.mpr ⟨decl, List.mem_of_find?_eq_some found, ?_⟩)
      rw [lookup?_name found]

/-- Every path ends at a type that promotion may lead to. -/
theorem promotable_endOf
    {scope : Scope}
    {table : MethodTable}
    {underlying : String → Underlying}
    {view : View}
    (start : scope.Promotable view.start)
    (length : Nat) :
    ∀ path ∈ (scope.embedding table underlying).paths view length,
      scope.Promotable (view.endOf path) := by
  cases length with
  | zero =>
      intro path member
      have empty : path = [] := by simpa [Embedding.paths] using member
      rw [empty]
      exact start
  | succ length =>
      intro longer member
      obtain ⟨path, _, step, stepMember, rfl⟩ := Embedding.mem_paths_succ.mp member
      obtain ⟨opening, openingMember, rfl⟩ := List.mem_map.mp stepMember
      exact promotable_of_mem_openings (List.fst_mem_of_mem_zipIdx openingMember)

end Scope

/-- What a state has found underneath a name. -/
def ScopeState.underlying
    (state : ScopeState)
    (name : String) :
    Underlying :=
  (state.finished.lookup name).getD .other

/-- What a state has found underneath names is what it is said to be. -/
def ScopeState.Finds
    (state : ScopeState)
    (underlying : String → Underlying) :
    Prop :=
  ∀ name found, state.finished.lookup name = some found → underlying name = found

namespace ScopeState

/-- A state finds what every state that covers it finds. -/
theorem Covers.finds
    {later earlier : ScopeState}
    (covers : later.Covers earlier) :
    earlier.Finds later.underlying := by
  intro name found finished
  simp [ScopeState.underlying, covers name found finished]

/-- What a later state finds, an earlier one finds as far as it goes. -/
theorem Finds.before
    {later earlier : ScopeState}
    {underlying : String → Underlying}
    (finds : later.Finds underlying)
    (covers : later.Covers earlier) :
    earlier.Finds underlying :=
  fun name found finished => finds name found (covers name found finished)

end ScopeState

/-- The meanings of declared names never suffer from knowing more. -/
theorem hastening_declMeaning
    (scope : Scope) :
    (hastening scope).Agreement .stay scope scope.declMeaning scope.declMeaning :=
  hastening_meaning scope _

namespace Scope

/-- The answer to what is underneath a declared type is remembered. -/
theorem lookup_of_underlyingOf
    {scope : Scope}
    {name : String}
    {decl : TypeDecl}
    {found : Underlying}
    {state after : ScopeState}
    (declared : scope.lookup? name = some decl)
    (notAlias : decl.spec.isAlias = false)
    (answered : scope.underlyingOf name state = (.ok found, after)) :
    after.finished.lookup name = some found := by
  rw [← lookup?_name declared] at answered ⊢
  simp only [underlyingOf, lookup?_self declared, declMeaning, meaning, notAlias,
    Bool.false_eq_true, ↓reduceIte] at answered
  rcases Resolve.finding_ok answered with ⟨finished, rfl⟩ | ⟨_, _, middle, _, rfl⟩
  · exact finished
  · simp [ScopeState.lookup_finish]

/-- The methods of an interface can be called in any view. -/
theorem interfaceMembers_eq
    (methods : MethodSet)
    (indirect : Bool) :
    interfaceMembers methods =
      (interfaceDeclarations methods).map fun declaration =>
        (declaration.1, declaration.2.member indirect) := by
  simp [interfaceMembers, interfaceDeclarations, Declaration.member]

/-- The methods declared on a type as members. -/
theorem declaredMembers_eq
    (table : MethodTable)
    (name : String)
    (indirect : Bool) :
    declaredMembers table name indirect =
      (methodDeclarations table name).map fun declaration =>
        (declaration.1, declaration.2.member indirect) := by
  simp [declaredMembers, methodDeclarations, Declaration.member]

/-- The fields of a type as members. -/
theorem fieldMembers_eq
    (field : FieldDecl)
    (indirect : Bool) :
    fieldMembers field =
      (fieldDeclarations field).map fun declaration =>
        (declaration.1, declaration.2.member indirect) := by
  have fields : ∀ member ∈ fieldMembers field, member.2 = .field := by
    intro member inside
    unfold fieldMembers at inside
    split at inside
    · obtain ⟨name, _, rfl⟩ := Option.map_eq_some_iff.mp (Option.mem_toList.mp inside)
      rfl
    · obtain ⟨name, _, rfl⟩ := List.mem_map.mp inside
      rfl
  simp only [fieldDeclarations, List.map_map]
  conv_lhs => rw [← List.map_id (fieldMembers field)]
  apply List.map_congr_left
  intro member inside
  exact Prod.ext rfl (fields member inside)

/-- A way through a field of a type that is reached through a pointer. -/
theorem fieldWay?_eq
    (scope : Scope)
    (indirect : Bool)
    (field : FieldDecl) :
    scope.fieldWay? indirect field =
      (scope.fieldWay? false field).map fun opening => (opening.1, indirect || opening.2) := by
  unfold fieldWay?
  split
  · cases scope.embeddedTarget? field <;> simp
  · rfl

section Run

variable
  {scope : Scope}
  {table : MethodTable}
  {underlying : String → Underlying}

/-- The members of a reached type, and the ways that it opens, when its resolution answers. -/
theorem membersOf_eq
    {target : EmbeddedTarget}
    {indirect : Bool}
    {state after : ScopeState}
    {reached : List NamedMember × List (EmbeddedTarget × Bool)}
    (promotable : scope.Promotable target)
    (answered : scope.membersOf table target indirect state = (.ok reached, after))
    (finds : after.Finds underlying) :
    reached =
      ((scope.embedding table underlying).membersOf target indirect,
        (scope.embedding table underlying).waysOf target indirect) := by
  cases target with
  | errorInterface =>
      cases answered
      rw [interfaceMembers_eq _ indirect]
      rfl
  | declared name =>
      obtain ⟨decl, declared, notAlias⟩ := promotable
      obtain ⟨found, middle, ran, next⟩ := Resolve.andThen_ok answered
      have remembered := lookup_of_underlyingOf declared notAlias ran
      cases found with
      | interface interface =>
          cases next
          have isInterface := finds name _ remembered
          simp [embedding, Embedding.membersOf, Embedding.waysOf, declarationsOf, openingsOf,
            isInterface, innerDeclarations, innerOpenings, declaredMembers_eq,
            interfaceMembers_eq _ indirect]
      | struct file fields =>
          cases next
          have isStruct := finds name _ remembered
          simp only [embedding, Embedding.membersOf, Embedding.waysOf, declarationsOf, openingsOf,
            isStruct, innerDeclarations, innerOpenings, declaredMembers_eq, List.map_append,
            List.map_flatMap, List.map_filterMap]
          congr 2
          · exact congrArg (fun members => fields.flatMap members)
              (funext fun field => fieldMembers_eq field indirect)
          · exact funext fun field => fieldWay?_eq scope indirect field
      | imported path =>
          cases next
          have isImported := finds name _ remembered
          simp [embedding, Embedding.membersOf, Embedding.waysOf, declarationsOf, openingsOf,
            isImported, innerDeclarations, innerOpenings, declaredMembers_eq]
      | other =>
          cases next
          have isOther := finds name _ remembered
          simp [embedding, Embedding.membersOf, Embedding.waysOf, declarationsOf, openingsOf,
            isOther, innerDeclarations, innerOpenings, declaredMembers_eq]

/-- The members of a level and the ways to the next one, when their resolution answers. -/
theorem levelMembers_eq
    (level : List ReachedType) :
    ∀ {state after : ScopeState} {reached : List NamedMember × List (EmbeddedTarget × Bool)},
      (∀ reached ∈ level, scope.Promotable reached.target) →
      state.Coherent scope →
      scope.levelMembers table level state = (.ok reached, after) →
      after.Finds underlying →
      reached =
        ((scope.embedding table underlying).levelMembers level,
          (scope.embedding table underlying).levelWays level) := by
  induction level with
  | nil =>
      intro state after reached _ _ answered _
      cases answered
      rfl
  | cons head rest inductionHypothesis =>
      intro state after reached promotable coherent answered finds
      obtain ⟨⟨members, ways⟩, middle, ran, answeredRest⟩ := Resolve.andThen_ok answered
      obtain ⟨⟨others, otherWays⟩, last, ranRest, returned⟩ := Resolve.andThen_ok answeredRest
      cases returned
      have middleCoherent :=
        (((hastening scope).membersOf (.stay scope) (hastening_declMeaning scope) table table
          head.target head.indirect head.indirect).steady coherent ran).2
      have steadyRest :=
        (((hastening scope).levelMembers (.stay scope) (hastening_declMeaning scope) table table
          rest rest rfl).steady middleCoherent ranRest).1
      have own := membersOf_eq (promotable head List.mem_cons_self) ran
        (finds.before steadyRest.covers)
      have further := inductionHypothesis
        (fun reached member => promotable reached (List.mem_cons_of_mem head member))
        middleCoherent ranRest finds
      obtain ⟨rfl, rfl⟩ := Prod.mk.inj own
      obtain ⟨rfl, rfl⟩ := Prod.mk.inj further
      rfl

/-- The types of a level are among those that its ways lead to. -/
theorem mem_ways_of_mem_level
    {seen : List EmbeddedTarget}
    {ways : List (EmbeddedTarget × Bool)}
    {reached : ReachedType}
    (member : reached ∈ ReachedType.level seen ways) :
    reached.target ∈ ways.map Prod.fst := by
  obtain ⟨targets, ⟨_, members⟩, shape⟩ := ReachedType.level_eq seen ways
  rw [shape] at member
  obtain ⟨target, targetMember, rfl⟩ := List.mem_map.mp member
  exact ((members target).mp targetMember).2

/-- The promotion one level further, when its resolution answers. -/
theorem promoteLevel_eq
    {state next : PromotionState}
    {before after : ScopeState}
    (promotable : ∀ way ∈ state.ways, scope.Promotable way.1)
    (coherent : before.Coherent scope)
    (answered : scope.promoteLevel table state before = (.ok next, after))
    (finds : after.Finds underlying) :
    next = (scope.embedding table underlying).promoteLevel state := by
  obtain ⟨⟨members, ways⟩, middle, ran, returned⟩ := Resolve.andThen_ok answered
  cases returned
  have levelPromotable : ∀ reached ∈ ReachedType.level state.seen state.ways,
      scope.Promotable reached.target := by
    intro reached member
    obtain ⟨way, wayMember, leads⟩ := List.mem_map.mp (mem_ways_of_mem_level member)
    exact leads ▸ promotable way wayMember
  obtain ⟨rfl, rfl⟩ := Prod.mk.inj (levelMembers_eq _ levelPromotable coherent ran finds)
  rfl

/-- The ways to the next level lead to types that promotion may lead to. -/
theorem promotable_promoteLevel
    (state : PromotionState) :
    ∀ way ∈ ((scope.embedding table underlying).promoteLevel state).ways,
      scope.Promotable way.1 := by
  intro way member
  obtain ⟨reached, _, wayMember⟩ := List.mem_flatMap.mp member
  obtain ⟨opening, openingMember, rfl⟩ := List.mem_map.mp wayMember
  have leads : scope.Promotable opening.1 := promotable_of_mem_openings openingMember
  exact leads

/-- The promotion until no way is left, when its resolution answers. -/
theorem promoteWithin_eq
    (levels : Nat) :
    ∀ {state : PromotionState} {before after : ScopeState} {methods : MethodSet},
      (∀ way ∈ state.ways, scope.Promotable way.1) →
      before.Coherent scope →
      scope.promoteWithin table levels state before = (.ok methods, after) →
      after.Finds underlying →
      methods = ((scope.embedding table underlying).promoteWithin levels state).methods := by
  induction levels with
  | zero =>
      intro state before after methods _ _ answered _
      cases answered
      rfl
  | succ levels inductionHypothesis =>
      intro state before after methods promotable coherent answered finds
      simp only [promoteWithin] at answered
      simp only [Embedding.promoteWithin]
      split at answered
      · next done =>
          cases answered
          rw [if_pos done]
      · next further =>
          obtain ⟨next, middle, ran, answeredNext⟩ := Resolve.andThen_ok answered
          have middleCoherent :=
            (((hastening scope).promoteLevel (.stay scope) (hastening_declMeaning scope) table
              table ⟨rfl, rfl⟩).steady coherent ran).2
          have steadyNext :=
            (((hastening scope).promoteWithin (.stay scope) (hastening_declMeaning scope) table
              table levels ⟨rfl, rfl⟩).steady middleCoherent answeredNext).1
          obtain rfl := promoteLevel_eq promotable coherent ran (finds.before steadyNext.covers)
          rw [if_neg further]
          exact inductionHypothesis (promotable_promoteLevel state) middleCoherent answeredNext
            finds

/-- The number of levels that a promotion in a package is given. -/
def promotionLevels
    (scope : Scope) :
    Nat :=
  scope.decls.length + 3

/-- The method set of a concrete type, when its resolution answers. -/
theorem concreteMethods_eq
    {base : String}
    {pointer : Bool}
    {before after : ScopeState}
    {methods : MethodSet}
    (promotable : scope.Promotable (.declared base))
    (coherent : before.Coherent scope)
    (answered : scope.concreteMethods table base pointer before = (.ok methods, after))
    (finds : after.Finds underlying) :
    methods =
      (scope.embedding table underlying).methodSet scope.promotionLevels
        ⟨.declared base, pointer⟩ := by
  refine promoteWithin_eq _ ?_ coherent answered finds
  intro way member
  obtain rfl := List.mem_singleton.mp member
  exact promotable

/-- The method set of a type of a package is what the promotion finds. -/
theorem selected_methodSet
    {view : View}
    (promotable : scope.Promotable view.start) :
    (scope.embedding table underlying).Selected view
      ((scope.embedding table underlying).methodSet scope.promotionLevels view) := by
  have within (length : Nat) (path : EmbeddingPath)
      (member : path ∈ (scope.embedding table underlying).paths view length) :
      view.endOf path ∈ scope.promotableTypes :=
    (promotable_endOf promotable length path member).mem_promotableTypes
  exact .of_members (Embedding.nodup_methodSet _ _ _) fun method =>
    Embedding.mem_methodSet_iff within (by simp [promotableTypes, promotionLevels]) method

end Run

end Scope

end Implementers
