import Implementers.Proofs.Promotion.Declared
import Mathlib.Data.List.Perm.Subperm

/-!
# The loops through aliases and embedded fields

Three loops go on without a bound of their own: the one through the aliases of a receiver, the one
through the aliases of an embedded field and the promotion level by level.  Each of them comes to an
end from wherever it begins, and what it comes to is the answer of the bounded function.
-/

namespace Implementers

open Scope (PromotionState)

/-- Turns taken until one of them gives a result; their number has no bound. -/
inductive ComesTo
    (turn : σ → σ ⊕ ρ) :
    σ → ρ → Prop where
  | done
      {state : σ}
      {result : ρ}
      (ends : turn state = .inr result) :
      ComesTo turn state result
  | again
      {state next : σ}
      {result : ρ}
      (continues : turn state = .inl next)
      (later : ComesTo turn next result) :
      ComesTo turn state result

namespace Scope

/-! ## Aliases of receivers -/

/--
One turn of the loop through the aliases of a receiver, from the number of aliases so far and the
name reached.
-/
def receiverTurn
    (scope : Scope) :
    Nat × String → (Nat × String) ⊕ Option (Option TypeDecl)
  | (hops, name) =>
      match scope.lookup? name with
      | none => .inr (some none)
      | some decl =>
          if decl.spec.isAlias then
            match decl.spec.type with
            | .name _ none target _ _ =>
                if hops + 1 < aliasLimit then
                  match target with
                  | none => .inr (some none)
                  | some target => .inl (hops + 1, target.text)
                else
                  .inr none
            | _ => .inr none
          else
            .inr (some (some decl))

/-- A turn that asks for another one has counted an alias within the limit. -/
theorem receiverTurn_continues
    {scope : Scope}
    {hops : Nat}
    {name : String}
    {next : Nat × String}
    (continues : scope.receiverTurn (hops, name) = .inl next) :
    next.1 = hops + 1 ∧ hops + 1 < aliasLimit := by
  simp only [receiverTurn] at continues
  split at continues
  · cases continues
  · split at continues
    · split at continues
      · split at continues
        · next within =>
            split at continues
            · cases continues
            · cases continues
              exact ⟨rfl, within⟩
        · cases continues
      · cases continues
    · cases continues

/-- Following the aliases of a receiver is taking a turn and going on from there. -/
theorem throughAliases?_eq_turn
    (scope : Scope)
    {hops left : Nat}
    (name : String)
    (shared : hops + (left + 1) = aliasLimit) :
    scope.throughAliases? (left + 1) name =
      match scope.receiverTurn (hops, name) with
      | .inl next => scope.throughAliases? left next.2
      | .inr result => result := by
  cases found : scope.lookup? name with
  | none => simp only [throughAliases?, receiverTurn, found]
  | some decl =>
      cases isAlias : decl.spec.isAlias with
      | false => simp [throughAliases?, receiverTurn, found, isAlias]
      | true =>
          cases written : decl.spec.type with
          | name _ qualifier target _ _ =>
              rcases qualifier with _ | _
              · by_cases spent : left = 0
                · have beyond : ¬hops + 1 < aliasLimit := by omega
                  simp [throughAliases?, receiverTurn, found, isAlias, written, spent, beyond]
                · have within : hops + 1 < aliasLimit := by omega
                  cases target <;>
                    simp [throughAliases?, receiverTurn, found, isAlias, written, spent, within]
              · simp [throughAliases?, receiverTurn, found, isAlias, written]
          | _ => simp [throughAliases?, receiverTurn, found, isAlias, written]

/-- The loop through the aliases of a receiver ends, whatever number of aliases is left to it. -/
theorem comesTo_throughAliases?
    (scope : Scope)
    (left : Nat) :
    ∀ {hops : Nat} (name : String), hops + left = aliasLimit → hops < aliasLimit →
      ComesTo scope.receiverTurn (hops, name) (scope.throughAliases? left name) := by
  induction left with
  | zero =>
      intro hops name shared within
      exact absurd shared (Nat.ne_of_lt within)
  | succ left inductionHypothesis =>
      intro hops name shared _
      rw [throughAliases?_eq_turn scope name shared]
      cases turn : scope.receiverTurn (hops, name) with
      | inr result => exact .done turn
      | inl next =>
          obtain ⟨counted, within⟩ := receiverTurn_continues turn
          exact .again turn (inductionHypothesis next.2 (by omega) (counted ▸ within))

/-! ## Aliases of embedded fields -/

/--
One turn of the loop through the aliases of an embedded field, from the names visited so far and the
name reached.
-/
def embeddedTurn
    (scope : Scope) :
    List String × String → (List String × String) ⊕ Option EmbeddedTarget
  | (visited, name) =>
      if visited.contains name then
        .inr none
      else
        match scope.lookup? name with
        | some decl =>
            if decl.spec.isAlias then
              match decl.spec.type with
              | .name _ none (some target) _ _ => .inl (name :: visited, target.text)
              | _ => .inr none
            else
              .inr (some (.declared decl.name))
        | none => .inr (if name == "error" then some .errorInterface else none)

/-- A turn that asks for another one has visited one declared name more. -/
theorem embeddedTurn_continues
    {scope : Scope}
    {visited : List String}
    {name : String}
    {next : List String × String}
    (continues : scope.embeddedTurn (visited, name) = .inl next) :
    next.1 = name :: visited ∧ name ∉ visited ∧ name ∈ scope.decls.map TypeDecl.name := by
  simp only [embeddedTurn] at continues
  split at continues
  · cases continues
  · next unmet =>
      split at continues
      · next decl found =>
          split at continues
          · split at continues
            · cases continues
              exact ⟨rfl, by simpa using unmet,
                List.mem_map.mpr ⟨decl, List.mem_of_find?_eq_some found, lookup?_name found⟩⟩
            · cases continues
          · cases continues
      · cases continues

/-- Following the aliases of an embedded field is taking a turn and going on from there. -/
theorem embeddedThroughAliases?_eq_turn
    (scope : Scope)
    (hops : Nat)
    (visited : List String)
    (name : String) :
    scope.embeddedThroughAliases? (hops + 1) visited name =
      match scope.embeddedTurn (visited, name) with
      | .inl next => scope.embeddedThroughAliases? hops next.1 next.2
      | .inr result => result := by
  cases met : visited.contains name with
  | true => simp only [embeddedThroughAliases?, embeddedTurn, met, ↓reduceIte]
  | false =>
      cases found : scope.lookup? name with
      | none => simp [embeddedThroughAliases?, embeddedTurn, met, found, -List.contains_eq_mem]
      | some decl =>
          cases isAlias : decl.spec.isAlias with
          | false =>
              simp [embeddedThroughAliases?, embeddedTurn, met, found, isAlias,
                -List.contains_eq_mem]
          | true =>
              simp only [embeddedThroughAliases?, embeddedTurn, met, found, isAlias,
                Bool.false_eq_true, ↓reduceIte]
              cases decl.spec.type with
              | name _ qualifier target _ _ =>
                  rcases qualifier with _ | _
                  · cases target <;> rfl
                  · rfl
              | _ => rfl

/-- The loop through the aliases of an embedded field visits each declared name once at most. -/
theorem comesTo_embeddedThroughAliases?
    (scope : Scope)
    (hops : Nat) :
    ∀ {visited : List String} (name : String),
      visited.Nodup →
      visited ⊆ scope.decls.map TypeDecl.name →
      scope.decls.length < visited.length + hops →
      ComesTo scope.embeddedTurn (visited, name)
        (scope.embeddedThroughAliases? hops visited name) := by
  induction hops with
  | zero =>
      intro visited name distinct declared enough
      have fewer := (distinct.subperm declared).length_le
      rw [List.length_map] at fewer
      exact absurd enough (Nat.not_lt.mpr fewer)
  | succ hops inductionHypothesis =>
      intro visited name distinct declared enough
      rw [embeddedThroughAliases?_eq_turn]
      cases turn : scope.embeddedTurn (visited, name) with
      | inr result => exact .done turn
      | inl next =>
          obtain ⟨visits, unmet, isDeclared⟩ := embeddedTurn_continues turn
          refine .again turn (inductionHypothesis next.2 ?_ ?_ ?_)
          · exact visits ▸ List.nodup_cons.mpr ⟨unmet, distinct⟩
          · exact visits ▸ List.cons_subset.mpr ⟨isDeclared, declared⟩
          · rw [visits, List.length_cons]
            omega

/-! ## Levels of the promotion -/

/-- One turn of the promotion, from how far it has come and what the resolution remembers. -/
def promotionTurn
    (scope : Scope)
    (table : MethodTable) :
    PromotionState × ScopeState →
      (PromotionState × ScopeState) ⊕ (Except UnitError MethodSet × ScopeState)
  | (state, memory) =>
      if state.ways.isEmpty then
        .inr (.ok state.methods, memory)
      else
        match scope.promoteLevel table state memory with
        | (.ok next, after) => .inl (next, after)
        | (.error error, after) => .inr (.error error, after)

section Levels

variable
  {scope : Scope}
  {table : MethodTable}

/-- The embedded fields of a reached type lead to types that promotion may lead to. -/
theorem promotable_of_membersOf
    {target : EmbeddedTarget}
    {indirect : Bool}
    {state after : ScopeState}
    {members : List NamedMember}
    {ways : List (EmbeddedTarget × Bool)}
    (answered : scope.membersOf table target indirect state = (.ok (members, ways), after)) :
    ∀ way ∈ ways, scope.Promotable way.1 := by
  cases target with
  | errorInterface =>
      cases answered
      exact fun _ none => absurd none List.not_mem_nil
  | declared name =>
      obtain ⟨underlying, middle, _, next⟩ := Resolve.andThen_ok answered
      cases underlying with
      | struct _ fields =>
          cases next
          intro way member
          obtain ⟨field, _, leads⟩ := List.mem_filterMap.mp member
          exact promotable_of_fieldWay? leads
      | _ =>
          cases next
          exact fun _ none => absurd none List.not_mem_nil

/-- The ways behind a level lead to types that promotion may lead to. -/
theorem promotable_of_levelMembers
    (level : List ReachedType) :
    ∀ {state after : ScopeState} {members : List NamedMember}
      {ways : List (EmbeddedTarget × Bool)},
      scope.levelMembers table level state = (.ok (members, ways), after) →
      ∀ way ∈ ways, scope.Promotable way.1 := by
  induction level with
  | nil =>
      intro state after members ways answered
      cases answered
      exact fun _ none => absurd none List.not_mem_nil
  | cons reached rest inductionHypothesis =>
      intro state after members ways answered
      obtain ⟨⟨_, own⟩, middle, ran, next⟩ := Resolve.andThen_ok answered
      obtain ⟨⟨_, others⟩, last, ranRest, returned⟩ := Resolve.andThen_ok next
      cases returned
      intro way member
      rcases List.mem_append.mp member with ofOwn | ofOthers
      · exact promotable_of_membersOf ran way ofOwn
      · exact inductionHypothesis ranRest way ofOthers

/-- How far a promotion has come within a list of types. -/
structure Within
    (types : List EmbeddedTarget)
    (state : PromotionState) :
    Prop where
  distinct : state.seen.Nodup
  seen : state.seen ⊆ types
  ways : ∀ way ∈ state.ways, way.1 ∈ types

/-- One level further a promotion has seen more types, unless it has no way left. -/
theorem Within.promoteLevel
    {types : List EmbeddedTarget}
    {state next : PromotionState}
    {memory after : ScopeState}
    (within : Within types state)
    (known : scope.promotableTypes ⊆ types)
    (answered : scope.promoteLevel table state memory = (.ok next, after)) :
    Within types next ∧ (next.ways = [] ∨ state.seen.length < next.seen.length) := by
  obtain ⟨⟨members, ways⟩, middle, ran, returned⟩ := Resolve.andThen_ok answered
  cases returned
  obtain ⟨targets, ⟨noDuplicates, lists⟩, shape⟩ := ReachedType.level_eq state.seen state.ways
  have sameTargets :
      (ReachedType.level state.seen state.ways).map ReachedType.target = targets := by
    simp [shape, List.map_map, Function.comp_def]
  refine ⟨⟨?_, ?_, ?_⟩, ?_⟩
  · rw [sameTargets]
    refine List.nodup_append.mpr ⟨noDuplicates, within.distinct, ?_⟩
    rintro target fresh _ old rfl
    exact ((lists target).mp fresh).1 old
  · rw [sameTargets]
    refine List.append_subset.mpr ⟨fun target fresh => ?_, within.seen⟩
    obtain ⟨way, wayMember, rfl⟩ := List.mem_map.mp ((lists target).mp fresh).2
    exact within.ways way wayMember
  · exact fun way member =>
      known (promotable_of_levelMembers _ ran way member).mem_promotableTypes
  · cases targets with
    | nil =>
        rw [shape] at ran
        cases ran
        exact Or.inl rfl
    | cons _ _ =>
        refine Or.inr ?_
        rw [sameTargets, List.length_append, List.length_cons]
        omega

/-- A turn that asks for another one has gone through a level. -/
theorem promotionTurn_continues
    {state : PromotionState}
    {memory : ScopeState}
    {next : PromotionState × ScopeState}
    (continues : scope.promotionTurn table (state, memory) = .inl next) :
    state.ways ≠ [] ∧ scope.promoteLevel table state memory = (.ok next.1, next.2) := by
  simp only [promotionTurn] at continues
  split at continues
  · cases continues
  · next some =>
      split at continues
      · next ran =>
          cases continues
          exact ⟨by simpa using some, ran⟩
      · cases continues

/-- Promoting is taking a turn and going on from there. -/
theorem promoteWithin_eq_turn
    (levels : Nat)
    (state : PromotionState)
    (memory : ScopeState) :
    scope.promoteWithin table (levels + 1) state memory =
      match scope.promotionTurn table (state, memory) with
      | .inl next => scope.promoteWithin table levels next.1 next.2
      | .inr result => result := by
  simp only [promoteWithin, promotionTurn]
  cases state.ways.isEmpty with
  | true => rfl
  | false =>
      simp only [Bind.bind, Resolve.andThen, Bool.false_eq_true, ↓reduceIte]
      cases scope.promoteLevel table state memory with
      | mk outcome after => cases outcome <;> rfl

/-- A promotion ends once it has seen all types that it can reach. -/
theorem comesTo_promoteWithin
    {types : List EmbeddedTarget}
    (known : scope.promotableTypes ⊆ types)
    (levels : Nat) :
    ∀ {state : PromotionState} (memory : ScopeState),
      Within types state →
      state.ways = [] ∨ types.length < state.seen.length + levels →
      ComesTo (scope.promotionTurn table) (state, memory)
        (scope.promoteWithin table levels state memory) := by
  induction levels with
  | zero =>
      rintro state memory within (noWays | enough)
      · exact .done (by simp only [promotionTurn, noWays, List.isEmpty_nil]; rfl)
      · have fewer := (within.distinct.subperm within.seen).length_le
        exact absurd enough (Nat.not_lt.mpr fewer)
  | succ levels inductionHypothesis =>
      intro state memory within enough
      rw [promoteWithin_eq_turn]
      cases turn : scope.promotionTurn table (state, memory) with
      | inr result => exact .done turn
      | inl next =>
          obtain ⟨some, ran⟩ := promotionTurn_continues turn
          obtain ⟨withinNext, further⟩ := within.promoteLevel known ran
          have left : types.length < state.seen.length + (levels + 1) := enough.resolve_left some
          refine .again turn (inductionHypothesis next.2 withinNext ?_)
          exact further.imp_right fun more => by omega

/-- The promotion of every type ends. -/
theorem comesTo_concreteMethods
    (base : String)
    (pointer : Bool)
    (memory : ScopeState) :
    ComesTo (scope.promotionTurn table)
      ({ seen := [], settled := [], methods := .empty, ways := [(.declared base, pointer)] },
        memory)
      (scope.concreteMethods table base pointer memory) := by
  apply comesTo_promoteWithin (List.subset_cons_self (.declared base) scope.promotableTypes)
  · refine ⟨.nil, List.nil_subset _, fun way member => ?_⟩
    obtain rfl := List.mem_singleton.mp member
    exact List.mem_cons_self
  · exact Or.inr (by simp [promotableTypes])

end Levels

end Scope

end Implementers
