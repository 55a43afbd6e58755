import Implementers.Proofs.Promotion.Selection
import Mathlib.Data.List.Perm.Subperm

/-!
# The promotion follows the selector rule

Going through the levels one by one, the promotion collects the methods that are selected at each
depth, until every type that embedded fields lead to has been reached.  The result has the methods
of the selector rule and, besides, those that the rule leaves out because the paths to them part
before their last step.
-/

namespace Implementers

open Scope (PromotionState)

namespace MethodSet

/-- A method whose name no method of a set has is put behind all of them. -/
theorem methods_insert
    {set : MethodSet}
    {name : MethodName}
    (signature : Signature)
    (fresh : ∀ method ∈ set.methods, method.name.name ≠ name.name) :
    (set.insert name signature).methods = set.methods ++ [.mk name signature] := by
  have absent : set.contains name = false := by
    simp only [contains, find?, Option.isSome_eq_false_iff, Option.isNone_iff_eq_none,
      List.find?_eq_none]
    intro method member same
    simp only [MethodName.same, Bool.and_eq_true, beq_iff_eq] at same
    exact fresh method member same.1
  simp [insert, absent, methods]

/-- Methods with names that neither a set nor another one of them has are put behind it. -/
theorem methods_foldl_insert
    (added : List Method) :
    ∀ {set : MethodSet},
      (added.map fun method => method.name.name).Nodup →
      (∀ method ∈ added, ∀ earlier ∈ set.methods, earlier.name.name ≠ method.name.name) →
      (added.foldl (fun set method => set.insert method.name method.signature) set).methods =
        set.methods ++ added := by
  induction added with
  | nil =>
      intro set _ _
      simp
  | cons method rest inductionHypothesis =>
      intro set distinct fresh
      obtain ⟨newName, restDistinct⟩ := List.nodup_cons.mp distinct
      have inserted : (set.insert method.name method.signature).methods =
          set.methods ++ [method] := by
        obtain ⟨name, signature⟩ := method
        exact methods_insert signature (fresh _ List.mem_cons_self)
      rw [List.foldl_cons, inductionHypothesis restDistinct, inserted, List.append_assoc]
      · rfl
      · intro other otherMember earlier earlierMember
        rw [inserted, List.mem_append, List.mem_singleton] at earlierMember
        rcases earlierMember with inSet | rfl
        · exact fresh other (List.mem_cons_of_mem _ otherMember) earlier inSet
        · intro same
          exact newName (List.mem_map.mpr ⟨other, otherMember, same.symm⟩)

end MethodSet

namespace Embedding

/-- A name that the members of a level have is declared by a type of the level. -/
theorem mem_memberNames_levelMembers
    (embedding : Embedding)
    (level : List ReachedType)
    (name : String) :
    name ∈ Scope.memberNames (embedding.levelMembers level) ↔
      ∃ reached ∈ level, embedding.declared reached.target name ≠ [] := by
  have named :
      name ∈ Scope.memberNames (embedding.levelMembers level) ↔
        (embedding.levelMembers level).filter (·.1 == name) ≠ [] := by
    rw [Scope.mem_memberNames, Ne, List.filter_eq_nil_iff]
    simp
  rw [named, levelMembers, List.filter_flatMap, Ne, List.flatMap_eq_nil_iff]
  simp only [Scope.weighed_filter, membersOf_filter, Scope.weighed_eq_nil_iff,
    List.map_eq_nil_iff, Classical.not_forall, ne_eq, exists_prop]

/-- A method that a level promotes is promoted under its own name. -/
theorem name_of_promoted?
    {embedding : Embedding}
    {level : List ReachedType}
    (noDuplicates : (level.map ReachedType.target).Nodup)
    {name : String}
    {method : Method}
    (promoted :
      Scope.promoted?
        (((embedding.levelMembers level).filter (·.1 == name)).map Prod.snd) = some method) :
    method.name.name = name := by
  obtain ⟨reached, _, pointerOnly, _, declared, _, _⟩ :=
    (promoted?_levelMembers_iff noDuplicates name method).mp promoted
  have member : Declaration.method method.name method.signature pointerOnly ∈
      embedding.declared reached.target name := by
    rw [declared]
    exact List.mem_singleton_self _
  obtain ⟨⟨key, declaration⟩, inside, same⟩ := List.mem_map.mp member
  obtain ⟨declares, sameKey⟩ := List.mem_filter.mp inside
  obtain rfl : declaration = _ := same
  exact (embedding.named _ _ _ _ _ declares).trans (by simpa using sameKey)

/-- The methods that a level promotes. -/
theorem mem_promotedMethods
    {embedding : Embedding}
    {level : List ReachedType}
    (noDuplicates : (level.map ReachedType.target).Nodup)
    (settled : List String)
    (method : Method) :
    method ∈ Scope.promotedMethods settled (embedding.levelMembers level) ↔
      method.name.name ∉ settled ∧
        Scope.promoted?
          (((embedding.levelMembers level).filter (·.1 == method.name.name)).map
            Prod.snd) = some method := by
  simp only [Scope.promotedMethods, List.mem_filterMap, List.mem_filter, List.contains_eq_mem,
    Bool.not_eq_true', decide_eq_false_iff_not]
  constructor
  · rintro ⟨name, ⟨_, unsettled⟩, promoted⟩
    obtain rfl := name_of_promoted? noDuplicates promoted
    exact ⟨unsettled, promoted⟩
  · rintro ⟨unsettled, promoted⟩
    refine ⟨method.name.name, ⟨?_, unsettled⟩, promoted⟩
    obtain ⟨reached, member, _, _, declared, _, _⟩ :=
      (promoted?_levelMembers_iff noDuplicates _ method).mp promoted
    exact (mem_memberNames_levelMembers embedding level _).mpr
      ⟨reached, member, by simp [declared]⟩

/-- Choosing for each key an entry of that key keeps the keys in order. -/
theorem map_filterMap_sublist
    {choose : String → Option Method}
    (keyed : ∀ name method, choose name = some method → method.name.name = name)
    (names : List String) :
    ((names.filterMap choose).map fun method => method.name.name).Sublist names := by
  induction names with
  | nil => exact .slnil
  | cons name rest inductionHypothesis =>
      cases chosen : choose name with
      | none =>
          rw [List.filterMap_cons_none chosen]
          exact inductionHypothesis.cons name
      | some method =>
          rw [List.filterMap_cons_some chosen, List.map_cons, keyed name method chosen]
          exact inductionHypothesis.cons_cons name

/-- A level promotes at most one method under a name. -/
theorem nodup_promotedMethods
    {embedding : Embedding}
    {level : List ReachedType}
    (noDuplicates : (level.map ReachedType.target).Nodup)
    (settled : List String) :
    ((Scope.promotedMethods settled (embedding.levelMembers level)).map
      fun method => method.name.name).Nodup := by
  refine List.Nodup.sublist
    (map_filterMap_sublist (fun name method promoted => ?_) _)
    ((Scope.nodup_memberNames _).filter _)
  exact name_of_promoted? noDuplicates promoted

/-- How far a promotion has come, in terms of paths. -/
structure Explored
    (embedding : Embedding)
    (view : View)
    (depth : Nat)
    (state : PromotionState) :
    Prop where
  seen :
    ∀ target, target ∈ state.seen ↔
      ∃ shorter < depth, ∃ path ∈ embedding.paths view shorter, view.endOf path = target
  seenNoDuplicates : state.seen.Nodup
  settled :
    ∀ name, name ∈ state.settled ↔ ∃ shorter < depth, embedding.found view shorter name ≠ []
  methods :
    ∀ method, method ∈ state.methods.methods ↔
      ∃ shorter < depth, ∃ last pointerOnly,
        embedding.Selects view shorter method last pointerOnly
  distinct : (state.methods.methods.map fun method => method.name.name).Nodup
  arrives :
    ∃ arrivals, embedding.Arrives view depth state.seen arrivals ∧
      state.ways = waysOfArrivals view arrivals

/-- At first nothing has been reached but the view itself. -/
theorem explored_begin
    (embedding : Embedding)
    (view : View) :
    embedding.Explored view 0 view.begin where
  seen := by simp [View.begin]
  seenNoDuplicates := .nil
  settled := by simp [View.begin]
  methods := by simp [View.begin, MethodSet.empty, MethodSet.methods]
  distinct := .nil
  arrives := ⟨[(none, view.pointer)], arrives_begin embedding view, rfl⟩

/-- A name is not settled as long as it is hidden. -/
theorem Explored.hidden_iff
    {embedding : Embedding}
    {view : View}
    {depth : Nat}
    {state : PromotionState}
    (explored : embedding.Explored view depth state)
    (name : String) :
    name ∉ state.settled ↔ embedding.Hidden view depth name := by
  rw [explored.settled]
  simp [Hidden]

/-- The types of the level that a promotion has come to. -/
theorem Explored.represents
    {embedding : Embedding}
    {view : View}
    {depth : Nat}
    {state : PromotionState}
    (explored : embedding.Explored view depth state) :
    embedding.Represents view depth state.seen (ReachedType.level state.seen state.ways) := by
  obtain ⟨arrivals, arrives, ways⟩ := explored.arrives
  rw [ways]
  exact arrives.represents

section NextLevel

variable
  {embedding : Embedding}
  {view : View}
  {depth : Nat}
  {state : PromotionState}

/-- The types that have been reached after one level more. -/
theorem Explored.mem_seen_next
    (explored : embedding.Explored view depth state)
    (target : EmbeddedTarget) :
    target ∈ (ReachedType.level state.seen state.ways).map ReachedType.target ++ state.seen ↔
      ∃ shorter < depth + 1, ∃ path ∈ embedding.paths view shorter,
        view.endOf path = target := by
  have represents := explored.represents
  rw [List.mem_append, List.mem_map, explored.seen]
  constructor
  · intro either
    rcases either with ⟨reached, member, rfl⟩ | ⟨shorter, isShorter, reaches⟩
    · exact ⟨depth, Nat.lt_succ_self depth, represents.sound reached member⟩
    · exact ⟨shorter, Nat.lt_succ_of_lt isShorter, reaches⟩
  · rintro ⟨shorter, isShorter, path, member, rfl⟩
    by_cases known : view.endOf path ∈ state.seen
    · exact Or.inr ((explored.seen _).mp known)
    · rcases Nat.lt_succ_iff_lt_or_eq.mp isShorter with earlier | rfl
      · exact Or.inr ⟨shorter, earlier, path, member, rfl⟩
      · exact Or.inl (represents.complete path member known)

/-- The names that are settled after one level more. -/
theorem Explored.mem_settled_next
    (explored : embedding.Explored view depth state)
    (name : String) :
    name ∈ (embedding.promoteLevel state).settled ↔
      ∃ shorter < depth + 1, embedding.found view shorter name ≠ [] := by
  have represents := explored.represents
  simp only [Embedding.promoteLevel, List.mem_append, mem_memberNames_levelMembers,
    explored.settled]
  constructor
  · intro either
    rcases either with ⟨reached, member, declares⟩ | ⟨shorter, isShorter, found⟩
    · obtain ⟨path, pathMember, leads⟩ := represents.sound reached member
      exact ⟨depth, Nat.lt_succ_self depth,
        found_ne_nil_iff.mpr ⟨path, pathMember, leads ▸ declares⟩⟩
    · exact ⟨shorter, Nat.lt_succ_of_lt isShorter, found⟩
  · rintro ⟨shorter, isShorter, found⟩
    by_cases hidden : embedding.Hidden view depth name
    · rcases Nat.lt_succ_iff_lt_or_eq.mp isShorter with earlier | rfl
      · exact absurd (hidden shorter earlier) found
      · obtain ⟨path, member, declares⟩ := found_ne_nil_iff.mp found
        obtain ⟨reached, reachedMember, leads⟩ :=
          represents.exists_reached (fun target known => (explored.seen target).mp known) hidden
            member declares
        exact Or.inl ⟨reached, reachedMember, leads ▸ declares⟩
    · rw [← explored.hidden_iff, not_not, explored.settled] at hidden
      exact Or.inr hidden

/-- A level promotes the methods that are selected at its depth. -/
theorem Explored.mem_promotedMethods_iff
    (explored : embedding.Explored view depth state)
    (method : Method) :
    method ∈ Scope.promotedMethods state.settled
        (embedding.levelMembers (ReachedType.level state.seen state.ways)) ↔
      ∃ last pointerOnly, embedding.Selects view depth method last pointerOnly := by
  have represents := explored.represents
  have seenShorter := fun target known => (explored.seen target).mp known
  rw [mem_promotedMethods represents.noDuplicates, explored.hidden_iff,
    promoted?_levelMembers_iff represents.noDuplicates]
  constructor
  · rintro ⟨hidden, promoted⟩
    exact (represents.selects_iff seenShorter hidden).mp promoted
  · rintro ⟨last, pointerOnly, selects⟩
    exact ⟨selects.hidden,
      (represents.selects_iff seenShorter selects.hidden).mpr ⟨last, pointerOnly, selects⟩⟩

/-- A level promotes no method under the name of one that an earlier level has promoted. -/
theorem Explored.apart
    (explored : embedding.Explored view depth state)
    {method earlier : Method}
    (member :
      method ∈ Scope.promotedMethods state.settled
        (embedding.levelMembers (ReachedType.level state.seen state.ways)))
    (earlierMember : earlier ∈ state.methods.methods) :
    earlier.name.name ≠ method.name.name := by
  intro same
  obtain ⟨_, _, selects⟩ := (explored.mem_promotedMethods_iff method).mp member
  obtain ⟨shorter, isShorter, _, _, earlierSelects⟩ := (explored.methods earlier).mp earlierMember
  obtain ⟨path, pathMember, sameLast⟩ := earlierSelects.reached
  have found := earlierSelects.mem_found pathMember sameLast
  rw [same, selects.hidden shorter isShorter] at found
  cases found

/-- The methods after one level more: the earlier ones, and behind them those of the level. -/
theorem Explored.methods_promoteLevel
    (explored : embedding.Explored view depth state) :
    (embedding.promoteLevel state).methods.methods =
      state.methods.methods ++
        Scope.promotedMethods state.settled
          (embedding.levelMembers (ReachedType.level state.seen state.ways)) :=
  MethodSet.methods_foldl_insert _
    (nodup_promotedMethods explored.represents.noDuplicates state.settled)
    fun _ member _ earlierMember => explored.apart member earlierMember

/-- The promotion one level further has come one level further. -/
theorem Explored.promoteLevel
    (explored : embedding.Explored view depth state) :
    embedding.Explored view (depth + 1) (embedding.promoteLevel state) where
  seen := explored.mem_seen_next
  seenNoDuplicates := by
    refine List.nodup_append.mpr
      ⟨explored.represents.noDuplicates, explored.seenNoDuplicates, ?_⟩
    rintro target member _ known rfl
    obtain ⟨reached, reachedMember, rfl⟩ := List.mem_map.mp member
    exact explored.represents.fresh reached reachedMember known
  settled := explored.mem_settled_next
  methods method := by
    rw [explored.methods_promoteLevel, List.mem_append, explored.methods,
      explored.mem_promotedMethods_iff]
    constructor
    · intro either
      rcases either with ⟨shorter, isShorter, selects⟩ | selects
      · exact ⟨shorter, Nat.lt_succ_of_lt isShorter, selects⟩
      · exact ⟨depth, Nat.lt_succ_self depth, selects⟩
    · rintro ⟨shorter, isShorter, selects⟩
      rcases Nat.lt_succ_iff_lt_or_eq.mp isShorter with earlier | rfl
      · exact Or.inl ⟨shorter, earlier, selects⟩
      · exact Or.inr selects
  distinct := by
    rw [explored.methods_promoteLevel, List.map_append]
    refine List.nodup_append.mpr ⟨explored.distinct,
      nodup_promotedMethods explored.represents.noDuplicates state.settled, ?_⟩
    intro name earlierName other otherName same
    obtain ⟨earlier, earlierMember, rfl⟩ := List.mem_map.mp earlierName
    obtain ⟨method, member, rfl⟩ := List.mem_map.mp otherName
    exact explored.apart member earlierMember same
  arrives := by
    refine ⟨_, explored.represents.arrives_next
      (fun target known => (explored.seen target).mp known) ?_, levelWays_eq embedding view _⟩
    intro shorter isShorter path member
    exact (explored.mem_seen_next _).mpr
      ⟨shorter, Nat.lt_succ_of_le isShorter, path, member, rfl⟩

end NextLevel

/-- The promotion until no way is left has come some way. -/
theorem Explored.promoteWithin
    {embedding : Embedding}
    {view : View}
    (levels : Nat) :
    ∀ {depth : Nat} {state : PromotionState}, embedding.Explored view depth state →
      ∃ reached, embedding.Explored view reached (embedding.promoteWithin levels state) := by
  induction levels with
  | zero =>
      intro depth state explored
      exact ⟨depth, explored⟩
  | succ levels inductionHypothesis =>
      intro depth state explored
      simp only [Embedding.promoteWithin]
      split
      · exact ⟨depth, explored⟩
      · exact inductionHypothesis explored.promoteLevel

/-- Every level but the last reaches a type for the first time. -/
theorem promoteWithin_progress
    (embedding : Embedding)
    (levels : Nat) :
    ∀ state : PromotionState,
      (embedding.promoteWithin levels state).ways = [] ∨
        state.seen.length + levels ≤ (embedding.promoteWithin levels state).seen.length + 1 := by
  induction levels with
  | zero =>
      intro state
      exact Or.inr (Nat.le_succ _)
  | succ levels inductionHypothesis =>
      intro state
      simp only [Embedding.promoteWithin]
      split
      · next done => exact Or.inl (List.isEmpty_iff.mp done)
      · rcases inductionHypothesis (embedding.promoteLevel state) with done | progress
        · exact Or.inl done
        · cases level : ReachedType.level state.seen state.ways with
          | nil =>
              -- A level without types opens no way.
              left
              have stuck : (embedding.promoteLevel state).ways = [] := by
                simp [Embedding.promoteLevel, levelWays, level]
              cases levels with
              | zero => exact stuck
              | succ levels =>
                  simp only [Embedding.promoteWithin, stuck, List.isEmpty_nil, ↓reduceIte]
          | cons reached rest =>
              right
              have grown : state.seen.length + 1 ≤
                  (embedding.promoteLevel state).seen.length := by
                simp [Embedding.promoteLevel, level]
              omega

/-- When no way is left, every path ends at a type that has been reached. -/
theorem Explored.endOf_mem_seen
    {embedding : Embedding}
    {view : View}
    {depth : Nat}
    {state : PromotionState}
    (explored : embedding.Explored view depth state)
    (done : state.ways = [])
    (length : Nat) :
    ∀ path ∈ embedding.paths view length, view.endOf path ∈ state.seen := by
  obtain ⟨arrivals, arrives, ways⟩ := explored.arrives
  have noArrivals : arrivals = [] := by
    rw [done] at ways
    simpa [waysOfArrivals] using ways.symm
  have endsAtDepth : ∀ path ∈ embedding.paths view depth, view.endOf path ∈ state.seen := by
    intro path member
    by_contra fresh
    have arrived := arrives.complete path member fresh
    rw [noArrivals] at arrived
    cases arrived
  induction length with
  | zero =>
      intro path member
      cases depth with
      | zero => exact endsAtDepth path member
      | succ depth => exact (explored.seen _).mpr ⟨0, Nat.succ_pos depth, path, member, rfl⟩
  | succ length inductionHypothesis =>
      intro longer member
      obtain ⟨path, pathMember, step, stepMember, rfl⟩ := mem_paths_succ.mp member
      obtain ⟨shorter, isShorter, other, otherMember, leads⟩ :=
        (explored.seen _).mp (inductionHypothesis path pathMember)
      have otherLonger : step :: other ∈ embedding.paths view (shorter + 1) :=
        mem_paths_succ.mpr ⟨other, otherMember, step, leads ▸ stepMember, rfl⟩
      rcases Nat.lt_or_eq_of_le (Nat.succ_le_of_lt isShorter) with earlier | same
      · exact (explored.seen _).mpr ⟨shorter + 1, earlier, _, otherLonger, rfl⟩
      · exact endsAtDepth (step :: other) (same ▸ otherLonger)

/-- The method set that a promotion with enough levels comes to. -/
def methodSet
    (embedding : Embedding)
    (levels : Nat)
    (view : View) :
    MethodSet :=
  (embedding.promoteWithin levels view.begin).methods

/--
The methods that the promotion comes to, where all paths stay within some types and there are more
levels than types: those of the selector rule, and those that it overlooks.
-/
theorem mem_methodSet_iff
    {embedding : Embedding}
    {view : View}
    {levels : Nat}
    {types : List EmbeddedTarget}
    (within : ∀ length, ∀ path ∈ embedding.paths view length, view.endOf path ∈ types)
    (enough : types.length + 1 < levels)
    (method : Method) :
    method ∈ (embedding.methodSet levels view).methods ↔
      embedding.Promotes view method ∨ embedding.Overlooked view method := by
  obtain ⟨depth, explored⟩ := (explored_begin embedding view).promoteWithin levels
  have reachedWithin :
      (embedding.promoteWithin levels view.begin).seen.length ≤ types.length := by
    refine (explored.seenNoDuplicates.subperm ?_).length_le
    intro target known
    obtain ⟨shorter, _, path, member, rfl⟩ := (explored.seen target).mp known
    exact within shorter path member
  have done : (embedding.promoteWithin levels view.begin).ways = [] := by
    rcases embedding.promoteWithin_progress levels view.begin with done | progress
    · exact done
    · omega
  rw [methodSet, explored.methods, ← exists_selects_iff]
  constructor
  · rintro ⟨shorter, _, selects⟩
    exact ⟨shorter, selects⟩
  · rintro ⟨length, last, pointerOnly, selects⟩
    refine ⟨length, ?_, last, pointerOnly, selects⟩
    by_contra late
    obtain ⟨path, member, sameLast⟩ := selects.reached
    obtain ⟨shorter, isShorter, other, otherMember, leads⟩ :=
      (explored.seen _).mp (explored.endOf_mem_seen done length path member)
    have declares := (mem_found.mp (selects.mem_found member sameLast)).2
    rw [← leads] at declares
    have hidden := selects.hidden shorter (by omega)
    exact List.not_mem_nil (hidden ▸ mem_found.mpr ⟨otherMember, declares⟩)

/-- The promotion comes to at most one method of a name. -/
theorem nodup_methodSet
    (embedding : Embedding)
    (levels : Nat)
    (view : View) :
    ((embedding.methodSet levels view).methods.map fun method => method.name.name).Nodup := by
  obtain ⟨_, explored⟩ := (explored_begin embedding view).promoteWithin levels
  exact explored.distinct

end Embedding

end Implementers
