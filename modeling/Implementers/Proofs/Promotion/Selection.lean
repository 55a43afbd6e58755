import Implementers.Proofs.Promotion.Levels

/-!
# Promotion level by level

The promotion joins ways by the types that they lead to.  What it has come to at a level is stated
in terms of paths: which types and names shorter paths lead to, which methods are selected at lesser
depths, and which last steps the paths of the level have.  One level further keeps this, and so does
the whole promotion, which ends because every level but the last reaches a type for the first time.
-/

namespace Implementers

open Scope (PromotionState)

namespace Embedding

/-- The members of a reached type. -/
def membersOf
    (embedding : Embedding)
    (target : EmbeddedTarget)
    (indirect : Bool) :
    List NamedMember :=
  (embedding.declarations target).map fun declaration =>
    (declaration.1, declaration.2.member indirect)

/-- The ways that a reached type opens. -/
def waysOf
    (embedding : Embedding)
    (target : EmbeddedTarget)
    (indirect : Bool) :
    List (EmbeddedTarget × Bool) :=
  (embedding.openings target).map fun opening => (opening.1, indirect || opening.2)

/-- The members of a level. -/
def levelMembers
    (embedding : Embedding)
    (level : List ReachedType) :
    List NamedMember :=
  level.flatMap fun reached =>
    Scope.weighed reached.count (embedding.membersOf reached.target reached.indirect)

/-- The ways from a level to the next one. -/
def levelWays
    (embedding : Embedding)
    (level : List ReachedType) :
    List (EmbeddedTarget × Bool) :=
  level.flatMap fun reached => embedding.waysOf reached.target reached.indirect

/-- The promotion one level further. -/
def promoteLevel
    (embedding : Embedding)
    (state : PromotionState) :
    PromotionState :=
  let level := ReachedType.level state.seen state.ways
  let members := embedding.levelMembers level
  { seen := level.map ReachedType.target ++ state.seen
    settled := Scope.memberNames members ++ state.settled
    methods :=
      (Scope.promotedMethods state.settled members).foldl
        (fun set method => set.insert method.name method.signature) state.methods
    ways := embedding.levelWays level }

/-- The promotion until no way is left, at most a given number of levels further. -/
def promoteWithin
    (embedding : Embedding) :
    Nat → PromotionState → PromotionState
  | 0, state => state
  | levels + 1, state =>
      if state.ways.isEmpty then
        state
      else
        promoteWithin embedding levels (embedding.promoteLevel state)

end Embedding

/-- Where the promotion of a view begins. -/
def View.begin
    (view : View) :
    PromotionState :=
  ⟨[], [], .empty, [(view.start, view.pointer)]⟩

namespace Embedding

/-- The members of one name are what the type declares under it. -/
theorem membersOf_filter
    (embedding : Embedding)
    (target : EmbeddedTarget)
    (indirect : Bool)
    (name : String) :
    (embedding.membersOf target indirect).filter (·.1 == name) =
      (embedding.declared target name).map fun declaration =>
        (name, declaration.member indirect) := by
  simp only [membersOf, declared, List.filter_map, List.map_map]
  apply List.map_congr_left
  intro declaration member
  have sameName : declaration.1 = name := by simpa using (List.mem_filter.mp member).2
  simp [sameName]

/-! ## Ways and paths -/

/--
The ways to a level come from the last steps of the paths of its depth, one way from each last step
to a type that no shorter path leads to; a way is through a pointer when a path to it is.
-/
structure Arrives
    (embedding : Embedding)
    (view : View)
    (depth : Nat)
    (seen : List EmbeddedTarget)
    (arrivals : List (Option EmbeddingStep × Bool)) :
    Prop where
  noDuplicates : (arrivals.map Prod.fst).Nodup
  sound :
    ∀ arrival ∈ arrivals, ∃ path ∈ embedding.paths view depth, path.head? = arrival.1
  pointer :
    ∀ arrival ∈ arrivals,
      (arrival.2 = true ↔
        ∃ path ∈ embedding.paths view depth,
          path.head? = arrival.1 ∧ view.crosses path = true)
  complete :
    ∀ path ∈ embedding.paths view depth, view.endOf path ∉ seen →
      path.head? ∈ arrivals.map Prod.fst

/-- The ways that arrivals stand for. -/
def waysOfArrivals
    (view : View)
    (arrivals : List (Option EmbeddingStep × Bool)) :
    List (EmbeddedTarget × Bool) :=
  arrivals.map fun arrival => (view.behind arrival.1, arrival.2)

/-- The types of a level in terms of the paths of its depth. -/
structure Represents
    (embedding : Embedding)
    (view : View)
    (depth : Nat)
    (seen : List EmbeddedTarget)
    (level : List ReachedType) :
    Prop where
  noDuplicates : (level.map ReachedType.target).Nodup
  fresh : ∀ reached ∈ level, reached.target ∉ seen
  sound :
    ∀ reached ∈ level, ∃ path ∈ embedding.paths view depth, view.endOf path = reached.target
  complete :
    ∀ path ∈ embedding.paths view depth, view.endOf path ∉ seen →
      ∃ reached ∈ level, reached.target = view.endOf path
  once :
    ∀ reached ∈ level,
      (reached.count ≤ 1 ↔
        ∃ last, ∀ path ∈ embedding.paths view depth,
          view.endOf path = reached.target → path.head? = last)
  indirect :
    ∀ reached ∈ level,
      (reached.indirect = true ↔
        ∃ path ∈ embedding.paths view depth,
          view.endOf path = reached.target ∧ view.crosses path = true)

/-- A list without duplicates has at most one entry when all its entries are the same. -/
theorem length_le_one_iff
    {entries : List (Option α)}
    (noDuplicates : entries.Nodup) :
    entries.length ≤ 1 ↔ ∃ only, ∀ entry ∈ entries, entry = only := by
  match entries, noDuplicates with
  | [], _ => simp
  | [entry], _ => simp
  | first :: second :: rest, noDuplicates =>
      simp only [List.length_cons]
      constructor
      · intro short
        omega
      · rintro ⟨only, same⟩
        have equal : first = second :=
          (same first (by simp)).trans (same second (by simp)).symm
        simp [equal] at noDuplicates

/-- The ways to a type come from the arrivals at it. -/
theorem waysOfArrivals_filter
    (view : View)
    (arrivals : List (Option EmbeddingStep × Bool))
    (target : EmbeddedTarget) :
    (waysOfArrivals view arrivals).filter (·.1 == target) =
      waysOfArrivals view (arrivals.filter fun arrival => view.behind arrival.1 == target) := by
  simp only [waysOfArrivals, List.filter_map]
  rfl

/-- A type that ways lead to is behind some arrival. -/
theorem mem_targets_waysOfArrivals
    {view : View}
    {arrivals : List (Option EmbeddingStep × Bool)}
    {target : EmbeddedTarget} :
    target ∈ (waysOfArrivals view arrivals).map Prod.fst ↔
      ∃ arrival ∈ arrivals, view.behind arrival.1 = target := by
  simp [waysOfArrivals]

/-- An arrival of a path at a type that no shorter path leads to. -/
theorem Arrives.exists_arrival
    {embedding : Embedding}
    {view : View}
    {depth : Nat}
    {seen : List EmbeddedTarget}
    {arrivals : List (Option EmbeddingStep × Bool)}
    (arrives : embedding.Arrives view depth seen arrivals)
    {path : EmbeddingPath}
    (member : path ∈ embedding.paths view depth)
    (fresh : view.endOf path ∉ seen) :
    ∃ arrival ∈ arrivals, arrival.1 = path.head? ∧ view.behind arrival.1 = view.endOf path := by
  obtain ⟨arrival, arrivalMember, sameLast⟩ :=
    List.mem_map.mp (arrives.complete path member fresh)
  exact ⟨arrival, arrivalMember, sameLast, by rw [sameLast]; rfl⟩

/-- The arrivals at a type that no shorter path leads to are the last steps of its paths. -/
theorem Arrives.mem_lastSteps
    {embedding : Embedding}
    {view : View}
    {depth : Nat}
    {seen : List EmbeddedTarget}
    {arrivals : List (Option EmbeddingStep × Bool)}
    (arrives : embedding.Arrives view depth seen arrivals)
    {target : EmbeddedTarget}
    (fresh : target ∉ seen)
    (last : Option EmbeddingStep) :
    last ∈ (arrivals.filter fun arrival => view.behind arrival.1 == target).map Prod.fst ↔
      ∃ path ∈ embedding.paths view depth, view.endOf path = target ∧ path.head? = last := by
  simp only [List.mem_map, List.mem_filter, beq_iff_eq]
  constructor
  · rintro ⟨arrival, ⟨member, leads⟩, rfl⟩
    obtain ⟨path, pathMember, sameLast⟩ := arrives.sound arrival member
    exact ⟨path, pathMember, by rw [View.endOf, sameLast, leads], sameLast⟩
  · rintro ⟨path, pathMember, rfl, rfl⟩
    obtain ⟨arrival, member, sameLast, leads⟩ := arrives.exists_arrival pathMember fresh
    exact ⟨arrival, ⟨member, leads⟩, sameLast⟩

/-- A type is counted once when all paths to it have the same last step. -/
theorem Arrives.count_le_one_iff
    {embedding : Embedding}
    {view : View}
    {depth : Nat}
    {seen : List EmbeddedTarget}
    {arrivals : List (Option EmbeddingStep × Bool)}
    (arrives : embedding.Arrives view depth seen arrivals)
    {target : EmbeddedTarget}
    (fresh : target ∉ seen) :
    (ReachedType.ofWays (waysOfArrivals view arrivals) target).count ≤ 1 ↔
      ∃ last, ∀ path ∈ embedding.paths view depth,
        view.endOf path = target → path.head? = last := by
  have noDuplicates :
      ((arrivals.filter fun arrival => view.behind arrival.1 == target).map Prod.fst).Nodup :=
    arrives.noDuplicates.sublist (List.filter_sublist.map Prod.fst)
  have count :
      (ReachedType.ofWays (waysOfArrivals view arrivals) target).count =
        ((arrivals.filter fun arrival => view.behind arrival.1 == target).map
          Prod.fst).length := by
    rw [ReachedType.ofWays, waysOfArrivals_filter, waysOfArrivals, List.length_map,
      List.length_map]
  rw [count, length_le_one_iff noDuplicates]
  apply exists_congr
  intro only
  constructor
  · intro same path pathMember leads
    exact same _ ((arrives.mem_lastSteps fresh _).mpr ⟨path, pathMember, leads, rfl⟩)
  · intro same last lastMember
    obtain ⟨path, pathMember, leads, rfl⟩ := (arrives.mem_lastSteps fresh last).mp lastMember
    exact same path pathMember leads

/-- A type is reached through a pointer when some path to it crosses one. -/
theorem Arrives.indirect_iff
    {embedding : Embedding}
    {view : View}
    {depth : Nat}
    {seen : List EmbeddedTarget}
    {arrivals : List (Option EmbeddingStep × Bool)}
    (arrives : embedding.Arrives view depth seen arrivals)
    {target : EmbeddedTarget}
    (fresh : target ∉ seen) :
    (ReachedType.ofWays (waysOfArrivals view arrivals) target).indirect = true ↔
      ∃ path ∈ embedding.paths view depth,
        view.endOf path = target ∧ view.crosses path = true := by
  rw [ReachedType.ofWays, waysOfArrivals_filter]
  simp only [waysOfArrivals, List.any_map, List.any_eq_true, Function.comp_apply,
    List.mem_filter, beq_iff_eq]
  constructor
  · rintro ⟨arrival, ⟨member, leads⟩, pointer⟩
    obtain ⟨path, pathMember, sameLast, crosses⟩ := (arrives.pointer arrival member).mp pointer
    exact ⟨path, pathMember, by rw [View.endOf, sameLast, leads], crosses⟩
  · rintro ⟨path, pathMember, rfl, crosses⟩
    obtain ⟨arrival, member, sameLast, leads⟩ := arrives.exists_arrival pathMember fresh
    exact ⟨arrival, ⟨member, leads⟩,
      (arrives.pointer arrival member).mpr ⟨path, pathMember, sameLast.symm, crosses⟩⟩

/-- The types that the arrivals of a level lead to represent the paths of its depth. -/
theorem Arrives.represents
    {embedding : Embedding}
    {view : View}
    {depth : Nat}
    {seen : List EmbeddedTarget}
    {arrivals : List (Option EmbeddingStep × Bool)}
    (arrives : embedding.Arrives view depth seen arrivals) :
    embedding.Represents view depth seen
      (ReachedType.level seen (waysOfArrivals view arrivals)) := by
  obtain ⟨targets, ⟨noDuplicates, members⟩, shape⟩ :=
    ReachedType.level_eq seen (waysOfArrivals view arrivals)
  rw [shape]
  constructor
  · simpa [Function.comp_def] using noDuplicates
  · intro reached member
    obtain ⟨target, targetMember, rfl⟩ := List.mem_map.mp member
    exact ((members target).mp targetMember).1
  · intro reached member
    obtain ⟨target, targetMember, rfl⟩ := List.mem_map.mp member
    obtain ⟨arrival, arrivalMember, leads⟩ :=
      mem_targets_waysOfArrivals.mp ((members target).mp targetMember).2
    obtain ⟨path, pathMember, sameLast⟩ := arrives.sound arrival arrivalMember
    exact ⟨path, pathMember, by rw [View.endOf, sameLast, leads]; rfl⟩
  · intro path pathMember fresh
    obtain ⟨arrival, arrivalMember, _, leads⟩ := arrives.exists_arrival pathMember fresh
    have targetMember : view.endOf path ∈ targets :=
      (members _).mpr ⟨fresh, mem_targets_waysOfArrivals.mpr ⟨arrival, arrivalMember, leads⟩⟩
    exact ⟨_, List.mem_map_of_mem targetMember, rfl⟩
  · intro reached member
    obtain ⟨target, targetMember, rfl⟩ := List.mem_map.mp member
    exact arrives.count_le_one_iff ((members target).mp targetMember).1
  · intro reached member
    obtain ⟨target, targetMember, rfl⟩ := List.mem_map.mp member
    exact arrives.indirect_iff ((members target).mp targetMember).1

/-- At first the view itself is reached. -/
theorem arrives_begin
    (embedding : Embedding)
    (view : View) :
    embedding.Arrives view 0 [] [(none, view.pointer)] := by
  constructor
  · simp
  · intro arrival member
    obtain rfl := List.mem_singleton.mp member
    exact ⟨[], by simp [paths], rfl⟩
  · intro arrival member
    obtain rfl := List.mem_singleton.mp member
    simp [paths, View.crosses]
  · intro path member _
    have empty : path = [] := by simpa [paths] using member
    simp [empty]

/-- The arrivals at the next level. -/
def nextArrivals
    (embedding : Embedding)
    (level : List ReachedType) :
    List (Option EmbeddingStep × Bool) :=
  level.flatMap fun reached =>
    (embedding.steps reached.target).map fun step => (some step, reached.indirect || step.pointer)

/-- The ways to the next level are those of its arrivals. -/
theorem levelWays_eq
    (embedding : Embedding)
    (view : View)
    (level : List ReachedType) :
    embedding.levelWays level = waysOfArrivals view (embedding.nextArrivals level) := by
  simp only [levelWays, waysOfArrivals, nextArrivals, List.map_flatMap]
  refine congrArg (fun part => level.flatMap part) (funext fun reached => ?_)
  simp only [waysOf, steps, List.map_map, View.behind, Function.comp_def]
  conv_lhs => rw [← List.zipIdx_map_fst 0 (embedding.openings reached.target)]
  rw [List.map_map]
  rfl

/-- An arrival at the next level: a step from a type of the level. -/
theorem mem_nextArrivals
    {embedding : Embedding}
    {level : List ReachedType}
    {arrival : Option EmbeddingStep × Bool} :
    arrival ∈ embedding.nextArrivals level ↔
      ∃ reached ∈ level, ∃ step ∈ embedding.steps reached.target,
        arrival = (some step, reached.indirect || step.pointer) := by
  simp only [nextArrivals, List.mem_flatMap, List.mem_map, eq_comm]

/-- No step from a level occurs twice among the arrivals at the next one. -/
theorem nodup_nextArrivals
    (embedding : Embedding)
    {level : List ReachedType}
    (noDuplicates : (level.map ReachedType.target).Nodup) :
    ((embedding.nextArrivals level).map Prod.fst).Nodup := by
  have lastSteps :
      (embedding.nextArrivals level).map Prod.fst =
        (level.map ReachedType.target).flatMap fun target =>
          (embedding.steps target).map some := by
    simp only [nextArrivals, List.map_flatMap, List.map_map, List.flatMap_map]
    rfl
  rw [lastSteps, List.nodup_flatMap]
  refine ⟨fun target _ => (embedding.nodup_steps target).map fun _ _ => Option.some.inj, ?_⟩
  refine noDuplicates.imp fun {first second} different => ?_
  intro last inFirst inSecond
  obtain ⟨step, stepInFirst, rfl⟩ := List.mem_map.mp inFirst
  obtain ⟨other, otherInSecond, same⟩ := List.mem_map.mp inSecond
  obtain rfl := Option.some.inj same
  exact different
    ((source_of_mem_steps stepInFirst).symm.trans (source_of_mem_steps otherInSecond))

/-- The steps from a level arrive at the next one. -/
theorem Represents.arrives_next
    {embedding : Embedding}
    {view : View}
    {depth : Nat}
    {seen : List EmbeddedTarget}
    {level : List ReachedType}
    (represents : embedding.Represents view depth seen level)
    (seenShorter :
      ∀ target ∈ seen, ∃ shorter < depth, ∃ path ∈ embedding.paths view shorter,
        view.endOf path = target)
    (shorterSeen :
      ∀ shorter ≤ depth, ∀ path ∈ embedding.paths view shorter,
        view.endOf path ∈ level.map ReachedType.target ++ seen) :
    embedding.Arrives view (depth + 1) (level.map ReachedType.target ++ seen)
      (embedding.nextArrivals level) := by
  constructor
  · exact embedding.nodup_nextArrivals represents.noDuplicates
  · intro arrival member
    obtain ⟨reached, reachedMember, step, stepMember, rfl⟩ := mem_nextArrivals.mp member
    obtain ⟨path, pathMember, leads⟩ := represents.sound reached reachedMember
    exact ⟨step :: path,
      mem_paths_succ.mpr ⟨path, pathMember, step, leads ▸ stepMember, rfl⟩, rfl⟩
  · intro arrival member
    obtain ⟨reached, reachedMember, step, stepMember, rfl⟩ := mem_nextArrivals.mp member
    rw [Bool.or_eq_true, represents.indirect reached reachedMember]
    constructor
    · intro pointer
      have crossing : ∃ path ∈ embedding.paths view depth,
          view.endOf path = reached.target ∧ view.crosses (step :: path) = true := by
        rcases pointer with ⟨path, pathMember, leads, crosses⟩ | pointer
        · refine ⟨path, pathMember, leads, ?_⟩
          simp only [View.crosses, List.any_cons, Bool.or_eq_true] at crosses ⊢
          exact crosses.imp_right Or.inr
        · obtain ⟨path, pathMember, leads⟩ := represents.sound reached reachedMember
          exact ⟨path, pathMember, leads, by simp [View.crosses, pointer]⟩
      obtain ⟨path, pathMember, leads, crosses⟩ := crossing
      exact ⟨step :: path,
        mem_paths_succ.mpr ⟨path, pathMember, step, leads ▸ stepMember, rfl⟩, rfl, crosses⟩
    · rintro ⟨longer, longerMember, sameLast, crosses⟩
      obtain ⟨path, pathMember, other, otherMember, rfl⟩ := mem_paths_succ.mp longerMember
      obtain rfl : other = step := Option.some.inj sameLast
      have leads : view.endOf path = reached.target :=
        (source_of_mem_steps otherMember).symm.trans (source_of_mem_steps stepMember)
      simp only [View.crosses, List.any_cons, Bool.or_eq_true] at crosses
      rcases crosses with viewPointer | stepPointer | pathPointer
      · exact Or.inl ⟨path, pathMember, leads, by simp [View.crosses, viewPointer]⟩
      · exact Or.inr stepPointer
      · exact Or.inl ⟨path, pathMember, leads, by simp [View.crosses, pathPointer]⟩
  · intro longer longerMember fresh
    obtain ⟨path, pathMember, step, stepMember, rfl⟩ := mem_paths_succ.mp longerMember
    -- A shorter path to where the step starts would make a shorter path to where it leads.
    have pathFresh : view.endOf path ∉ seen := by
      intro known
      obtain ⟨shorter, isShorter, other, otherMember, leads⟩ := seenShorter _ known
      refine fresh (shorterSeen (shorter + 1) isShorter (step :: other) ?_)
      exact mem_paths_succ.mpr ⟨other, otherMember, step, leads ▸ stepMember, rfl⟩
    obtain ⟨reached, reachedMember, leads⟩ := represents.complete path pathMember pathFresh
    exact List.mem_map.mpr ⟨_,
      mem_nextArrivals.mpr ⟨reached, reachedMember, step, leads ▸ stepMember, rfl⟩, rfl⟩

/-! ## The methods of a level -/

/--
A method that the promotion selects at a depth: all paths of that depth to declarations of its name
have one last step, and it is the only declaration behind that step.
-/
structure Selects
    (embedding : Embedding)
    (view : View)
    (depth : Nat)
    (method : Method)
    (last : Option EmbeddingStep)
    (pointerOnly : Bool) :
    Prop where
  hidden : embedding.Hidden view depth method.name.name
  reached : ∃ path ∈ embedding.paths view depth, path.head? = last
  declared :
    embedding.declared (view.behind last) method.name.name =
      [.method method.name method.signature pointerOnly]
  only :
    ∀ path ∈ embedding.paths view depth,
      embedding.declared (view.endOf path) method.name.name ≠ [] → path.head? = last
  callable :
    pointerOnly = true →
      ∃ path ∈ embedding.paths view depth, path.head? = last ∧ view.crosses path = true

/-- A method is promoted when it is the only member of its name, and can be called. -/
theorem promoted?_eq_some_iff
    {members : List Member}
    {method : Method} :
    Scope.promoted? members = some method ↔
      members = [.method method.name method.signature true] := by
  obtain ⟨methodName, signature⟩ := method
  unfold Scope.promoted?
  split
  · simp [Method.name, Method.signature]
  · next other =>
      simp only [reduceCtorEq, false_iff]
      rintro rfl
      exact other _ _ rfl

/-- The members that one type of a level contributes under a name, with the name. -/
def contributed
    (embedding : Embedding)
    (name : String)
    (reached : ReachedType) :
    List (String × Member) :=
  Scope.weighed reached.count
    ((embedding.declared reached.target name).map fun declaration =>
      (name, declaration.member reached.indirect))

/-- The members of a level under a name are those that its types contribute. -/
theorem filter_levelMembers
    (embedding : Embedding)
    (level : List ReachedType)
    (name : String) :
    (embedding.levelMembers level).filter (·.1 == name) =
      level.flatMap (embedding.contributed name) := by
  simp only [levelMembers, List.filter_flatMap, Scope.weighed_filter, membersOf_filter]
  rfl

theorem contributed_ne_nil_iff
    {embedding : Embedding}
    {name : String}
    {reached : ReachedType} :
    embedding.contributed name reached ≠ [] ↔ embedding.declared reached.target name ≠ [] := by
  rw [Ne, contributed, Scope.weighed_eq_nil_iff, List.map_eq_nil_iff]

/-- When a type of a level contributes nothing but one method that can be called. -/
theorem map_contributed_eq_singleton_iff
    {embedding : Embedding}
    {name : String}
    {reached : ReachedType}
    {method : Method} :
    (embedding.contributed name reached).map Prod.snd =
        [.method method.name method.signature true] ↔
      ∃ pointerOnly,
        reached.count ≤ 1 ∧
        embedding.declared reached.target name =
          [.method method.name method.signature pointerOnly] ∧
        (pointerOnly = true → reached.indirect = true) := by
  constructor
  · intro single
    obtain ⟨⟨key, member⟩, shape, rfl⟩ := List.map_eq_singleton_iff.mp single
    obtain ⟨once, members⟩ := (Scope.weighed_eq_singleton_iff _ _ _).mp shape
    obtain ⟨declaration, declared, sameMember⟩ := List.map_eq_singleton_iff.mp members
    cases declaration with
    | field => cases sameMember
    | method declaredName signature pointerOnly =>
        simp only [Declaration.member, Prod.mk.injEq, Member.method.injEq] at sameMember
        obtain ⟨-, rfl, rfl, callable⟩ := sameMember
        refine ⟨pointerOnly, once, declared, ?_⟩
        rintro rfl
        simpa using callable
  · rintro ⟨pointerOnly, once, declared, callable⟩
    rw [contributed, Scope.weighed, if_pos once, declared]
    cases pointerOnly with
    | false => simp [Declaration.member]
    | true => simp [Declaration.member, callable rfl]

/-- The method that a level promotes under a name, in terms of the types of the level. -/
theorem promoted?_levelMembers_iff
    {embedding : Embedding}
    {level : List ReachedType}
    (noDuplicates : (level.map ReachedType.target).Nodup)
    (name : String)
    (method : Method) :
    Scope.promoted?
        (((embedding.levelMembers level).filter (·.1 == name)).map Prod.snd) = some method ↔
      ∃ reached ∈ level, ∃ pointerOnly,
        reached.count ≤ 1 ∧
        embedding.declared reached.target name =
          [.method method.name method.signature pointerOnly] ∧
        (pointerOnly = true → reached.indirect = true) ∧
        ∀ other ∈ level, embedding.declared other.target name ≠ [] → other = reached := by
  rw [promoted?_eq_some_iff, filter_levelMembers]
  constructor
  · intro single
    obtain ⟨entry, shape, sameMember⟩ := List.map_eq_singleton_iff.mp single
    obtain ⟨reached, member, own, only⟩ := flatMap_eq_singleton shape
    obtain ⟨pointerOnly, once, declared, callable⟩ :=
      map_contributed_eq_singleton_iff.mp (List.map_eq_singleton_iff.mpr ⟨entry, own, sameMember⟩)
    exact ⟨reached, member, pointerOnly, once, declared, callable, fun other otherMember declares =>
      only other otherMember (contributed_ne_nil_iff.mpr declares)⟩
  · rintro ⟨reached, member, pointerOnly, once, declared, callable, only⟩
    have levelNoDuplicates : level.Nodup := List.Nodup.of_map ReachedType.target noDuplicates
    rw [flatMap_eq_of_only levelNoDuplicates member fun other otherMember contributes =>
      only other otherMember (contributed_ne_nil_iff.mp contributes)]
    exact map_contributed_eq_singleton_iff.mpr ⟨pointerOnly, once, declared, callable⟩

/-- A path to a declaration of a hidden name ends at a type of the level. -/
theorem Represents.exists_reached
    {embedding : Embedding}
    {view : View}
    {depth : Nat}
    {seen : List EmbeddedTarget}
    {level : List ReachedType}
    (represents : embedding.Represents view depth seen level)
    (seenShorter :
      ∀ target ∈ seen, ∃ shorter < depth, ∃ path ∈ embedding.paths view shorter,
        view.endOf path = target)
    {name : String}
    (hidden : embedding.Hidden view depth name)
    {path : EmbeddingPath}
    (member : path ∈ embedding.paths view depth)
    (declares : embedding.declared (view.endOf path) name ≠ []) :
    ∃ reached ∈ level, reached.target = view.endOf path := by
  apply represents.complete path member
  intro known
  obtain ⟨shorter, isShorter, other, otherMember, leads⟩ := seenShorter _ known
  exact found_ne_nil_iff.mpr ⟨other, otherMember, leads ▸ declares⟩ (hidden shorter isShorter)

/-- A type of a level is known by its target. -/
theorem Represents.eq_of_target
    {embedding : Embedding}
    {view : View}
    {depth : Nat}
    {seen : List EmbeddedTarget}
    {level : List ReachedType}
    (represents : embedding.Represents view depth seen level)
    {first second : ReachedType}
    (firstMember : first ∈ level)
    (secondMember : second ∈ level)
    (same : first.target = second.target) :
    first = second :=
  List.inj_on_of_nodup_map represents.noDuplicates firstMember secondMember same

/-- The method that a level promotes under a hidden name is the one that is selected there. -/
theorem Represents.selects_iff
    {embedding : Embedding}
    {view : View}
    {depth : Nat}
    {seen : List EmbeddedTarget}
    {level : List ReachedType}
    (represents : embedding.Represents view depth seen level)
    (seenShorter :
      ∀ target ∈ seen, ∃ shorter < depth, ∃ path ∈ embedding.paths view shorter,
        view.endOf path = target)
    {method : Method}
    (hidden : embedding.Hidden view depth method.name.name) :
    (∃ reached ∈ level, ∃ pointerOnly,
      reached.count ≤ 1 ∧
      embedding.declared reached.target method.name.name =
        [.method method.name method.signature pointerOnly] ∧
      (pointerOnly = true → reached.indirect = true) ∧
      ∀ other ∈ level,
        embedding.declared other.target method.name.name ≠ [] → other = reached) ↔
      ∃ last pointerOnly, embedding.Selects view depth method last pointerOnly := by
  constructor
  · rintro ⟨reached, member, pointerOnly, once, declared, callable, only⟩
    obtain ⟨last, sameLast⟩ := (represents.once reached member).mp once
    obtain ⟨path, pathMember, leads⟩ := represents.sound reached member
    have behindLast : view.behind last = reached.target := by
      rw [← sameLast path pathMember leads, ← leads]
      rfl
    refine ⟨last, pointerOnly, hidden, ⟨path, pathMember, sameLast path pathMember leads⟩,
      behindLast ▸ declared, ?_, ?_⟩
    · intro other otherMember declares
      obtain ⟨otherReached, reachedMember, otherLeads⟩ :=
        represents.exists_reached seenShorter hidden otherMember declares
      have same := only otherReached reachedMember (otherLeads ▸ declares)
      exact sameLast other otherMember (by rw [← otherLeads, same])
    · intro needsPointer
      obtain ⟨crossing, crossingMember, crossingLeads, crosses⟩ :=
        (represents.indirect reached member).mp (callable needsPointer)
      exact ⟨crossing, crossingMember, sameLast crossing crossingMember crossingLeads, crosses⟩
  · rintro ⟨last, pointerOnly, selects⟩
    obtain ⟨path, pathMember, sameLast⟩ := selects.reached
    have endOfLast {other : EmbeddingPath} (otherLast : other.head? = last) :
        view.endOf other = view.behind last := by
      rw [View.endOf, otherLast]
    have declaresBehind : embedding.declared (view.behind last) method.name.name ≠ [] := by
      simp [selects.declared]
    obtain ⟨reached, member, leads⟩ :=
      represents.exists_reached seenShorter hidden pathMember (endOfLast sameLast ▸ declaresBehind)
    rw [endOfLast sameLast] at leads
    refine ⟨reached, member, pointerOnly, ?_, leads ▸ selects.declared, ?_, ?_⟩
    · refine (represents.once reached member).mpr ⟨last, ?_⟩
      intro other otherMember otherLeads
      exact selects.only other otherMember (by rw [otherLeads, leads]; exact declaresBehind)
    · intro needsPointer
      obtain ⟨crossing, crossingMember, crossingLast, crosses⟩ := selects.callable needsPointer
      exact (represents.indirect reached member).mpr
        ⟨crossing, crossingMember, (endOfLast crossingLast).trans leads.symm, crosses⟩
    · intro other otherMember declares
      obtain ⟨otherPath, otherPathMember, otherLeads⟩ := represents.sound other otherMember
      have otherLast := selects.only otherPath otherPathMember (otherLeads ▸ declares)
      apply represents.eq_of_target otherMember member
      rw [leads, ← endOfLast otherLast, otherLeads]

/-- What is found under the name of a selected method: the method, behind the one last step. -/
theorem Selects.of_mem_found
    {embedding : Embedding}
    {view : View}
    {depth : Nat}
    {method : Method}
    {last : Option EmbeddingStep}
    {pointerOnly : Bool}
    (selects : embedding.Selects view depth method last pointerOnly)
    {path : EmbeddingPath}
    {declaration : Declaration}
    (member : (path, declaration) ∈ embedding.found view depth method.name.name) :
    path.head? = last ∧ declaration = .method method.name method.signature pointerOnly := by
  obtain ⟨pathMember, declared⟩ := mem_found.mp member
  have sameLast := selects.only path pathMember (List.ne_nil_of_mem declared)
  rw [View.endOf, sameLast, selects.declared] at declared
  exact ⟨sameLast, List.mem_singleton.mp declared⟩

/-- A path with the last step of a selected method leads to the method. -/
theorem Selects.mem_found
    {embedding : Embedding}
    {view : View}
    {depth : Nat}
    {method : Method}
    {last : Option EmbeddingStep}
    {pointerOnly : Bool}
    (selects : embedding.Selects view depth method last pointerOnly)
    {path : EmbeddingPath}
    (member : path ∈ embedding.paths view depth)
    (sameLast : path.head? = last) :
    (path, .method method.name method.signature pointerOnly) ∈
      embedding.found view depth method.name.name := by
  refine Embedding.mem_found.mpr ⟨member, ?_⟩
  rw [View.endOf, sameLast, selects.declared]
  exact List.mem_singleton_self _

/-- A selected method to which one path leads is promoted. -/
theorem Selects.promotes
    {embedding : Embedding}
    {view : View}
    {depth : Nat}
    {method : Method}
    {last : Option EmbeddingStep}
    {pointerOnly : Bool}
    (selects : embedding.Selects view depth method last pointerOnly)
    (notSeveral : ¬ 2 ≤ (embedding.found view depth method.name.name).length) :
    embedding.Promotes view method := by
  obtain ⟨path, pathMember, sameLast⟩ := selects.reached
  have pathFound := selects.mem_found pathMember sameLast
  have single : embedding.found view depth method.name.name =
      [(path, .method method.name method.signature pointerOnly)] := by
    obtain ⟨pair, shape⟩ : ∃ pair, embedding.found view depth method.name.name = [pair] := by
      rw [← List.length_eq_one_iff]
      have positive := List.length_pos_of_mem pathFound
      omega
    rw [shape, List.mem_singleton] at pathFound
    rw [shape, pathFound]
  refine ⟨depth, path, pointerOnly, selects.hidden, single, ?_⟩
  intro needsPointer
  obtain ⟨crossing, member, crossingLast, crosses⟩ := selects.callable needsPointer
  have crossingFound := selects.mem_found member crossingLast
  rw [single, List.mem_singleton] at crossingFound
  rw [← (Prod.mk.inj crossingFound).1]
  exact crosses

/-- Several paths to one declaration have a last step, since only one path is empty. -/
theorem Selects.exists_step
    {embedding : Embedding}
    {view : View}
    {depth : Nat}
    {method : Method}
    {last : Option EmbeddingStep}
    {pointerOnly : Bool}
    (selects : embedding.Selects view depth method last pointerOnly)
    (several : 2 ≤ (embedding.found view depth method.name.name).length) :
    ∃ step, last = some step := by
  cases last with
  | some step => exact ⟨step, rfl⟩
  | none =>
      obtain ⟨path, pathMember, sameLast⟩ := selects.reached
      have empty : path = [] := List.head?_eq_none_iff.mp sameLast
      have depthZero : depth = 0 := by
        rw [← length_of_mem_paths pathMember, empty]
        rfl
      subst depthZero
      have alone : embedding.declared view.start method.name.name =
          [.method method.name method.signature pointerOnly] := selects.declared
      simp [found, paths, View.endOf, View.behind, alone] at several

/-- A selected method to which several paths lead is overlooked. -/
theorem Selects.overlooked
    {embedding : Embedding}
    {view : View}
    {depth : Nat}
    {method : Method}
    {last : Option EmbeddingStep}
    {pointerOnly : Bool}
    (selects : embedding.Selects view depth method last pointerOnly)
    (several : 2 ≤ (embedding.found view depth method.name.name).length) :
    embedding.Overlooked view method := by
  obtain ⟨step, rfl⟩ := selects.exists_step several
  refine ⟨depth, step, pointerOnly, selects.hidden, several, ?_, ?_, ?_⟩
  · have declared : embedding.declared step.target method.name.name = _ := selects.declared
    simp [declared]
  · intro pair member
    exact selects.of_mem_found member
  · intro needsPointer
    obtain ⟨crossing, member, crossingLast, crosses⟩ := selects.callable needsPointer
    exact ⟨_, selects.mem_found member crossingLast, crosses⟩

/-- What the selector rule promotes is selected. -/
theorem Promotes.exists_selects
    {embedding : Embedding}
    {view : View}
    {method : Method}
    (promotes : embedding.Promotes view method) :
    ∃ depth last pointerOnly, embedding.Selects view depth method last pointerOnly := by
  obtain ⟨depth, path, pointerOnly, hidden, single, callable⟩ := promotes
  obtain ⟨chosen, chosenMember, shape, only⟩ := flatMap_eq_singleton single
  obtain ⟨declaration, declared, samePair⟩ := List.map_eq_singleton_iff.mp shape
  obtain ⟨rfl, rfl⟩ := Prod.mk.inj samePair
  refine ⟨depth, chosen.head?, pointerOnly, hidden, ⟨chosen, chosenMember, rfl⟩, declared, ?_,
    fun needsPointer => ⟨chosen, chosenMember, rfl, callable needsPointer⟩⟩
  intro other otherMember declares
  rw [only other otherMember (by simpa using declares)]

/-- What the selector rule misses because all paths have one last step is selected. -/
theorem Overlooked.exists_selects
    {embedding : Embedding}
    {view : View}
    {method : Method}
    (overlooked : embedding.Overlooked view method) :
    ∃ depth last pointerOnly, embedding.Selects view depth method last pointerOnly := by
  obtain ⟨depth, step, pointerOnly, hidden, several, once, same, callable⟩ := overlooked
  obtain ⟨⟨path, declaration⟩, member⟩ := List.exists_mem_of_length_pos
    (Nat.lt_of_lt_of_le Nat.zero_lt_two several)
  obtain ⟨sameLast, sameDeclaration⟩ := same _ member
  obtain ⟨pathMember, declared⟩ := mem_found.mp member
  have alone : embedding.declared step.target method.name.name =
      [.method method.name method.signature pointerOnly] := by
    obtain ⟨only, shape⟩ := List.length_eq_one_iff.mp once
    rw [View.endOf, sameLast, View.behind, shape, List.mem_singleton] at declared
    rw [shape, ← declared]
    exact congrArg (fun declaration => [declaration]) sameDeclaration
  refine ⟨depth, some step, pointerOnly, hidden, ⟨path, pathMember, sameLast⟩, alone, ?_, ?_⟩
  · intro other otherMember declares
    obtain ⟨declaration, inside⟩ := List.exists_mem_of_ne_nil _ declares
    exact (same _ (mem_found.mpr ⟨otherMember, inside⟩)).1
  · intro needsPointer
    obtain ⟨⟨crossing, _⟩, crossingFound, crosses⟩ := callable needsPointer
    exact ⟨crossing, (mem_found.mp crossingFound).1, (same _ crossingFound).1, crosses⟩

/-- What the promotion selects is what the selector rule promotes, and what it overlooks. -/
theorem exists_selects_iff
    {embedding : Embedding}
    {view : View}
    {method : Method} :
    (∃ depth last pointerOnly, embedding.Selects view depth method last pointerOnly) ↔
      embedding.Promotes view method ∨ embedding.Overlooked view method := by
  constructor
  · rintro ⟨depth, last, pointerOnly, selects⟩
    by_cases several : 2 ≤ (embedding.found view depth method.name.name).length
    · exact Or.inr (selects.overlooked several)
    · exact Or.inl (selects.promotes several)
  · intro either
    cases either with
    | inl promotes => exact promotes.exists_selects
    | inr overlooked => exact overlooked.exists_selects

end Embedding

end Implementers
