import Implementers.Proofs.Promotion.Embedding
import Mathlib.Data.List.Nodup
import Mathlib.Data.List.Induction

/-!
# The types of a level

The ways to one level are joined by the types that they lead to.  A type of the level stands for all
ways to it: it counts them, and it is reached through a pointer when one of them is.
-/

namespace Implementers

namespace ReachedType

/-- What ways say about one type. -/
def ofWays
    (ways : List (EmbeddedTarget × Bool))
    (reached : EmbeddedTarget) :
    ReachedType :=
  ⟨reached, (ways.filter (·.1 == reached)).any Prod.snd, (ways.filter (·.1 == reached)).length⟩

@[simp] theorem ofWays_target
    (ways : List (EmbeddedTarget × Bool))
    (reached : EmbeddedTarget) :
    (ofWays ways reached).target = reached :=
  rfl

/-- A way to another type says nothing about a type. -/
theorem ofWays_append_other
    (ways : List (EmbeddedTarget × Bool))
    {way : EmbeddedTarget × Bool}
    {reached : EmbeddedTarget}
    (different : way.1 ≠ reached) :
    ofWays (ways ++ [way]) reached = ofWays ways reached := by
  simp [ofWays, List.filter_append, different]

/-- One way more to a type. -/
theorem ofWays_append_self
    (ways : List (EmbeddedTarget × Bool))
    (way : EmbeddedTarget × Bool) :
    ofWays (ways ++ [way]) way.1 =
      ⟨way.1, (ofWays ways way.1).indirect || way.2, (ofWays ways way.1).count + 1⟩ := by
  simp [ofWays, List.filter_append]

/-- Adding a way to a type of a level. -/
theorem add_map_ofWays
    (ways : List (EmbeddedTarget × Bool))
    (way : EmbeddedTarget × Bool)
    {targets : List EmbeddedTarget}
    (noDuplicates : targets.Nodup) :
    add way.1 way.2 (targets.map (ofWays ways)) =
      if way.1 ∈ targets then
        targets.map (ofWays (ways ++ [way]))
      else
        targets.map (ofWays (ways ++ [way])) ++ [⟨way.1, way.2, 1⟩] := by
  induction targets with
  | nil => simp [add]
  | cons reached rest inductionHypothesis =>
      obtain ⟨fresh, restNoDuplicates⟩ := List.nodup_cons.mp noDuplicates
      have inRest := inductionHypothesis restNoDuplicates
      by_cases same : reached = way.1
      · subst same
        have unchanged : rest.map (ofWays (ways ++ [way])) = rest.map (ofWays ways) := by
          apply List.map_congr_left
          intro other member
          apply ofWays_append_other ways
          rintro rfl
          exact fresh member
        simp [add, ofWays_append_self, unchanged]
      · have different : way.1 ≠ reached := fun equal => same equal.symm
        simp only [List.map_cons, add, ofWays_target, if_neg same, inRest, List.mem_cons, different,
          false_or, ofWays_append_other ways different]
        split <;> simp

/-- The first way to a type. -/
theorem ofWays_append_fresh
    {ways : List (EmbeddedTarget × Bool)}
    {way : EmbeddedTarget × Bool}
    (fresh : way.1 ∉ ways.map Prod.fst) :
    ofWays (ways ++ [way]) way.1 = ⟨way.1, way.2, 1⟩ := by
  have none : ways.filter (·.1 == way.1) = [] := by
    rw [List.filter_eq_nil_iff]
    intro other member same
    exact fresh (List.mem_map.mpr ⟨other, member, by simpa using same⟩)
  rw [ofWays_append_self]
  simp [ofWays, none]

/-- Targets that list, each of them once, what ways lead to and was not reached before. -/
structure Lists
    (seen : List EmbeddedTarget)
    (ways : List (EmbeddedTarget × Bool))
    (targets : List EmbeddedTarget) :
    Prop where
  noDuplicates : targets.Nodup
  members : ∀ reached, reached ∈ targets ↔ reached ∉ seen ∧ reached ∈ ways.map Prod.fst

/-- A way to a type that was reached before, or that is listed, adds no type. -/
theorem Lists.stays
    {seen : List EmbeddedTarget}
    {ways : List (EmbeddedTarget × Bool)}
    {targets : List EmbeddedTarget}
    (lists : Lists seen ways targets)
    {way : EmbeddedTarget × Bool}
    (known : way.1 ∉ seen → way.1 ∈ targets) :
    Lists seen (ways ++ [way]) targets := by
  refine ⟨lists.noDuplicates, fun reached => ?_⟩
  rw [lists.members]
  simp only [List.map_append, List.map_cons, List.map_nil, List.mem_append, List.mem_singleton]
  constructor
  · rintro ⟨fresh, member⟩
    exact ⟨fresh, Or.inl member⟩
  · rintro ⟨fresh, member | rfl⟩
    · exact ⟨fresh, member⟩
    · exact (lists.members _).mp (known fresh)

/-- A way to another type lists it as well. -/
theorem Lists.grows
    {seen : List EmbeddedTarget}
    {ways : List (EmbeddedTarget × Bool)}
    {targets : List EmbeddedTarget}
    (lists : Lists seen ways targets)
    {way : EmbeddedTarget × Bool}
    (fresh : way.1 ∉ seen)
    (unlisted : way.1 ∉ targets) :
    Lists seen (ways ++ [way]) (targets ++ [way.1]) := by
  refine ⟨?_, fun reached => ?_⟩
  · refine List.nodup_append.mpr ⟨lists.noDuplicates, List.nodup_singleton _, ?_⟩
    intro reached member other otherMember equal
    rw [List.mem_singleton] at otherMember
    subst otherMember
    subst equal
    exact unlisted member
  · simp only [List.mem_append, List.mem_singleton, lists.members, List.map_append, List.map_cons,
      List.map_nil]
    constructor
    · intro either
      rcases either with ⟨notSeen, member⟩ | rfl
      · exact ⟨notSeen, Or.inl member⟩
      · exact ⟨fresh, Or.inr rfl⟩
    · rintro ⟨notSeen, member | rfl⟩
      · exact Or.inl ⟨notSeen, member⟩
      · exact Or.inr rfl

/-- A level has one entry for each type that was not reached before, with all ways to it. -/
theorem level_eq
    (seen : List EmbeddedTarget)
    (ways : List (EmbeddedTarget × Bool)) :
    ∃ targets, Lists seen ways targets ∧ level seen ways = targets.map (ofWays ways) := by
  induction ways using List.reverseRecOn with
  | nil => exact ⟨[], ⟨.nil, by simp⟩, rfl⟩
  | append_singleton ways way inductionHypothesis =>
      obtain ⟨targets, lists, shape⟩ := inductionHypothesis
      have step : level seen (ways ++ [way]) =
          if seen.contains way.1 then level seen ways else add way.1 way.2 (level seen ways) := by
        simp [level, List.foldl_append]
      by_cases old : way.1 ∈ seen
      · refine ⟨targets, lists.stays fun fresh => absurd old fresh, ?_⟩
        rw [step, if_pos (by simpa using old), shape]
        apply List.map_congr_left
        intro reached member
        refine (ofWays_append_other ways ?_).symm
        rintro rfl
        exact ((lists.members _).mp member).1 old
      · rw [if_neg (by simpa using old), shape, add_map_ofWays ways way lists.noDuplicates] at step
        by_cases known : way.1 ∈ targets
        · exact ⟨targets, lists.stays fun _ => known, by rw [step, if_pos known]⟩
        · have first : way.1 ∉ ways.map Prod.fst :=
            fun member => known ((lists.members _).mpr ⟨old, member⟩)
          refine ⟨targets ++ [way.1], lists.grows old known, ?_⟩
          rw [step, if_neg known, List.map_append, List.map_cons, List.map_nil,
            ofWays_append_fresh first]

end ReachedType

/-- A list joined from parts is a single entry when one part is, and the others are empty. -/
theorem flatMap_eq_singleton
    {parts : List α}
    {part : α → List β}
    {entry : β}
    (single : parts.flatMap part = [entry]) :
    ∃ chosen ∈ parts, part chosen = [entry] ∧
      ∀ other ∈ parts, part other ≠ [] → other = chosen := by
  induction parts with
  | nil => cases single
  | cons head rest inductionHypothesis =>
      rw [List.flatMap_cons] at single
      rcases List.append_eq_singleton_iff.mp single with ⟨empty, restSingle⟩ | ⟨headSingle, empty⟩
      · obtain ⟨chosen, member, shape, only⟩ := inductionHypothesis restSingle
        refine ⟨chosen, List.mem_cons_of_mem head member, shape, ?_⟩
        intro other otherMember nonempty
        rcases List.mem_cons.mp otherMember with rfl | inRest
        · exact absurd empty nonempty
        · exact only other inRest nonempty
      · refine ⟨head, List.mem_cons_self, headSingle, ?_⟩
        intro other otherMember nonempty
        rcases List.mem_cons.mp otherMember with rfl | inRest
        · rfl
        · exact absurd (List.flatMap_eq_nil_iff.mp empty other inRest) nonempty

/-- Parts without duplicates, of which only one is not empty, are joined to that one. -/
theorem flatMap_eq_of_only
    {parts : List α}
    {part : α → List β}
    {chosen : α}
    (noDuplicates : parts.Nodup)
    (member : chosen ∈ parts)
    (only : ∀ other ∈ parts, part other ≠ [] → other = chosen) :
    parts.flatMap part = part chosen := by
  induction parts with
  | nil => cases member
  | cons head rest inductionHypothesis =>
      obtain ⟨fresh, restNoDuplicates⟩ := List.nodup_cons.mp noDuplicates
      have onlyRest (other : α) (inRest : other ∈ rest) :=
        only other (List.mem_cons_of_mem head inRest)
      rw [List.flatMap_cons]
      rcases List.mem_cons.mp member with rfl | inRest
      · have empty : rest.flatMap part = [] := by
          rw [List.flatMap_eq_nil_iff]
          intro other otherMember
          by_contra nonempty
          exact fresh (onlyRest other otherMember nonempty ▸ otherMember)
        rw [empty, List.append_nil]
      · have empty : part head = [] := by
          by_contra nonempty
          exact fresh (only head List.mem_cons_self nonempty ▸ inRest)
        rw [empty, List.nil_append]
        exact inductionHypothesis restNoDuplicates inRest onlyRest

namespace Scope

/-- Weighing members one by one. -/
theorem weighed_filter
    (count : Nat)
    (members : List NamedMember)
    (name : String) :
    (weighed count members).filter (·.1 == name) =
      weighed count (members.filter (·.1 == name)) := by
  unfold weighed
  split
  · rfl
  · induction members with
    | nil => rfl
    | cons member rest inductionHypothesis =>
        simp only [List.flatMap_cons, List.filter_append, inductionHypothesis]
        by_cases same : member.1 = name <;> simp [same]

/-- Weighing leaves out no member and adds none without one of its name. -/
theorem weighed_eq_nil_iff
    (count : Nat)
    (members : List NamedMember) :
    weighed count members = [] ↔ members = [] := by
  unfold weighed
  split
  · exact Iff.rfl
  · rw [List.flatMap_eq_nil_iff]
    constructor
    · intro empty
      rw [List.eq_nil_iff_forall_not_mem]
      intro member inside
      cases empty member inside
    · rintro rfl member inside
      cases inside

/-- A single member remains only of a single member that is reached once. -/
theorem weighed_eq_singleton_iff
    (count : Nat)
    (members : List NamedMember)
    (member : NamedMember) :
    weighed count members = [member] ↔ count ≤ 1 ∧ members = [member] := by
  unfold weighed
  split
  · next light => simp [light]
  · next heavy =>
      simp only [heavy, false_and, iff_false]
      intro single
      cases members with
      | nil => cases single
      | cons head tail =>
          simp only [List.flatMap_cons, List.cons_append, List.cons.injEq, reduceCtorEq,
            and_false] at single

/-- A name that some member has. -/
theorem mem_memberNames
    (members : List NamedMember)
    (name : String) :
    name ∈ memberNames members ↔ ∃ member ∈ members, member.1 = name := by
  simp [memberNames]

/-- Names without later occurrences are different from each other. -/
theorem nodup_eraseDups :
    ∀ names : List String, names.eraseDups.Nodup
  | [] => by simp
  | name :: rest => by
      rw [List.eraseDups_cons, List.nodup_cons]
      refine ⟨?_, nodup_eraseDups (rest.filter fun other => !other == name)⟩
      simp
termination_by names => names.length
decreasing_by exact Nat.lt_succ_of_le (List.length_filter_le _ _)

/-- The names of members are different from each other. -/
theorem nodup_memberNames
    (members : List NamedMember) :
    (memberNames members).Nodup :=
  nodup_eraseDups _

end Scope

end Implementers
