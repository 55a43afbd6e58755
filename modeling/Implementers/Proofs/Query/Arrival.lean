import Implementers.Proofs.Matching
import Implementers.Proofs.Query.Owners
import Implementers.Proofs.Report.Order
import Implementers.Proofs.FanIn.Interleaving
import Mathlib.Data.List.Perm.Lattice

namespace Implementers

/-!
# The order in which symbols arrive

Two universes of the same units hold the same symbols of each entity in the same order, since an
entity belongs to one unit; they differ only in how entities are mixed.  Filters and the replacement
of owners keep this, the first symbol of each entity is the same one, and so the matches of the two
universes differ only in their order.
-/

namespace Universe

/-- Whether two universes hold the same symbols of each entity, in the same order. -/
def Agree
    (left right : Universe) :
    Prop :=
  ∀ key : IdentityKey,
    left.filter (fun symbol => symbol.identity.same key) =
      right.filter (fun symbol => symbol.identity.same key)

namespace Agree

/-- Leaving out symbols keeps universes in agreement. -/
theorem filter
    {left right : Universe}
    (agree : Agree left right)
    (keeps : Symbol → Bool) :
    Agree (left.filter keeps) (right.filter keeps) := by
  intro key
  rw [List.filter_comm, agree key, List.filter_comm]

/-- Changing symbols without touching their entities keeps universes in agreement. -/
theorem map
    {left right : Universe}
    (agree : Agree left right)
    {change : Symbol → Symbol}
    (identity : ∀ symbol, (change symbol).identity = symbol.identity) :
    Agree (left.map change) (right.map change) := by
  intro key
  simp only [List.filter_map, Function.comp_def, identity, agree key]

/-- A search for an entity finds the same symbol. -/
theorem find?_eq
    {left right : Universe}
    (agree : Agree left right)
    (key : IdentityKey) :
    left.find? (fun symbol => symbol.identity.same key) =
      right.find? (fun symbol => symbol.identity.same key) := by
  rw [← List.head?_filter, agree key, List.head?_filter]

/-- The first symbols of the entities are the same ones in some order. -/
theorem firsts_perm
    {left right : Universe}
    (agree : Agree left right) :
    (firsts left).Perm (firsts right) := by
  have nodup (symbols : Universe) : (firsts symbols).Nodup := by
    refine (firsts_pairwise symbols).imp ?_
    rintro first _ different rfl
    exact different (IdentityKey.same_self first.identity)
  refine (List.perm_ext_iff_of_nodup (nodup left) (nodup right)).mpr fun symbol => ?_
  rw [mem_firsts_iff, mem_firsts_iff, agree.find?_eq]

end Agree

end Universe

namespace Matching

/-- The rows of the first complete symbols of the target's entities, in their order. -/
theorem find_fst
    (concreteOnly : Bool)
    (symbols : Universe)
    (target : InterfaceName) :
    (find concreteOnly symbols target).1 =
      ((Universe.firsts (Universe.interfacesNamed symbols target.display)).filter
        fun interface => !interface.isPartial).map (row concreteOnly symbols) := by
  rw [find, matchesOf_fst concreteOnly symbols .empty SeenTable.tracked_empty]
  simp [SeenTable.hasBegun, SeenTable.empty]

/-- Universes in agreement have matches that show the same in some order. -/
theorem find_paired
    {left right : Universe}
    (agree : Universe.Agree left right)
    (concreteOnly : Bool)
    (target : InterfaceName) :
    Paired Report.ShowsSame
      (find concreteOnly left target).1 (find concreteOnly right target).1 := by
  rw [find_fst, find_fst]
  have named :
      (Universe.firsts (Universe.interfacesNamed left target.display)).Perm
        (Universe.firsts (Universe.interfacesNamed right target.display)) :=
    ((agree.filter _).filter _).firsts_perm
  refine ⟨_, (named.filter _).map _, ?_⟩
  rw [List.forall₂_map_left_iff, List.forall₂_map_right_iff, List.forall₂_same]
  intro interface _
  exact ⟨rfl, (agree.firsts_perm.filter _).map _⟩

/-- Every matched interface is one of the symbols. -/
theorem interface_of_find
    {concreteOnly : Bool}
    {symbols : Universe}
    {target : InterfaceName}
    {found : Match}
    (member : found ∈ (find concreteOnly symbols target).1) :
    found.interface ∈ symbols := by
  rw [find_fst] at member
  obtain ⟨interface, listed, rfl⟩ := List.mem_map.mp member
  have isFirst := Universe.mem_firsts_iff.mp (List.mem_of_mem_filter listed)
  have named := List.mem_of_find?_eq_some isFirst
  exact List.mem_of_mem_filter (List.mem_of_mem_filter named)

/-- No two matched interfaces are of one entity. -/
theorem interfaces_pairwise
    (concreteOnly : Bool)
    (symbols : Universe)
    (target : InterfaceName) :
    (find concreteOnly symbols target).1.Pairwise fun left right =>
      ¬ left.interface.identity.same right.interface.identity := by
  rw [find_fst, List.pairwise_map]
  exact (Universe.firsts_pairwise _).filter _

end Matching

namespace ImportIndex

/--
Universes in agreement stay so when owners are replaced, provided that each import path that occurs
in a method set stands for the same package in both.
-/
theorem localize_agree
    {index : ImportIndex}
    {left right : Universe}
    (agree : Universe.Agree left right)
    (same :
      ∀ symbol ∈ right,
        Owner.AgreeOn (scannedIn (index.packages left)) (scannedIn (index.packages right))
          symbol.methods.occurrences) :
    Universe.Agree (index.localize left) (index.localize right) := by
  have changed :
      index.localize right = right.map (Symbol.localize (scannedIn (index.packages left))) := by
    refine List.map_congr_left fun symbol member => ?_
    rw [Symbol.localize, Symbol.localize, MethodSet.localize_congr _ (same symbol member)]
  rw [changed]
  exact agree.map fun _ => rfl

end ImportIndex

end Implementers
