import Implementers.Query.Target
import Implementers.Symbol
import Implementers.Warning

namespace Implementers

/-!
# Who implements an interface

A symbol implements an interface when its method set has every method of the interface.  Of several
symbols of one entity the first one counts, for interfaces as well as for candidates.
-/

/-- An interface with the symbols that implement it, in the order of the universe. -/
structure Match where
  interface : Symbol
  implementers : List Symbol

/-- The pairs of interface and candidate that were looked at already. -/
structure SeenTable where
  begun : List IdentityKey
  pairs : List (IdentityKey × IdentityKey)
  deriving Repr

namespace SeenTable

/-- Nothing was looked at. -/
def empty : SeenTable :=
  ⟨[], []⟩

/-- Whether an interface was begun. -/
def hasBegun
    (table : SeenTable)
    (interface : IdentityKey) :
    Bool :=
  table.begun.any (·.same interface)

/-- Whether a pair was recorded. -/
def contains
    (table : SeenTable)
    (interface candidate : IdentityKey) :
    Bool :=
  table.pairs.any fun pair => pair.1.same interface && pair.2.same candidate

/-- Begin an interface; tells whether it is new. -/
def begin
    (table : SeenTable)
    (interface : IdentityKey) :
    Bool × SeenTable :=
  if table.hasBegun interface then
    (false, table)
  else
    (true, { table with begun := interface :: table.begun })

/-- Record a pair, which also begins its interface; tells whether the pair is new. -/
def record
    (table : SeenTable)
    (interface candidate : IdentityKey) :
    Bool × SeenTable :=
  let known := (table.begin interface).2
  if known.contains interface candidate then
    (false, known)
  else
    (true, { known with pairs := (interface, candidate) :: known.pairs })

end SeenTable

namespace Matching

/-- Whether a candidate of another entity implements an interface. -/
def implements
    (concreteOnly : Bool)
    (interface candidate : Symbol) :
    Bool :=
  !candidate.isPartial && !(concreteOnly && candidate.isInterface) &&
    !candidate.identity.same interface.identity && candidate.methods.satisfies interface.methods

/-- The implementers among candidates, of which those seen before do not count. -/
def implementersOf
    (concreteOnly : Bool)
    (interface : Symbol) :
    SeenTable → List Symbol → SeenTable × List Symbol
  | seen, [] => (seen, [])
  | seen, candidate :: rest =>
      let (isNew, recorded) := seen.record interface.identity candidate.identity
      let (final, others) := implementersOf concreteOnly interface recorded rest
      if isNew && implements concreteOnly interface candidate then
        (final, candidate :: others)
      else
        (final, others)

/-- The matches of interfaces, of which those seen before do not count. -/
def matchesOf
    (concreteOnly : Bool)
    (symbols : Universe) :
    SeenTable → List Symbol → List Match × List Warning
  | _, [] => ([], [])
  | seen, interface :: rest =>
      let (isNew, begun) := seen.begin interface.identity
      if !isNew then
        matchesOf concreteOnly symbols begun rest
      else if interface.isPartial then
        let (others, warnings) := matchesOf concreteOnly symbols begun rest
        (others, .incompleteInterface interface.identity.display :: warnings)
      else
        let (recorded, implementers) := implementersOf concreteOnly interface begun symbols
        let (others, warnings) := matchesOf concreteOnly symbols recorded rest
        (⟨interface, implementers⟩ :: others, warnings)

/-- Every entity that is an interface of the target's name, with its implementers. -/
def find
    (concreteOnly : Bool)
    (symbols : Universe)
    (target : InterfaceName) :
    List Match × List Warning :=
  matchesOf concreteOnly symbols .empty (Universe.interfacesNamed symbols target.display)

end Matching

end Implementers
