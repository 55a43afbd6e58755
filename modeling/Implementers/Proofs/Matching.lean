import Implementers.Proofs.Identity
import Implementers.Query.Matching

namespace Implementers

/-!
# Which symbols a match lists

The matcher walks over the interfaces of the target's name and, for each of them, over the whole
universe, and it keeps a table of what it has looked at.  This module says what comes out without
that table: of each entity the first symbol decides, for the interfaces as well as for the
candidates, and the rows and their entries stand in the order in which entities first occur.
-/

namespace Universe

/-- The first symbol of each entity, in the order of the symbols. -/
def firsts : List Symbol → List Symbol
  | [] => []
  | symbol :: rest =>
      symbol :: (firsts rest).filter fun later => !symbol.identity.same later.identity

/-- A symbol is the first of its entity exactly when a search for the entity finds it. -/
theorem mem_firsts_iff
    {symbols : List Symbol}
    {symbol : Symbol} :
    symbol ∈ firsts symbols ↔
      symbols.find? (fun found => found.identity.same symbol.identity) = some symbol := by
  induction symbols with
  | nil => simp [firsts]
  | cons head rest inductionHypothesis =>
      cases sameHead : head.identity.same symbol.identity with
      | true =>
          have notLater :
              symbol ∉ (firsts rest).filter
                fun later => !head.identity.same later.identity := by
            simp [sameHead]
          simp only [firsts, List.mem_cons, notLater, or_false, List.find?_cons, sameHead,
            Option.some.injEq]
          exact eq_comm
      | false =>
          have notHead : symbol ≠ head := by
            rintro rfl
            simp at sameHead
          simp [firsts, sameHead, notHead, inductionHypothesis]

/-- No two of the first symbols are of one entity. -/
theorem firsts_pairwise
    (symbols : List Symbol) :
    (firsts symbols).Pairwise fun left right => ¬ left.identity.same right.identity := by
  induction symbols with
  | nil => exact .nil
  | cons head rest inductionHypothesis =>
      refine List.pairwise_cons.mpr ⟨?_, inductionHypothesis.filter _⟩
      intro later member
      simpa using (List.mem_filter.mp member).2

end Universe

namespace SeenTable

/-- Every recorded pair belongs to an interface that was begun. -/
def Tracked
    (table : SeenTable) :
    Prop :=
  ∀ interface candidate, table.contains interface candidate → table.hasBegun interface

/-- Nothing is recorded in the empty table. -/
theorem tracked_empty : Tracked empty := by
  simp [Tracked, contains, empty]

/-- Beginning an interface records no pair. -/
@[simp] theorem contains_begin
    (table : SeenTable)
    (key interface candidate : IdentityKey) :
    (table.begin key).2.contains interface candidate = table.contains interface candidate := by
  unfold begin
  split <;> rfl

/-- An interface that was begun stays so, and the one that is begun joins them. -/
@[simp] theorem hasBegun_begin
    (table : SeenTable)
    (key interface : IdentityKey) :
    (table.begin key).2.hasBegun interface =
      (key.same interface || table.hasBegun interface) := by
  unfold begin
  split
  case isTrue begun =>
    cases same : key.same interface with
    | false => simp
    | true =>
        have agree :
            table.hasBegun key = table.hasBegun interface := by
          simp only [hasBegun, IdentityKey.same_congr_right same]
        simp [← agree, begun]
  case isFalse => simp [hasBegun]

/-- Recording tells whether the pair is new. -/
@[simp] theorem record_fst
    (table : SeenTable)
    (interface candidate : IdentityKey) :
    (table.record interface candidate).1 = !table.contains interface candidate := by
  unfold record
  simp only [contains_begin]
  split <;> simp_all

/-- After recording, the pair is known, and so is what was known before. -/
theorem contains_record
    (table : SeenTable)
    (interface candidate other : IdentityKey) :
    (table.record interface candidate).2.contains interface other =
      (table.contains interface other || candidate.same other) := by
  unfold record
  simp only [contains_begin]
  split
  case isTrue known =>
    cases same : candidate.same other with
    | false => simp
    | true =>
        have agree :
            table.contains interface candidate = table.contains interface other := by
          simp only [contains, IdentityKey.same_congr_right same]
        simp [← agree, known]
  case isFalse =>
    have unchanged := contains_begin table interface interface other
    simp only [contains] at unchanged ⊢
    simp [unchanged, Bool.or_comm]

/-- Recording begins the interface of the pair. -/
@[simp] theorem hasBegun_record
    (table : SeenTable)
    (interface candidate other : IdentityKey) :
    (table.record interface candidate).2.hasBegun other =
      (interface.same other || table.hasBegun other) := by
  unfold record
  simp only [contains_begin]
  split <;> exact hasBegun_begin table interface other

/-- Recording a pair of one interface leaves the pairs of all others as they are. -/
theorem contains_record_other
    (table : SeenTable)
    {interface other : IdentityKey}
    (different : interface.same other = false)
    (candidate key : IdentityKey) :
    (table.record interface candidate).2.contains other key = table.contains other key := by
  unfold record
  simp only [contains_begin]
  split
  case isTrue => exact contains_begin table interface other key
  case isFalse =>
    have unchanged := contains_begin table interface other key
    simp only [contains] at unchanged ⊢
    simp [unchanged, different]

namespace Tracked

/-- Beginning an interface keeps a table tracked. -/
theorem begin
    {table : SeenTable}
    (tracked : table.Tracked)
    (key : IdentityKey) :
    (table.begin key).2.Tracked := by
  intro interface candidate known
  rw [contains_begin] at known
  simp [tracked interface candidate known]

/-- Recording a pair keeps a table tracked. -/
theorem record
    {table : SeenTable}
    (tracked : table.Tracked)
    (key recorded : IdentityKey) :
    (table.record key recorded).2.Tracked := by
  intro interface candidate known
  rw [hasBegun_record]
  cases same : key.same interface with
  | true => rfl
  | false =>
      rw [contains_record_other table same] at known
      exact tracked interface candidate known

end Tracked

end SeenTable

namespace Matching

/-- When a symbol of another entity counts as an implementer of an interface. -/
structure Implements
    (concreteOnly : Bool)
    (interface candidate : Symbol) :
    Prop where
  complete : candidate.isPartial = false
  admitted : concreteOnly → candidate.kind = .concrete
  other : ¬ candidate.identity.same interface.identity
  satisfies : candidate.methods.satisfies interface.methods

/-- The test of a candidate decides whether it counts. -/
theorem implements_iff
    {concreteOnly : Bool}
    {interface candidate : Symbol} :
    implements concreteOnly interface candidate ↔
      Implements concreteOnly interface candidate := by
  have concrete : candidate.isInterface = false ↔ candidate.kind = .concrete := by
    unfold Symbol.isInterface
    cases candidate.kind <;> simp
  constructor
  · intro passed
    simp only [implements, Bool.and_eq_true, Bool.not_eq_true', Bool.and_eq_false_iff] at passed
    obtain ⟨⟨⟨complete, admitted⟩, other⟩, satisfies⟩ := passed
    refine ⟨complete, fun only => ?_, by simp [other], satisfies⟩
    exact concrete.mp (admitted.resolve_left (by simp [only]))
  · rintro ⟨complete, admitted, other, satisfies⟩
    have passes : (concreteOnly && candidate.isInterface) = false := by
      cases only : concreteOnly with
      | false => rfl
      | true => simpa using concrete.mpr (admitted only)
    simp [implements, complete, passes, other, satisfies]

instance
    (concreteOnly : Bool)
    (interface candidate : Symbol) :
    Decidable (Implements concreteOnly interface candidate) :=
  decidable_of_iff _ implements_iff

/-- The implementers of an interface: of each entity the first symbol decides. -/
def row
    (concreteOnly : Bool)
    (symbols : Universe)
    (interface : Symbol) :
    Match :=
  ⟨interface,
    (Universe.firsts symbols).filter fun candidate => Implements concreteOnly interface candidate⟩

/--
Among candidates, the first symbols of the entities that the table does not hold are tested; the
others were seen before.
-/
theorem implementersOf_snd
    (concreteOnly : Bool)
    (interface : Symbol)
    (seen : SeenTable)
    (candidates : List Symbol) :
    (implementersOf concreteOnly interface seen candidates).2 =
      ((Universe.firsts candidates).filter fun candidate =>
        !seen.contains interface.identity candidate.identity).filter fun candidate =>
          implements concreteOnly interface candidate := by
  induction candidates generalizing seen with
  | nil => rfl
  | cons candidate rest inductionHypothesis =>
      have later :
          ((Universe.firsts rest).filter fun later =>
              !(seen.record interface.identity candidate.identity).2.contains
                interface.identity later.identity) =
            ((Universe.firsts rest).filter fun later =>
              !candidate.identity.same later.identity).filter fun later =>
                !seen.contains interface.identity later.identity := by
        rw [List.filter_filter]
        simp only [SeenTable.contains_record, Bool.not_or]
      simp only [implementersOf, inductionHypothesis, later, SeenTable.record_fst, Universe.firsts,
        List.filter_cons]
      cases known : seen.contains interface.identity candidate.identity <;>
        cases passes : implements concreteOnly interface candidate <;>
          simp [passes]

/-- Testing the candidates of an interface keeps the table tracked and begins nothing else. -/
theorem implementersOf_fst
    (concreteOnly : Bool)
    (interface : Symbol)
    (seen : SeenTable)
    (tracked : seen.Tracked)
    (begun : seen.hasBegun interface.identity)
    (candidates : List Symbol) :
    (implementersOf concreteOnly interface seen candidates).1.Tracked ∧
      ∀ key, (implementersOf concreteOnly interface seen candidates).1.hasBegun key =
        seen.hasBegun key := by
  induction candidates generalizing seen with
  | nil => exact ⟨tracked, fun _ => rfl⟩
  | cons candidate rest inductionHypothesis =>
      have same :
          ∀ key, (seen.record interface.identity candidate.identity).2.hasBegun key =
            seen.hasBegun key := by
        intro key
        rw [SeenTable.hasBegun_record]
        cases sameKey : interface.identity.same key with
        | false => rfl
        | true =>
            have agree : seen.hasBegun interface.identity = seen.hasBegun key := by
              simp only [SeenTable.hasBegun, IdentityKey.same_congr_right sameKey]
            simp [← agree, begun]
      have step :=
        inductionHypothesis (seen.record interface.identity candidate.identity).2
          (tracked.record interface.identity candidate.identity)
          (by rw [same]; exact begun)
      have remaining :
          (implementersOf concreteOnly interface seen (candidate :: rest)).1 =
            (implementersOf concreteOnly interface
              (seen.record interface.identity candidate.identity).2 rest).1 := by
        simp only [implementersOf]
        split <;> rfl
      rw [remaining]
      simpa only [same] using step

/-- Every candidate is tested for an interface that was not begun. -/
theorem implementersOf_begin
    (concreteOnly : Bool)
    (symbols : Universe)
    {seen : SeenTable}
    (tracked : seen.Tracked)
    {interface : Symbol}
    (begun : seen.hasBegun interface.identity = false) :
    (implementersOf concreteOnly interface (seen.begin interface.identity).2 symbols).2 =
      (row concreteOnly symbols interface).implementers := by
  have untested (candidate : IdentityKey) :
      seen.contains interface.identity candidate = false := by
    cases known : seen.contains interface.identity candidate with
    | false => rfl
    | true => simp [tracked _ _ known] at begun
  rw [implementersOf_snd]
  simp only [SeenTable.contains_begin, untested, Bool.not_false,
    List.filter_eq_self.mpr fun _ _ => rfl, row]
  apply List.filter_congr
  intro candidate _
  rw [Bool.eq_iff_iff, decide_eq_true_iff, implements_iff]

/--
Of the interfaces whose entity was not begun, the first one of each entity makes a row unless it is
partial.  The invariant is that the table is tracked, so an entity that was not begun has no pairs.
-/
theorem matchesOf_fst
    (concreteOnly : Bool)
    (symbols : Universe)
    (seen : SeenTable)
    (tracked : seen.Tracked)
    (interfaces : List Symbol) :
    (matchesOf concreteOnly symbols seen interfaces).1 =
      (((Universe.firsts interfaces).filter fun interface =>
        !seen.hasBegun interface.identity).filter fun interface =>
          !interface.isPartial).map (row concreteOnly symbols) := by
  induction interfaces generalizing seen with
  | nil => rfl
  | cons interface rest inductionHypothesis =>
      have trackedBegun := tracked.begin interface.identity
      have later :
          ((Universe.firsts rest).filter fun later =>
              !(seen.begin interface.identity).2.hasBegun later.identity) =
            ((Universe.firsts rest).filter fun later =>
              !interface.identity.same later.identity).filter fun later =>
                !seen.hasBegun later.identity := by
        rw [List.filter_filter]
        simp only [SeenTable.hasBegun_begin, Bool.not_or, Bool.and_comm]
      cases begun : seen.hasBegun interface.identity with
      | true =>
          have known : seen.begin interface.identity = (false, seen) := by
            simp [SeenTable.begin, begun]
          rw [known] at later
          simp [matchesOf, known, Universe.firsts, begun, inductionHypothesis seen tracked, later]
      | false =>
          have isNew : (seen.begin interface.identity).1 = true := by
            simp [SeenTable.begin, begun]
          cases isPartial : interface.isPartial with
          | true =>
              simp [matchesOf, isNew, isPartial, Universe.firsts, begun,
                inductionHypothesis _ trackedBegun, later, -List.filter_filter,
                -SeenTable.hasBegun_begin]
          | false =>
              have tested := implementersOf_begin concreteOnly symbols tracked begun
              have kept :=
                implementersOf_fst concreteOnly interface (seen.begin interface.identity).2
                  trackedBegun (by simp) symbols
              have others := inductionHypothesis _ kept.1
              simp only [kept.2, later] at others
              simp [matchesOf, isNew, isPartial, Universe.firsts, begun, others, tested, row]

/-- A candidate stands in the row of an interface when it is the first of its entity and counts. -/
theorem mem_row
    {concreteOnly : Bool}
    {symbols : Universe}
    {interface candidate : Symbol} :
    candidate ∈ (row concreteOnly symbols interface).implementers ↔
      symbols.find? (fun found => found.identity.same candidate.identity) = some candidate ∧
        Implements concreteOnly interface candidate := by
  simp [row, Universe.mem_firsts_iff]

/--
A match has one row for each entity among the interfaces of the target's name whose first symbol is
complete, in the order of first occurrence; the row lists, in the order of first occurrence, the
first symbol of each entity that implements the interface.  So no row lists an entity twice or the
interface itself, and no two rows are of one entity.
-/
theorem find_rows
    (concreteOnly : Bool)
    (symbols : Universe)
    (target : InterfaceName) :
    let named := Universe.interfacesNamed symbols target.display
    let rows := (find concreteOnly symbols target).1
    rows =
        ((Universe.firsts named).filter fun interface => !interface.isPartial).map
          (row concreteOnly symbols) ∧
      (∀ interface,
        interface ∈ rows.map Match.interface ↔
          named.find? (fun found => found.identity.same interface.identity) = some interface ∧
            interface.isPartial = false) ∧
      (∀ found ∈ rows,
        (∀ candidate,
          candidate ∈ found.implementers ↔
            symbols.find? (fun first => first.identity.same candidate.identity) =
                some candidate ∧
              Implements concreteOnly found.interface candidate) ∧
          (found.implementers.Pairwise fun left right =>
            ¬ left.identity.same right.identity) ∧
          ∀ candidate ∈ found.implementers,
            ¬ candidate.identity.same found.interface.identity) ∧
      rows.Pairwise fun left right =>
        ¬ left.interface.identity.same right.interface.identity := by
  intro named rows
  have rowsShape :
      rows =
        ((Universe.firsts named).filter fun interface => !interface.isPartial).map
          (row concreteOnly symbols) := by
    simp only [rows, named, find]
    rw [matchesOf_fst concreteOnly symbols .empty SeenTable.tracked_empty]
    simp [SeenTable.hasBegun, SeenTable.empty]
  refine ⟨rowsShape, ?_, ?_, ?_⟩
  · intro interface
    rw [rowsShape]
    simp [row, Universe.mem_firsts_iff]
  · intro found member
    rw [rowsShape] at member
    obtain ⟨interface, _, rfl⟩ := List.mem_map.mp member
    exact ⟨fun _ => mem_row, (Universe.firsts_pairwise symbols).filter _,
      fun _ listed => (mem_row.mp listed).2.other⟩
  · rw [rowsShape, List.pairwise_map]
    exact (Universe.firsts_pairwise named).filter _

end Matching

end Implementers
