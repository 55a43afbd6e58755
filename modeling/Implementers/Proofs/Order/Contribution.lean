import Implementers.Proofs.Identity
import Implementers.Proofs.Order.Inquiry
import Implementers.Proofs.Promotion.Package
import Implementers.Proofs.Scope.Lockstep

/-!
# What the declarations of a package contribute

A function declaration adds to the method table what it would add to an empty one, unless its method
is declared already.  A type declaration adds nothing to the table.  Whether a package resolves is
therefore a matter of asking about each of its declarations by itself, and of no method being
declared twice; what embedded fields promote to the receivers never fails afterwards.
-/

namespace Implementers

open Syntax (FuncDecl Ident Receiver)

/-- Two methods that do not share a type and a name. -/
def DeclaredMethod.Apart
    (left right : DeclaredMethod) :
    Prop :=
  left.base = right.base → left.name.same right.name = false

theorem DeclaredMethod.Apart.symm
    {left right : DeclaredMethod}
    (apart : left.Apart right) :
    right.Apart left := by
  intro sameBase
  rw [MethodName.same_comm]
  exact apart sameBase.symm

namespace MethodTable

/-- A table with what another one adds to it. -/
def join
    (table added : MethodTable) :
    MethodTable :=
  ⟨table.methods ++ added.methods, table.receivers ++ added.receivers⟩

/-- All that tables have. -/
def joinAll
    (tables : List MethodTable) :
    MethodTable :=
  ⟨tables.flatMap methods, tables.flatMap receivers⟩

/-- No method of a table is declared twice. -/
def Distinct
    (table : MethodTable) :
    Prop :=
  table.methods.Pairwise DeclaredMethod.Apart

theorem join_empty
    (table : MethodTable) :
    table.join .empty = table := by
  simp [join, empty]

theorem empty_join
    (table : MethodTable) :
    empty.join table = table := by
  simp [join, empty]

theorem distinct_empty :
    empty.Distinct :=
  .nil

theorem join_joinAll_cons
    (table first : MethodTable)
    (rest : List MethodTable) :
    table.join (joinAll (first :: rest)) = (table.join first).join (joinAll rest) := by
  simp [join, joinAll, List.append_assoc]

/-- A table does not declare a method when all of its methods are apart from it. -/
theorem declares_eq_false_iff
    {table : MethodTable}
    {method : DeclaredMethod} :
    table.declares method.base method.name = false ↔
      ∀ earlier ∈ table.methods, earlier.Apart method := by
  simp only [declares, declared, List.any_eq_false, List.mem_filter, beq_iff_eq, and_imp,
    Bool.not_eq_true, DeclaredMethod.Apart]

/-- Whether a table clashes with an entry for it. -/
def clashes
    (table entry : MethodTable) :
    Bool :=
  entry.methods.any fun method => table.declares method.base method.name

/-- A joined table has no method twice when neither part has and they do not clash. -/
theorem distinct_join_iff
    {table entry : MethodTable} :
    (table.join entry).Distinct ↔
      table.Distinct ∧ entry.Distinct ∧ table.clashes entry = false := by
  simp only [Distinct, join, List.pairwise_append, clashes, List.any_eq_false, Bool.not_eq_true,
    declares_eq_false_iff]
  exact ⟨fun ⟨own, added, apart⟩ => ⟨own, added, fun method member earlier earlierMember =>
      apart earlier earlierMember method member⟩,
    fun ⟨own, added, apart⟩ => ⟨own, added, fun earlier earlierMember method member =>
      apart method member earlier earlierMember⟩⟩

end MethodTable

namespace Scope

/-- What a function declaration adds to a method table. -/
def entry
    (scope : Scope)
    (func : FileScope × FuncDecl) :
    Resolve MethodTable :=
  scope.addMethodDecl func.1 .empty func.2

/-- What a function declaration adds in a state, whatever the table it is added to. -/
structure Adds
    (scope : Scope)
    (func : FileScope × FuncDecl)
    (state : ScopeState)
    (entry : MethodTable)
    (after : ScopeState) :
    Prop where
  distinct : entry.Distinct
  joins :
    ∀ table : MethodTable, table.clashes entry = false →
      scope.addMethodDecl func.1 table func.2 state = (.ok (table.join entry), after)
  fails :
    ∀ table : MethodTable, table.clashes entry = true →
      ∃ error, scope.addMethodDecl func.1 table func.2 state = (.error error, after)

/-- A function declaration that declares no method clashes with nothing. -/
theorem Adds.of_receivers
    {scope : Scope}
    {func : FileScope × FuncDecl}
    {state after : ScopeState}
    (receivers : List ReceiverSite)
    (joins : ∀ table : MethodTable,
      scope.addMethodDecl func.1 table func.2 state =
        (.ok { table with receivers := table.receivers ++ receivers }, after)) :
    scope.Adds func state ⟨[], receivers⟩ after where
  distinct := .nil
  joins table _ := by rw [joins, MethodTable.join, List.append_nil]
  fails _ clashes := by cases clashes

theorem Adds.of_nothing
    {scope : Scope}
    {func : FileScope × FuncDecl}
    {state after : ScopeState}
    (unchanged : ∀ table : MethodTable,
      scope.addMethodDecl func.1 table func.2 state = (.ok table, after)) :
    scope.Adds func state .empty after :=
  .of_receivers [] fun table => by rw [unchanged, List.append_nil]

/-- A method with a name and a receiver is added unless it is declared already. -/
theorem Adds.of_method
    {scope : Scope}
    {file : FileScope}
    {func : FuncDecl}
    {receiver : Receiver}
    {decl : TypeDecl}
    {pointer : Bool}
    {name : Ident}
    {signature : Signature}
    {state middle after : ScopeState}
    (received : func.receiver = some receiver)
    (ran : scope.receiverOf file receiver state = (.ok (some (decl, pointer)), middle))
    (named : func.name = some name)
    (visible : ¬(name.text == blankName) = true)
    (lowered :
      scope.lowerSignature file func.params func.result middle = (.ok signature, after)) :
    scope.Adds (file, func) state
      ⟨[⟨decl.name, scope.methodName name.text, signature, pointer⟩],
        (receiverSite? file receiver decl.name pointer).toList⟩ after := by
  refine ⟨List.pairwise_singleton _ _, ?_, ?_⟩
  · intro table fresh
    have undeclared : ¬table.declares decl.name (scope.methodName name.text) = true := by
      simpa [MethodTable.clashes] using fresh
    simp only [addMethodDecl, received, bind, Resolve.andThen, ran, named, if_neg visible, lowered]
    exact congrFun (if_neg undeclared) after
  · intro table clashes
    have declared : table.declares decl.name (scope.methodName name.text) = true := by
      simpa [MethodTable.clashes] using clashes
    refine ⟨.duplicateMethod (file.position name.span.start) (decl.name ++ "." ++ name.text), ?_⟩
    simp only [addMethodDecl, received, bind, Resolve.andThen, ran, named, if_neg visible, lowered]
    exact congrFun (if_pos declared) after

/-- A function declaration either fails, or adds something that does not depend on the table. -/
theorem addMethodDecl_outcome
    (scope : Scope)
    (func : FileScope × FuncDecl)
    (state : ScopeState) :
    (∃ error after, ∀ table,
        scope.addMethodDecl func.1 table func.2 state = (.error error, after)) ∨
      ∃ entry after, scope.Adds func state entry after := by
  obtain ⟨file, func⟩ := func
  cases received : func.receiver with
  | none => exact .inr ⟨_, _, .of_nothing fun table => by simp only [addMethodDecl, received]; rfl⟩
  | some receiver =>
      cases ran : scope.receiverOf file receiver state with
      | mk outcome middle =>
          rcases outcome with error | base
          · refine .inl ⟨error, middle, fun table => ?_⟩
            simp only [addMethodDecl, received, bind, Resolve.andThen, ran]
          · rcases base with _ | ⟨decl, pointer⟩
            · refine .inr ⟨_, middle, .of_nothing fun table => ?_⟩
              simp only [addMethodDecl, received, bind, Resolve.andThen, ran]
              rfl
            · cases named : func.name with
              | none =>
                  refine .inr ⟨_, middle, .of_nothing fun table => ?_⟩
                  simp only [addMethodDecl, received, bind, Resolve.andThen, ran, named]
                  rfl
              | some name =>
                  by_cases blank : (name.text == blankName) = true
                  · refine .inr ⟨_, middle, .of_receivers
                      (receiverSite? file receiver decl.name pointer).toList fun table => ?_⟩
                    simp only [addMethodDecl, received, bind, Resolve.andThen, ran, named,
                      if_pos blank]
                    rfl
                  · cases lowered :
                        scope.lowerSignature file func.params func.result middle with
                    | mk outcome last =>
                        rcases outcome with error | signature
                        · refine .inl ⟨error, last, fun table => ?_⟩
                          simp only [addMethodDecl, received, bind, Resolve.andThen, ran, named,
                            if_neg blank, lowered]
                        · exact .inr ⟨_, last, .of_method received ran named blank lowered⟩

/-- A function declaration answers when its entry for an empty table does not clash. -/
theorem addMethodDecl_ok
    {scope : Scope}
    {func : FileScope × FuncDecl}
    {table joined : MethodTable}
    {state after : ScopeState} :
    scope.addMethodDecl func.1 table func.2 state = (.ok joined, after) ↔
      ∃ entry, scope.entry func state = (.ok entry, after) ∧ entry.Distinct ∧
        table.clashes entry = false ∧ joined = table.join entry := by
  rcases scope.addMethodDecl_outcome func state with ⟨error, last, fails⟩ | ⟨entry, last, adds⟩
  · simp [Scope.entry, fails]
  · have onEmpty : scope.entry func state = (.ok entry, last) := by
      have fresh : MethodTable.clashes .empty entry = false := by
        simp [MethodTable.clashes, MethodTable.declares, MethodTable.declared, MethodTable.empty]
      simpa [Scope.entry, MethodTable.join, MethodTable.empty] using adds.joins .empty fresh
    rw [onEmpty]
    cases clashes : table.clashes entry with
    | false =>
        rw [adds.joins table clashes]
        constructor
        · intro answered
          cases answered
          exact ⟨entry, rfl, adds.distinct, clashes, rfl⟩
        · rintro ⟨_, answered, _, _, rfl⟩
          cases answered
          rfl
    | true =>
        obtain ⟨error, fails⟩ := adds.fails table clashes
        rw [fails]
        constructor
        · intro answered
          cases answered
        · rintro ⟨_, answered, _, fresh, _⟩
          cases answered
          rw [clashes] at fresh
          cases fresh

/-- Function declarations answer when their entries do and no method is declared twice. -/
theorem addMethodDecls_ok
    {scope : Scope}
    (funcs : List (FileScope × FuncDecl)) :
    ∀ {table joined : MethodTable} {state after : ScopeState},
      table.Distinct →
      (scope.addMethodDecls table funcs state = (.ok joined, after) ↔
        ∃ entries, Resolve.askAll scope.entry funcs state = (.ok entries, after) ∧
          joined = table.join (.joinAll entries) ∧ joined.Distinct) := by
  induction funcs with
  | nil =>
      intro table joined state after distinct
      constructor
      · intro answered
        cases answered
        exact ⟨[], rfl, (table.join_empty).symm, distinct⟩
      · rintro ⟨_, answered, rfl, _⟩
        cases answered
        exact congrArg (fun joined => (Except.ok joined, state)) (table.join_empty).symm
  | cons func rest inductionHypothesis =>
      intro table joined state after distinct
      constructor
      · intro answered
        obtain ⟨added, middle, ran, answeredRest⟩ := Resolve.andThen_ok answered
        obtain ⟨entry, ranEntry, entryDistinct, fresh, rfl⟩ := addMethodDecl_ok.mp ran
        have addedDistinct : (table.join entry).Distinct :=
          MethodTable.distinct_join_iff.mpr ⟨distinct, entryDistinct, fresh⟩
        obtain ⟨entries, ranEntries, rfl, joinedDistinct⟩ :=
          (inductionHypothesis addedDistinct).mp answeredRest
        exact ⟨entry :: entries,
          Resolve.askAll_cons_ok.mpr ⟨entry, entries, middle, ranEntry, ranEntries, rfl⟩,
          (table.join_joinAll_cons entry entries).symm, joinedDistinct⟩
      · rintro ⟨_, answered, rfl, joinedDistinct⟩
        obtain ⟨entry, entries, middle, ranEntry, ranEntries, rfl⟩ :=
          Resolve.askAll_cons_ok.mp answered
        rw [table.join_joinAll_cons] at joinedDistinct ⊢
        have addedDistinct := (MethodTable.distinct_join_iff.mp joinedDistinct).1
        obtain ⟨_, entryDistinct, fresh⟩ := MethodTable.distinct_join_iff.mp addedDistinct
        have ran := addMethodDecl_ok.mpr ⟨entry, ranEntry, entryDistinct, fresh, rfl⟩
        have answeredRest :=
          (inductionHypothesis addedDistinct).mpr ⟨entries, ranEntries, rfl, joinedDistinct⟩
        simp only [addMethodDecls, bind, Resolve.andThen, ran, answeredRest]

end Scope

end Implementers
