import Implementers.Proofs.Interfaces.Closure
import Implementers.Proofs.TypeIdentity
import Mathlib.Data.List.Nodup

namespace Implementers

/-!
# Method sets as unions over closures

An interface gathers the closure of its source when its methods are those that the closure declares,
one for each name, and when its flags tell whether types of other packages or restrictions are in
the closure.  The interfaces of some elements and of others gather both when they are joined.
-/

open Syntax (Ident TypeExpr Elem ParamList)

/-- A signature that is another one or identical to it. -/
def Signature.Agrees
    (signature other : Signature) :
    Prop :=
  signature = other ∨ signature.same other = true

theorem Signature.Agrees.trans
    {first second third : Signature}
    (one : first.Agrees second)
    (two : second.Agrees third) :
    first.Agrees third := by
  rcases one with rfl | one
  · exact two
  · rcases two with rfl | two
    · exact Or.inr one
    · exact Or.inr (Signature.same_trans first one two)

/-- A set has a method of a name with a signature that agrees. -/
def MethodSet.Has
    (set : MethodSet)
    (name : MethodName)
    (signature : Signature) :
    Prop :=
  ∃ method ∈ set.methods, method.name = name ∧ method.signature.Agrees signature

namespace Scope

/--
An interface gathers the closure of a source, where signatures are resolved in the state at the end:
its methods are those declared in the closure, all declarations of one name agree with the method of
that name, and the flags tell what else is in the closure.
-/
structure Gathers
    (scope : Scope)
    (final : ScopeState)
    (source : InterfaceSource)
    (interface : InterfaceMethods) :
    Prop where
  sound :
    ∀ method ∈ interface.methods.methods, ∃ name signature after,
      scope.Contributes source name signature ∧ method.name = scope.methodName name ∧
        signature final = (.ok method.signature, after)
  complete :
    ∀ name signature, scope.Contributes source name signature →
      ∃ value after, signature final = (.ok value, after) ∧
        ∃ method ∈ interface.methods.methods,
          method.name = scope.methodName name ∧ method.signature.Agrees value
  distinct : (interface.methods.methods.map Method.name).Nodup
  isPartial_iff : interface.isPartial = true ↔ scope.Finds (· = .imported) source
  isConstraint_iff : interface.isConstraint = true ↔ scope.Finds InterfaceSource.Restricts source

/-- A method is written somewhere in a closure, with a signature that a given one agrees with. -/
def Written
    (scope : Scope)
    (final : ScopeState)
    (source : InterfaceSource)
    (name : String)
    (value : Signature) :
    Prop :=
  ∃ signature found after, scope.Contributes source name signature ∧
    signature final = (.ok found, after) ∧ found.Agrees value

variable {scope : Scope} {final : ScopeState}

/-- An interface that gathers a closure has exactly the methods that are written in it. -/
theorem Gathers.has_iff_written
    {source : InterfaceSource}
    {interface : InterfaceMethods}
    (gathers : scope.Gathers final source interface)
    (name : String)
    (value : Signature) :
    interface.methods.Has (scope.methodName name) value ↔
      scope.Written final source name value := by
  constructor
  · intro has
    obtain ⟨method, member, isName, agrees⟩ := has
    obtain ⟨other, signature, after, contributes, isOther, resolved⟩ :=
      gathers.sound method member
    obtain rfl : other = name := congrArg MethodName.name (isOther.symm.trans isName)
    exact ⟨signature, method.signature, after, contributes, resolved, agrees⟩
  · intro written
    obtain ⟨signature, found, after, contributes, resolved, agrees⟩ := written
    obtain ⟨known, last, resolvedAgain, method, member, isName, methodAgrees⟩ :=
      gathers.complete name signature contributes
    obtain rfl : found = known := by
      rw [resolved] at resolvedAgain
      cases resolvedAgain
      rfl
    exact ⟨method, member, isName, methodAgrees.trans agrees⟩

/-! ## Methods joined to methods -/

/-- Names of one package are the same when their texts are. -/
@[simp] theorem methodName_same_iff
    {name other : String} :
    (scope.methodName name).same (scope.methodName other) = true ↔ name = other := by
  rw [MethodName.same_iff]
  constructor
  · exact fun same => same.1
  · rintro rfl
    exact ⟨rfl, rfl⟩

/-- Methods whose names are names of a package. -/
def Named
    (scope : Scope)
    (methods : List Method) :
    Prop :=
  ∀ method ∈ methods, ∃ name, method.name = scope.methodName name

theorem Named.same_iff
    {methods others : List Method}
    (named : scope.Named methods)
    (otherNamed : scope.Named others)
    {method other : Method}
    (member : method ∈ methods)
    (otherMember : other ∈ others) :
    method.name.same other.name = true ↔ method.name = other.name := by
  obtain ⟨name, isName⟩ := named method member
  obtain ⟨otherName, isOtherName⟩ := otherNamed other otherMember
  rw [isName, isOtherName, methodName_same_iff]
  constructor
  · exact congrArg scope.methodName
  · exact fun same => congrArg MethodName.name same

/-- What comes of adding methods to a list of methods with different names. -/
structure Joins
    (own added joined : List Method) :
    Prop where
  keeps : ∀ method ∈ own, method ∈ joined
  comesFrom : ∀ method ∈ joined, method ∈ own ∨ method ∈ added
  covers : ∀ method ∈ added, ∃ other ∈ joined,
    other.name = method.name ∧ other.signature.Agrees method.signature
  distinct : (joined.map Method.name).Nodup

/-- A method whose name no other one has is put behind them. -/
theorem joins_of_absent
    {set : MethodSet}
    {method : Method}
    (distinct : (set.methods.map Method.name).Nodup)
    (fresh : ∀ other ∈ set.methods, other.name ≠ method.name)
    (absent : set.find? method.name = none) :
    Joins set.methods [method] (set.insert method.name method.signature).methods := by
  have inserted :
      (set.insert method.name method.signature).methods = set.methods ++ [method] := by
    cases method with
    | mk name signature =>
        simp only [MethodSet.insert, MethodSet.contains, absent]
        rfl
  rw [inserted]
  refine
    { keeps := fun _ => List.mem_append_left _
      comesFrom := fun _ => List.mem_append.mp
      covers := ?covers
      distinct := ?distinct }
  case covers =>
    intro other member
    exact ⟨other, List.mem_append_right _ member, rfl, Or.inl rfl⟩
  case distinct =>
    rw [List.map_append, List.nodup_append]
    refine ⟨distinct, List.nodup_singleton _, ?_⟩
    intro name member single isSingle same
    obtain ⟨other, otherMember, rfl⟩ := List.mem_map.mp member
    exact fresh other otherMember (same.trans (List.mem_singleton.mp isSingle))

/-- A method that agrees with one of its name changes nothing. -/
theorem joins_of_agrees
    {methods : List Method}
    {method other : Method}
    (distinct : (methods.map Method.name).Nodup)
    (member : other ∈ methods)
    (sameName : other.name = method.name)
    (agrees : other.signature.Agrees method.signature) :
    Joins methods [method] methods where
  keeps _ := id
  comesFrom _ := Or.inl
  covers added isAdded := by
    obtain rfl := List.mem_singleton.mp isAdded
    exact ⟨other, member, sameName, agrees⟩
  distinct

/-- One method is added behind the others, or agrees with the one of its name. -/
theorem joins_of_addMethod
    {position : Position}
    {set joined : MethodSet}
    {method : Method}
    (named : scope.Named set.methods)
    (methodNamed : scope.Named [method])
    (distinct : (set.methods.map Method.name).Nodup)
    (answered : addMethod position set method = .ok joined) :
    Joins set.methods [method] joined.methods := by
  have sameIff {other : Method} (member : other ∈ set.methods) :=
    named.same_iff methodNamed member (List.mem_singleton_self method)
  unfold addMethod at answered
  split at answered
  · next missing =>
      cases answered
      have absent : set.find? method.name = none := Option.map_eq_none_iff.mp missing
      apply joins_of_absent distinct ?_ absent
      intro other member same
      exact List.find?_eq_none.mp absent other member ((sameIff member).mpr same)
  · next existing found =>
      split at answered
      · next agrees =>
          cases answered
          obtain ⟨other, isFound, rfl⟩ := Option.map_eq_some_iff.mp found
          have member := List.mem_of_find?_eq_some isFound
          have same : other.name.same method.name = true := by
            simpa using List.find?_some isFound
          exact joins_of_agrees distinct member ((sameIff member).mp same) (Or.inr agrees)
      · cases answered

/-- Methods that come of a join have names of the package. -/
theorem Joins.named
    {own added joined : List Method}
    (joins : Joins own added joined)
    (ownNamed : scope.Named own)
    (addedNamed : scope.Named added) :
    scope.Named joined := by
  intro method member
  rcases joins.comesFrom method member with inOwn | inAdded
  · exact ownNamed method inOwn
  · exact addedNamed method inAdded

/-- A join with one method and then with others is a join with all of them. -/
theorem Joins.cons
    {own middle rest joined : List Method}
    {method : Method}
    (first : Joins own [method] middle)
    (others : Joins middle rest joined) :
    Joins own (method :: rest) joined := by
  refine
    { keeps := fun other member => others.keeps other (first.keeps other member)
      comesFrom := ?comesFrom
      covers := ?covers
      distinct := others.distinct }
  case comesFrom =>
    intro other member
    rcases others.comesFrom other member with inMiddle | inRest
    · rcases first.comesFrom other inMiddle with inOwn | isMethod
      · exact Or.inl inOwn
      · exact Or.inr (List.mem_cons.mpr (Or.inl (List.mem_singleton.mp isMethod)))
    · exact Or.inr (List.mem_cons_of_mem _ inRest)
  case covers =>
    intro other member
    rcases List.mem_cons.mp member with rfl | inRest
    · obtain ⟨kept, keptMember, sameName, agrees⟩ :=
        first.covers other (List.mem_singleton_self _)
      exact ⟨kept, others.keeps kept keptMember, sameName, agrees⟩
    · exact others.covers other inRest

/-- Methods are added one by one. -/
theorem joins_of_addMethods
    {position : Position}
    (methods : List Method) :
    ∀ {set joined : MethodSet},
      scope.Named set.methods → scope.Named methods →
      (set.methods.map Method.name).Nodup →
      addMethods position set methods = .ok joined →
      Joins set.methods methods joined.methods := by
  induction methods with
  | nil =>
      intro set joined _ _ distinct answered
      cases answered
      exact
        { keeps := fun _ => id
          comesFrom := fun _ => Or.inl
          covers := fun _ member => absurd member List.not_mem_nil
          distinct }
  | cons method rest inductionHypothesis =>
      intro set joined named methodsNamed distinct answered
      simp only [addMethods] at answered
      cases first : addMethod position set method with
      | error _ =>
          rw [first] at answered
          cases answered
      | ok added =>
          rw [first] at answered
          have firstNamed : scope.Named [method] := fun other member =>
            methodsNamed other (List.mem_cons.mpr (Or.inl (List.mem_singleton.mp member)))
          have restNamed : scope.Named rest := fun other member =>
            methodsNamed other (List.mem_cons_of_mem _ member)
          have joinsFirst := joins_of_addMethod named firstNamed distinct first
          apply joinsFirst.cons
          exact inductionHypothesis (joinsFirst.named named firstNamed) restNamed
            joinsFirst.distinct answered

/-! ## Interfaces of elements -/

theorem Gathers.named
    {source : InterfaceSource}
    {interface : InterfaceMethods}
    (gathers : scope.Gathers final source interface) :
    scope.Named interface.methods.methods := by
  intro method member
  obtain ⟨name, _, _, _, isName, _⟩ := gathers.sound method member
  exact ⟨name, isName⟩

/-- The interfaces of some elements and of others gather both when one embeds the other. -/
theorem Gathers.embed
    {file : FileScope}
    {front back : List Elem}
    {position : Position}
    {own inner joined : InterfaceMethods}
    (gathersFront : scope.Gathers final (.body file front) own)
    (gathersBack : scope.Gathers final (.body file back) inner)
    (answered : Scope.embed position own inner = .ok joined) :
    scope.Gathers final (.body file (front ++ back)) joined := by
  unfold Scope.embed at answered
  split at answered
  · next methods added =>
      cases answered
      have joins := joins_of_addMethods _ gathersFront.named gathersBack.named
        gathersFront.distinct added
      have contributes (name : String) (signature : Resolve Signature) :
          scope.Contributes (.body file (front ++ back)) name signature ↔
            scope.Contributes (.body file front) name signature ∨
              scope.Contributes (.body file back) name signature :=
        finds_append (elementwise_declares name signature) file front back
      refine
        { sound := ?sound
          complete := ?complete
          distinct := joins.distinct
          isPartial_iff := ?isPartial
          isConstraint_iff := ?isConstraint }
      case sound =>
        intro method member
        rcases joins.comesFrom method member with inFront | inBack
        · obtain ⟨name, signature, after, declared, isName, resolved⟩ :=
            gathersFront.sound method inFront
          exact ⟨name, signature, after, (contributes _ _).mpr (Or.inl declared), isName, resolved⟩
        · obtain ⟨name, signature, after, declared, isName, resolved⟩ :=
            gathersBack.sound method inBack
          exact ⟨name, signature, after, (contributes _ _).mpr (Or.inr declared), isName, resolved⟩
      case complete =>
        intro name signature declared
        rcases (contributes _ _).mp declared with inFront | inBack
        · obtain ⟨value, after, resolved, method, member, isName, agrees⟩ :=
            gathersFront.complete name signature inFront
          exact ⟨value, after, resolved, method, joins.keeps method member, isName, agrees⟩
        · obtain ⟨value, after, resolved, method, member, isName, agrees⟩ :=
            gathersBack.complete name signature inBack
          obtain ⟨other, otherMember, sameName, otherAgrees⟩ := joins.covers method member
          exact ⟨value, after, resolved, other, otherMember, sameName.trans isName,
            otherAgrees.trans agrees⟩
      case isPartial =>
        rw [finds_append elementwise_imported, ← gathersFront.isPartial_iff,
          ← gathersBack.isPartial_iff, Bool.or_eq_true]
      case isConstraint =>
        rw [finds_append elementwise_restricts, ← gathersFront.isConstraint_iff,
          ← gathersBack.isConstraint_iff, Bool.or_eq_true]
  · cases answered

/-- Embedding nothing changes nothing. -/
theorem embed_nothing
    (position : Position)
    (own : InterfaceMethods) :
    Scope.embed position own {} = .ok own := by
  simp [Scope.embed, addMethods, MethodSet.empty, MethodSet.methods]

/-- Embedding a restriction restricts. -/
theorem embed_restriction
    (position : Position)
    (own : InterfaceMethods) :
    Scope.embed position own { isConstraint := true } = .ok { own with isConstraint := true } := by
  simp [Scope.embed, addMethods, MethodSet.empty, MethodSet.methods]

/-- Embedding one method adds it. -/
theorem embed_method
    {position : Position}
    {own : InterfaceMethods}
    {method : Method}
    {methods : MethodSet}
    (added : addMethod position own.methods method = .ok methods) :
    Scope.embed position own { methods := .mk [method] } = .ok { own with methods } := by
  simp [Scope.embed, addMethods, MethodSet.methods, added]

/-- The interface of an embedded element is that of its source. -/
theorem Gathers.embedded
    {file : FileScope}
    {span : Syntax.Span}
    {type : TypeExpr}
    {source : InterfaceSource}
    {interface : InterfaceMethods}
    (gathers : scope.Gathers final source interface)
    (embeds : scope.Embeds file type source) :
    scope.Gathers final (.body file [.embedded span type]) interface := by
  have contributes (name : String) (signature : Resolve Signature) :
      scope.Contributes (.body file [.embedded span type]) name signature ↔
        scope.Contributes source name signature := by
    refine finds_embedded embeds fun declares => ?_
    cases declares with
    | written member _ => cases List.mem_singleton.mp member
  have restricts : ¬InterfaceSource.Restricts (.body file [.embedded span type]) := by
    intro restricts
    cases restricts with
    | typeSet member => cases List.mem_singleton.mp member
  refine
    { sound := ?sound
      complete := ?complete
      distinct := gathers.distinct
      isPartial_iff := gathers.isPartial_iff.trans (finds_embedded embeds (by simp)).symm
      isConstraint_iff := gathers.isConstraint_iff.trans (finds_embedded embeds restricts).symm }
  case sound =>
    intro method member
    obtain ⟨name, signature, after, declared, rest⟩ := gathers.sound method member
    exact ⟨name, signature, after, (contributes _ _).mpr declared, rest⟩
  case complete =>
    intro name signature declared
    exact gathers.complete name signature ((contributes _ _).mp declared)

/-- A source whose closure is the source alone and that declares nothing. -/
theorem gathers_of_declares_nothing
    {source : InterfaceSource}
    {isConstraint isPartial : Bool}
    (alone : ∀ property, scope.Finds property source ↔ property source)
    (nothing : ∀ name signature, ¬scope.Declares source name signature)
    (partial_iff : isPartial = true ↔ source = .imported)
    (constraint_iff : isConstraint = true ↔ source.Restricts) :
    scope.Gathers final source { isConstraint, isPartial } where
  sound _ member := nomatch member
  complete name signature declared := absurd ((alone _).mp declared) (nothing name signature)
  distinct := List.nodup_nil
  isPartial_iff := partial_iff.trans (alone (· = .imported)).symm
  isConstraint_iff := constraint_iff.trans (alone _).symm

/-- A source whose closure is the source alone and that declares one method. -/
theorem gathers_of_declares_one
    {source : InterfaceSource}
    {name : String}
    {signature : Resolve Signature}
    {value : Signature}
    {after : ScopeState}
    (alone : ∀ property, scope.Finds property source ↔ property source)
    (one : ∀ other otherSignature,
      scope.Declares source other otherSignature ↔ other = name ∧ otherSignature = signature)
    (resolved : signature final = (.ok value, after))
    (inPackage : source ≠ .imported)
    (unrestricted : ¬source.Restricts) :
    scope.Gathers final source { methods := .mk [.mk (scope.methodName name) value] } := by
  have contributes (other : String) (otherSignature : Resolve Signature) :
      scope.Contributes source other otherSignature ↔ other = name ∧ otherSignature = signature :=
    (alone _).trans (one other otherSignature)
  refine
    { sound := ?sound
      complete := ?complete
      distinct := List.nodup_singleton _
      isPartial_iff := ?isPartial
      isConstraint_iff := ?isConstraint }
  case sound =>
    intro method member
    obtain rfl := List.mem_singleton.mp member
    exact ⟨name, signature, after, (contributes _ _).mpr ⟨rfl, rfl⟩, rfl, resolved⟩
  case complete =>
    intro other otherSignature declared
    obtain ⟨rfl, rfl⟩ := (contributes _ _).mp declared
    exact ⟨value, after, resolved, _, List.mem_singleton_self _, rfl, Or.inl rfl⟩
  case isPartial =>
    rw [alone]
    simp [inPackage]
  case isConstraint =>
    rw [alone]
    simp [unrestricted]

/-! ## Predeclared sources and what is no interface -/

theorem gathers_restriction :
    scope.Gathers final .restriction { isConstraint := true } := by
  apply gathers_of_declares_nothing
  · exact fun _ => finds_iff_of_not_body fun _ _ same => by cases same
  · exact fun _ _ declares => by cases declares
  · simp
  · exact iff_of_true rfl .restriction

theorem gathers_imported :
    scope.Gathers final .imported { isPartial := true } := by
  apply gathers_of_declares_nothing
  · exact fun _ => finds_iff_of_not_body fun _ _ same => by cases same
  · exact fun _ _ declares => by cases declares
  · exact iff_of_true rfl rfl
  · exact iff_of_false (by simp) fun restricts => by cases restricts

theorem gathers_comparable :
    scope.Gathers final .comparableInterface { isConstraint := true } := by
  apply gathers_of_declares_nothing
  · exact fun _ => finds_iff_of_not_body fun _ _ same => by cases same
  · exact fun _ _ declares => by cases declares
  · simp
  · exact iff_of_true rfl .comparableInterface

theorem gathers_any :
    scope.Gathers final .anyInterface {} := by
  apply gathers_of_declares_nothing
  · exact fun _ => finds_iff_of_not_body fun _ _ same => by cases same
  · exact fun _ _ declares => by cases declares
  · simp
  · exact iff_of_false (by simp) fun restricts => by cases restricts

theorem gathers_error :
    scope.Gathers final .errorInterface { methods := scope.errorMethods } := by
  refine gathers_of_declares_one (fun _ => finds_iff_of_not_body fun _ _ same => by cases same)
    (fun other signature => ?_) rfl (by simp) fun restricts => by cases restricts
  constructor
  · intro declares
    cases declares
    exact ⟨rfl, rfl⟩
  · rintro ⟨rfl, rfl⟩
    exact .predeclared

/-! ## Single elements of a body -/

variable {file : FileScope}

/-- A body without elements. -/
theorem gathers_nil :
    scope.Gathers final (.body file []) {} := by
  have alone (property : InterfaceSource → Prop) :
      scope.Finds property (.body file []) ↔ property (.body file []) := by
    rw [finds_iff, or_iff_left]
    rintro ⟨_, ⟨member, _⟩, _⟩
    cases member
  apply gathers_of_declares_nothing alone
  · intro name signature declares
    cases declares with
    | written member _ => cases member
  · simp
  · refine iff_of_false (by simp) fun restricts => ?_
    cases restricts with
    | typeSet member => cases member

/-- A set of types restricts. -/
theorem gathers_typeSet
    (span : Syntax.Span) :
    scope.Gathers final (.body file [.typeSet span]) { isConstraint := true } := by
  apply gathers_of_declares_nothing
  · exact fun _ => finds_own fun _ _ same => by cases same
  · intro name signature declares
    cases declares with
    | written member _ => cases List.mem_singleton.mp member
  · simp
  · exact iff_of_true rfl (.typeSet (List.mem_singleton_self _))

/-- A method is declared with its signature. -/
theorem gathers_method
    {span : Syntax.Span}
    {ident : Ident}
    {params : ParamList}
    {result : Syntax.Result}
    {value : Signature}
    {after : ScopeState}
    (notBlank : ident.text ≠ blankName)
    (resolved : scope.lowerSignature file params result final = (.ok value, after)) :
    scope.Gathers final (.body file [.method span (some ident) params result])
      { methods := .mk [.mk (scope.methodName ident.text) value] } := by
  refine gathers_of_declares_one (fun _ => finds_own fun _ _ same => by cases same)
    (fun other signature => ?_) resolved (by simp) fun restricts => ?_
  · constructor
    · intro declares
      cases declares with
      | written member _ =>
          cases List.mem_singleton.mp member
          exact ⟨rfl, rfl⟩
    · rintro ⟨rfl, rfl⟩
      exact .written (List.mem_singleton_self _) notBlank
  · cases restricts with
    | typeSet member => cases List.mem_singleton.mp member

/-- A blank method is not declared. -/
theorem gathers_blank
    {span : Syntax.Span}
    {ident : Ident}
    {params : ParamList}
    {result : Syntax.Result}
    (blank : ident.text = blankName) :
    scope.Gathers final (.body file [.method span (some ident) params result]) {} := by
  apply gathers_of_declares_nothing
  · exact fun _ => finds_own fun _ _ same => by cases same
  · intro name signature declares
    cases declares with
    | written member notBlank =>
        cases List.mem_singleton.mp member
        exact notBlank blank
  · simp
  · refine iff_of_false (by simp) fun restricts => ?_
    cases restricts with
    | typeSet member => cases List.mem_singleton.mp member

end Scope

end Implementers
