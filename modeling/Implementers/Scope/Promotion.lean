import Implementers.Scope.MethodTable

namespace Implementers

/-!
# Promotion through embedded fields

The method set of a concrete type holds its declared methods and those that embedded fields
promote.  Types are reached level by level along embedded fields.  A name that is found at a level
hides the name at every deeper level, and a name found twice at one level is ambiguous and promotes
nothing.  A method with a pointer receiver counts only when the type is seen through a pointer, be
it the pointer to the outer type or an embedded one on the way.
-/

open Syntax (TypeExpr FieldDecl)

/-- A type that embedded fields lead to. -/
inductive EmbeddedTarget where
  | declared (name : String)
  | errorInterface
  deriving Repr, DecidableEq

/-- A type reached at some level, whether through a pointer, and how often. -/
structure ReachedType where
  target : EmbeddedTarget
  indirect : Bool
  count : Nat
  deriving Repr, DecidableEq

/-- What a name stands for in a type. -/
inductive Member where
  | method (name : MethodName) (signature : Signature) (callable : Bool)
  | field

/-- A member under its name. -/
abbrev NamedMember := String × Member

namespace ReachedType

/-- A level with one more way to a type; ways to the same type are counted together. -/
def add
    (target : EmbeddedTarget)
    (indirect : Bool) :
    List ReachedType → List ReachedType
  | [] => [⟨target, indirect, 1⟩]
  | reached :: rest =>
      if reached.target = target then
        ⟨target, reached.indirect || indirect, reached.count + 1⟩ :: rest
      else
        reached :: add target indirect rest

/-- The types of a level that were not reached before. -/
def level
    (seen : List EmbeddedTarget)
    (ways : List (EmbeddedTarget × Bool)) :
    List ReachedType :=
  ways.foldl
    (fun level way => if seen.contains way.1 then level else add way.1 way.2 level)
    []

end ReachedType

namespace Scope

/-- The type that a name leads to through aliases, none of which may be met twice. -/
def embeddedThroughAliases?
    (scope : Scope) :
    Nat → List String → String → Option EmbeddedTarget
  | 0, _, _ => none
  | hops + 1, visited, name =>
      if visited.contains name then
        none
      else
        match scope.lookup? name with
        | some decl =>
            if decl.spec.isAlias then
              match decl.spec.type with
              | .name _ none (some target) _ _ =>
                  embeddedThroughAliases? scope hops (name :: visited) target.text
              | _ => none
            else
              some (.declared decl.name)
        | none => if name == "error" then some .errorInterface else none

/-- The type that an embedded field promotes from, if it is known. -/
def embeddedTarget?
    (scope : Scope)
    (field : FieldDecl) :
    Option EmbeddedTarget :=
  match field.type with
  | .name _ none (some ident) false _ =>
      scope.embeddedThroughAliases? (scope.decls.length + 2) [] ident.text
  | _ => none

/-- The names that a field declaration gives to members. -/
def fieldMembers
    (field : FieldDecl) :
    List NamedMember :=
  if field.isEmbedded then
    (field.embeddedName?.map fun name => (name, Member.field)).toList
  else
    field.names.map fun name => (name.text, Member.field)

/-- The way that an embedded field opens to another type. -/
def fieldWay?
    (scope : Scope)
    (indirect : Bool)
    (field : FieldDecl) :
    Option (EmbeddedTarget × Bool) :=
  if field.isEmbedded then
    (scope.embeddedTarget? field).map fun target => (target, indirect || field.embedsPointer)
  else
    none

/-- The methods of an interface as members. -/
def interfaceMembers
    (methods : MethodSet) :
    List NamedMember :=
  methods.methods.map fun method =>
    (method.name.name, Member.method method.name method.signature true)

/-- The declared methods of a type as members. -/
def declaredMembers
    (table : MethodTable)
    (name : String)
    (indirect : Bool) :
    List NamedMember :=
  (table.declared name).map fun method =>
    (method.name.name,
      Member.method method.name method.signature (!method.pointerReceiver || indirect))

/-- The members of a reached type itself, and the ways that it opens to further types. -/
def membersOf
    (scope : Scope)
    (table : MethodTable)
    (target : EmbeddedTarget)
    (indirect : Bool) :
    Resolve (List NamedMember × List (EmbeddedTarget × Bool)) :=
  match target with
  | .errorInterface => .answer (interfaceMembers scope.errorMethods, [])
  | .declared name => do
      let own := declaredMembers table name indirect
      match ← scope.underlyingOf name with
      | .interface interface => return (own ++ interfaceMembers interface.methods, [])
      | .struct _ fields =>
          return (own ++ fields.flatMap fieldMembers, fields.filterMap (scope.fieldWay? indirect))
      | _ => return (own, [])

/-- Members of a type reached several times, each of which is then ambiguous. -/
def weighed
    (count : Nat)
    (members : List NamedMember) :
    List NamedMember :=
  if count ≤ 1 then
    members
  else
    members.flatMap fun member => [(member.1, .field), member]

/-- The members of a level and the ways to the next one. -/
def levelMembers
    (scope : Scope)
    (table : MethodTable) :
    List ReachedType → Resolve (List NamedMember × List (EmbeddedTarget × Bool))
  | [] => .answer ([], [])
  | reached :: rest => do
      let (members, ways) ← scope.membersOf table reached.target reached.indirect
      let (otherMembers, otherWays) ← scope.levelMembers table rest
      return (weighed reached.count members ++ otherMembers, ways ++ otherWays)

/-- The method that the members of one name at a level promote. -/
def promoted? : List Member → Option Method
  | [.method name signature true] => some (.mk name signature)
  | _ => none

/-- The names of members in the order of their first occurrence. -/
def memberNames
    (members : List NamedMember) :
    List String :=
  (members.map Prod.fst).eraseDups

/-- The methods that a level promotes, where names settled at earlier levels are hidden. -/
def promotedMethods
    (settled : List String)
    (members : List NamedMember) :
    List Method :=
  ((memberNames members).filter fun name => !settled.contains name).filterMap fun name =>
    promoted? ((members.filter (·.1 == name)).map Prod.snd)

/-- How far a promotion has come. -/
structure PromotionState where
  seen : List EmbeddedTarget
  settled : List String
  methods : MethodSet
  ways : List (EmbeddedTarget × Bool)

/-- The promotion one level further. -/
def promoteLevel
    (scope : Scope)
    (table : MethodTable)
    (state : PromotionState) :
    Resolve PromotionState := do
  let level := ReachedType.level state.seen state.ways
  let (members, ways) ← scope.levelMembers table level
  return {
    seen := level.map ReachedType.target ++ state.seen
    settled := memberNames members ++ state.settled
    methods :=
      (promotedMethods state.settled members).foldl
        (fun set method => set.insert method.name method.signature) state.methods
    ways }

/-- The promotion until no way is left, at most a given number of levels further. -/
def promoteWithin
    (scope : Scope)
    (table : MethodTable) :
    Nat → PromotionState → Resolve MethodSet
  | 0, state => .answer state.methods
  | levels + 1, state =>
      if state.ways.isEmpty then
        .answer state.methods
      else do
        let next ← scope.promoteLevel table state
        scope.promoteWithin table levels next

/--
The method set of a declared type, or of the pointer to it.  Every level but the last reaches a
type that was not reached before, so there are no more levels than declared types and two.
-/
def concreteMethods
    (scope : Scope)
    (table : MethodTable)
    (base : String)
    (pointer : Bool) :
    Resolve MethodSet :=
  scope.promoteWithin table (scope.decls.length + 3)
    { seen := []
      settled := []
      methods := .empty
      ways := [(.declared base, pointer)] }

/-- Warn about every field that embeds a type from another package. -/
def warnUnpromoted
    (scope : Scope)
    (file : FileScope)
    (owner : String) :
    List FieldDecl → Resolve Unit
  | [] => .answer ()
  | field :: rest => do
      match field with
      | .mk span [] _ (.name nameSpan (some qualifier) _ _ _) =>
          Resolve.warn (.unpromotedMethods (file.position span.start)
            (scope.package.name ++ "." ++ owner) (file.excerpt nameSpan) qualifier.text)
      | _ => .answer ()
      scope.warnUnpromoted file owner rest

end Scope

end Implementers
