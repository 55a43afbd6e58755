import Implementers.Scope.Promotion
import Mathlib.Data.List.Nodup

/-!
# Selectors

Which methods a type has through its embedded fields is a matter of the paths along them.  A name
stands for what is declared under it at the end of the shortest such paths, and only when there is
exactly one path with one declaration.  A method is then selected when it can be called through the
path: a method with a pointer receiver needs a pointer on the way, or the view through a pointer.
-/

namespace Implementers

/-- What a type declares under a name. -/
inductive Declaration where
  | method (name : MethodName) (signature : Signature) (pointerOnly : Bool)
  | field

namespace Declaration

/-- The member that a declaration is, by whether its type is reached through a pointer. -/
def member
    (indirect : Bool) :
    Declaration → Member
  | .method name signature pointerOnly => .method name signature (!pointerOnly || indirect)
  | .field => .field

end Declaration

/-- What types declare, and what their embedded fields lead to. -/
structure Embedding where
  declarations : EmbeddedTarget → List (String × Declaration)
  /-- The types that the embedded fields lead to, and whether through a pointer. -/
  openings : EmbeddedTarget → List (EmbeddedTarget × Bool)
  /-- Methods are declared under their own names. -/
  named :
    ∀ target key name signature pointerOnly,
      (key, Declaration.method name signature pointerOnly) ∈ declarations target →
      name.name = key

/-- One embedded field on a path: the type that has it, its place there, and where it leads. -/
structure EmbeddingStep where
  source : EmbeddedTarget
  place : Nat
  target : EmbeddedTarget
  pointer : Bool
  deriving Repr, DecidableEq

/-- Embedded fields that lead from one to the next, the last one first. -/
abbrev EmbeddingPath := List EmbeddingStep

/-- A type, or the pointer to it. -/
structure View where
  start : EmbeddedTarget
  pointer : Bool
  deriving Repr, DecidableEq

namespace View

/-- The type behind the last step of a path, or the type itself. -/
def behind
    (view : View) :
    Option EmbeddingStep → EmbeddedTarget
  | none => view.start
  | some step => step.target

/-- The type at the end of a path. -/
def endOf
    (view : View)
    (path : EmbeddingPath) :
    EmbeddedTarget :=
  view.behind path.head?

/-- Whether a pointer is met on a path, the view itself included. -/
def crosses
    (view : View)
    (path : EmbeddingPath) :
    Bool :=
  view.pointer || path.any EmbeddingStep.pointer

end View

namespace Embedding

/-- The embedded fields of a type as steps. -/
def steps
    (embedding : Embedding)
    (source : EmbeddedTarget) :
    List EmbeddingStep :=
  (embedding.openings source).zipIdx.map fun opening =>
    ⟨source, opening.2, opening.1.1, opening.1.2⟩

/-- All paths of a length. -/
def paths
    (embedding : Embedding)
    (view : View) :
    Nat → List EmbeddingPath
  | 0 => [[]]
  | depth + 1 =>
      (paths embedding view depth).flatMap fun path =>
        (embedding.steps (view.endOf path)).map fun step => step :: path

/-- What a type declares under a name. -/
def declared
    (embedding : Embedding)
    (target : EmbeddedTarget)
    (name : String) :
    List Declaration :=
  ((embedding.declarations target).filter (·.1 == name)).map Prod.snd

/-- The paths of a length to declarations of a name, with these declarations. -/
def found
    (embedding : Embedding)
    (view : View)
    (depth : Nat)
    (name : String) :
    List (EmbeddingPath × Declaration) :=
  (embedding.paths view depth).flatMap fun path =>
    (embedding.declared (view.endOf path) name).map fun declaration => (path, declaration)

/-- No path that is shorter leads to a declaration of a name. -/
def Hidden
    (embedding : Embedding)
    (view : View)
    (depth : Nat)
    (name : String) :
    Prop :=
  ∀ shorter < depth, embedding.found view shorter name = []

/--
The selector rule: at the least depth where the name is declared there is one path with one
declaration, a method that can be called through this path.
-/
def Promotes
    (embedding : Embedding)
    (view : View)
    (method : Method) :
    Prop :=
  ∃ depth path pointerOnly,
    embedding.Hidden view depth method.name.name ∧
    embedding.found view depth method.name.name =
      [(path, .method method.name method.signature pointerOnly)] ∧
    (pointerOnly = true → view.crosses path = true)

/--
A method at the least depth of its name to which several paths lead, all of them by the same last
step, so that they part before it.  By the selector rule its name is ambiguous.
-/
def Overlooked
    (embedding : Embedding)
    (view : View)
    (method : Method) :
    Prop :=
  ∃ depth step pointerOnly,
    embedding.Hidden view depth method.name.name ∧
    2 ≤ (embedding.found view depth method.name.name).length ∧
    (embedding.declared step.target method.name.name).length = 1 ∧
    (∀ pair ∈ embedding.found view depth method.name.name,
      pair.1.head? = some step ∧
        pair.2 = .method method.name method.signature pointerOnly) ∧
    (pointerOnly = true →
      ∃ pair ∈ embedding.found view depth method.name.name, view.crosses pair.1 = true)

/-- A declaration that is found at a depth, by its path and its end. -/
theorem mem_found
    {embedding : Embedding}
    {view : View}
    {depth : Nat}
    {name : String}
    {path : EmbeddingPath}
    {declaration : Declaration} :
    (path, declaration) ∈ embedding.found view depth name ↔
      path ∈ embedding.paths view depth ∧
        declaration ∈ embedding.declared (view.endOf path) name := by
  simp only [found, List.mem_flatMap, List.mem_map, Prod.mk.injEq]
  constructor
  · rintro ⟨_, member, _, declared, rfl, rfl⟩
    exact ⟨member, declared⟩
  · rintro ⟨member, declared⟩
    exact ⟨path, member, declaration, declared, rfl, rfl⟩

/-- A name is found at a depth when the end of some path of this length declares it. -/
theorem found_ne_nil_iff
    {embedding : Embedding}
    {view : View}
    {depth : Nat}
    {name : String} :
    embedding.found view depth name ≠ [] ↔
      ∃ path ∈ embedding.paths view depth,
        embedding.declared (view.endOf path) name ≠ [] := by
  simp [found, List.flatMap_eq_nil_iff]

/-- A path of a length and one step more. -/
theorem mem_paths_succ
    {embedding : Embedding}
    {view : View}
    {depth : Nat}
    {path : EmbeddingPath} :
    path ∈ embedding.paths view (depth + 1) ↔
      ∃ shorter ∈ embedding.paths view depth,
        ∃ step ∈ embedding.steps (view.endOf shorter), path = step :: shorter := by
  simp only [paths, List.mem_flatMap, List.mem_map]
  constructor
  · rintro ⟨shorter, member, step, stepMember, rfl⟩
    exact ⟨shorter, member, step, stepMember, rfl⟩
  · rintro ⟨shorter, member, step, stepMember, rfl⟩
    exact ⟨shorter, member, step, stepMember, rfl⟩

/-- A path has as many steps as its length says. -/
theorem length_of_mem_paths
    {embedding : Embedding}
    {view : View}
    {depth : Nat}
    {path : EmbeddingPath}
    (member : path ∈ embedding.paths view depth) :
    path.length = depth := by
  induction depth generalizing path with
  | zero =>
      have empty : path = [] := by simpa [paths] using member
      simp [empty]
  | succ depth inductionHypothesis =>
      obtain ⟨shorter, shorterMember, step, _, rfl⟩ := mem_paths_succ.mp member
      simp [inductionHypothesis shorterMember]

/-- A step starts at the type that has the embedded field. -/
theorem source_of_mem_steps
    {embedding : Embedding}
    {source : EmbeddedTarget}
    {step : EmbeddingStep}
    (member : step ∈ embedding.steps source) :
    step.source = source := by
  obtain ⟨opening, _, rfl⟩ := List.mem_map.mp member
  rfl

/-- The steps of a type are different from each other. -/
theorem nodup_steps
    (embedding : Embedding)
    (source : EmbeddedTarget) :
    (embedding.steps source).Nodup := by
  have places : ((embedding.steps source).map EmbeddingStep.place).Nodup := by
    have inOrder :
        (embedding.steps source).map EmbeddingStep.place =
          List.range' 0 (embedding.openings source).length := by
      simp only [steps, List.map_map]
      exact List.zipIdx_map_snd 0 (embedding.openings source)
    rw [inOrder]
    exact List.nodup_range'
  exact List.Nodup.of_map EmbeddingStep.place places

/-- No method of a name is promoted when several paths lead to the name at its least depth. -/
theorem not_promotes_of_several
    {embedding : Embedding}
    {view : View}
    {depth : Nat}
    {method : Method}
    (hidden : embedding.Hidden view depth method.name.name)
    (several : 2 ≤ (embedding.found view depth method.name.name).length) :
    ¬embedding.Promotes view method := by
  rintro ⟨otherDepth, path, pointerOnly, otherHidden, single, _⟩
  rcases Nat.lt_trichotomy otherDepth depth with earlier | rfl | later
  · rw [hidden otherDepth earlier] at single
    cases single
  · simp [single] at several
  · simp [otherHidden depth later] at several

/-- A method that is overlooked is not promoted by the selector rule. -/
theorem Overlooked.not_promotes
    {embedding : Embedding}
    {view : View}
    {method : Method}
    (overlooked : embedding.Overlooked view method) :
    ¬embedding.Promotes view method := by
  obtain ⟨depth, _, _, hidden, several, _, _, _⟩ := overlooked
  exact not_promotes_of_several hidden several

/--
The methods of a view as the promotion finds them: those of the selector rule and the overlooked
ones, so that the rule holds for the view exactly when nothing is overlooked.
-/
structure Selected
    (embedding : Embedding)
    (view : View)
    (methods : MethodSet) :
    Prop where
  distinct : (methods.methods.map fun method => method.name.name).Nodup
  members :
    ∀ method, method ∈ methods.methods ↔
      embedding.Promotes view method ∨ embedding.Overlooked view method
  rule_iff :
    (∀ method, method ∈ methods.methods ↔ embedding.Promotes view method) ↔
      ∀ method, ¬embedding.Overlooked view method

/-- The rule is kept exactly by sets that have no overlooked methods. -/
theorem Selected.of_members
    {embedding : Embedding}
    {view : View}
    {methods : MethodSet}
    (distinct : (methods.methods.map fun method => method.name.name).Nodup)
    (members :
      ∀ method, method ∈ methods.methods ↔
        embedding.Promotes view method ∨ embedding.Overlooked view method) :
    embedding.Selected view methods where
  distinct := distinct
  members := members
  rule_iff := by
    constructor
    · intro rule method overlooked
      exact overlooked.not_promotes ((rule method).mp ((members method).mpr (Or.inr overlooked)))
    · intro nothing method
      rw [members, or_iff_left (nothing method)]

end Embedding

end Implementers
