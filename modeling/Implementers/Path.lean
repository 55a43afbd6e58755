import Implementers.Text.Segments

namespace Implementers

/-!
# Paths

A path keeps the spelling it was given and is compared by its components: repeated and trailing
slashes do not count, nor does a dot that is not the very first component.
-/

/-- One step of a path. -/
inductive Component where
  | root
  | current
  | parent
  | normal (name : String)
  deriving Repr, DecidableEq

namespace Component

/-- The place of a component's class in the order of components. -/
def rank : Component → Nat
  | .root => 0
  | .current => 1
  | .parent => 2
  | .normal _ => 3

/-- Components are ordered by class, and names by their code points. -/
def order : Component → Component → Ordering
  | .normal left, .normal right => compare left right
  | left, right => compare left.rank right.rank

end Component

/-- A path as it is spelled. -/
structure Path where
  text : String
  deriving Repr, DecidableEq

namespace Path

/-- The segments of a path between its slashes. -/
def segments
    (path : Path) :
    List String :=
  (Text.segments '/' path.text.toList).map String.ofList

/-- Whether a path begins at the root. -/
def isAbsolute
    (path : Path) :
    Bool :=
  path.text.toList.head? == some '/'

/-- The component that a segment behind the first one stands for. -/
def innerComponent? : String → Option Component
  | "" => none
  | "." => none
  | ".." => some .parent
  | name => some (.normal name)

/-- The component that the first segment of a path stands for. -/
def firstComponent?
    (absolute : Bool)
    (segment : String) :
    Option Component :=
  if absolute then
    some .root
  else if segment == "." then
    some .current
  else
    innerComponent? segment

/-- The components of a path. -/
def components
    (path : Path) :
    List Component :=
  match path.segments with
  | [] => []
  | first :: rest =>
      (firstComponent? path.isAbsolute first).toList ++ rest.filterMap innerComponent?

/-- Whether two paths have the same components. -/
def same
    (left right : Path) :
    Bool :=
  left.components == right.components

/-- The lexicographic order of component lists. -/
def orderComponents : List Component → List Component → Ordering
  | [], [] => .eq
  | [], _ :: _ => .lt
  | _ :: _, [] => .gt
  | left :: lefts, right :: rights =>
      match left.order right with
      | .eq => orderComponents lefts rights
      | different => different

/-- Paths are ordered component by component. -/
def order
    (left right : Path) :
    Ordering :=
  orderComponents left.components right.components

/-- Whether a path does not come after another one. -/
def notAfter
    (left right : Path) :
    Bool :=
  left.order right != .gt

/-- The name of the file that a path leads to. -/
def fileName?
    (path : Path) :
    Option String :=
  match path.components.getLast? with
  | some (.normal name) => some name
  | _ => none

/-- The part of a file name behind its last dot, unless that dot comes first. -/
def extension?
    (path : Path) :
    Option String :=
  path.fileName?.bind fun name =>
    match (Text.segments '.' name.toList).reverse with
    | [] | [_] => none
    | [_, []] => none
    | extension :: _ => some (String.ofList extension)

/-- The path of an entry below a directory. -/
def join
    (directory : Path)
    (name : String) :
    Path :=
  if directory.text.isEmpty || directory.text.toList.getLast? == some '/' then
    ⟨directory.text ++ name⟩
  else
    ⟨directory.text ++ "/" ++ name⟩

/-- Whether a segment behind the first one stands for nothing. -/
def isIdleSegment
    (segment : String) :
    Bool :=
  (innerComponent? segment).isNone

/-- The path without its last component, or nothing for the root and the empty path. -/
def parent?
    (path : Path) :
    Option Path :=
  match path.segments with
  | [] => none
  | first :: rest =>
      match (rest.reverse.dropWhile isIdleSegment) with
      | _ :: before =>
          match (before.dropWhile isIdleSegment).reverse with
          | [] => some ⟨if path.isAbsolute then "/" else first⟩
          | kept => some ⟨String.intercalate "/" (first :: kept)⟩
      | [] => if path.isAbsolute || first.isEmpty then none else some ⟨""⟩

/-- The components of a path behind those of another path, if it begins with them. -/
def componentsBelow?
    (path base : Path) :
    Option (List Component) :=
  if base.components.isPrefixOf path.components then
    some (path.components.drop base.components.length)
  else
    none

end Path

end Implementers
