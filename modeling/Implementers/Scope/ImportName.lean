import Implementers.Text.Segments

namespace Implementers

/-!
# The name of an import

An import without an explicit name is referred to by the last element of its path, where a major
version as a last element is passed over, and a `go-` in front and a `.vN` behind are left out.
-/

namespace ImportName

/-- Whether a path element is a major version such as `v2`. -/
def isMajorVersion : List Char → Bool
  | 'v' :: digit :: digits => (digit :: digits).all Char.isDigit
  | _ => false

/-- The parts of a text around its last `.v`. -/
def aroundVersion? : List Char → Option (List Char × List Char)
  | [] => none
  | character :: rest =>
      match aroundVersion? rest with
      | some (before, version) => some (character :: before, version)
      | none =>
          match character, rest with
          | '.', 'v' :: version => some ([], version)
          | _, _ => none

/-- The path element that names an import: the last one that is no major version suffix. -/
def namingElement
    (path : String) :
    List Char :=
  match (Text.segments '/' path.toList).reverse with
  | [] => []
  | [only] => only
  | last :: previous :: _ => if isMajorVersion last then previous else last

/-- A path element without the `go-` in front. -/
def withoutMark
    (element : List Char) :
    List Char :=
  if "go-".toList.isPrefixOf element then element.drop 3 else element

/-- A path element without the major version behind. -/
def withoutVersion
    (element : List Char) :
    List Char :=
  match aroundVersion? element with
  | some (before, version) => if isMajorVersion ('v' :: version) then before else element
  | none => element

/-- The name that a path is imported under. -/
def ofPath
    (path : String) :
    String :=
  String.ofList (withoutVersion (withoutMark (namingElement path)))

end ImportName

end Implementers
