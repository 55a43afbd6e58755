import Implementers.Ty.Basic

namespace Implementers

/-!
# Types in messages

A type is shown as it would be written in source text.  A named type shows the name of its package,
or the last element of the import path while that package is not resolved.
-/

namespace Owner

/-- The qualifier that an owner puts before a type's name. -/
def display : Owner → String
  | .predeclared => ""
  | .local package => package.name ++ "."
  | .imported path => Text.lastSegment '/' path ++ "."

end Owner

/-- What stands before the element type of a channel. -/
def Syntax.ChanDirection.display : Syntax.ChanDirection → String
  | .both => "chan "
  | .send => "chan<- "
  | .receive => "<-chan "

mutual

/-- A type as it is shown. -/
def Ty.display : Ty → String
  | .named owner name args =>
      owner.display ++ name ++
        match args with
        | [] => ""
        | first :: rest =>
            "[" ++ String.intercalate ", " (first.display :: Ty.displayList rest) ++ "]"
  | .pointer elem => "*" ++ elem.display
  | .slice elem => "[]" ++ elem.display
  | .array length elem => "[" ++ length ++ "]" ++ elem.display
  | .map key value => "map[" ++ key.display ++ "]" ++ value.display
  | .chan direction elem => direction.display ++ elem.display
  | .func signature => "func" ++ signature.display
  | .struct fields =>
      "struct\x7b" ++ String.intercalate "; " (StructField.displayList fields) ++ "\x7d"
  | .interface methods => "interface\x7b" ++ methods.display ++ "\x7d"

/-- The types of a list as they are shown. -/
def Ty.displayList : List Ty → List String
  | [] => []
  | first :: rest => first.display :: Ty.displayList rest

/-- The parameter types of a list as they are shown; the last one of a variadic list repeats. -/
def Ty.displayParams
    (variadic : Bool) :
    List Ty → List String
  | [] => []
  | [.slice elem] => [(if variadic then "..." else "[]") ++ elem.display]
  | first :: rest => first.display :: Ty.displayParams variadic rest

/-- A signature as it is shown. -/
def Signature.display : Signature → String
  | .mk params results variadic =>
      "(" ++ String.intercalate ", " (Ty.displayParams variadic params) ++ ")" ++
        match results with
        | [] => ""
        | [single] => " " ++ single.display
        | first :: rest =>
            " (" ++ String.intercalate ", " (first.display :: Ty.displayList rest) ++ ")"

/-- A field as it is shown. -/
def StructField.display : StructField → String
  | .mk name type embedded => (if embedded then "" else name ++ " ") ++ type.display

/-- The fields of a list as they are shown. -/
def StructField.displayList : List StructField → List String
  | [] => []
  | first :: rest => first.display :: StructField.displayList rest

/-- The methods of a list as they are shown. -/
def Method.displayList : List Method → List String
  | [] => []
  | .mk name signature :: rest => (name.name ++ signature.display) :: Method.displayList rest

/-- The methods of a set as they are shown. -/
def MethodSet.display : MethodSet → String
  | .mk methods => String.intercalate "; " (Method.displayList methods)

end

/-- A method as it is shown. -/
def Method.display
    (method : Method) :
    String :=
  method.name.name ++ method.signature.display

end Implementers
