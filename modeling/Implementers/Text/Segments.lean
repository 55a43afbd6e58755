namespace Implementers.Text

/-!
# Segments between separators

A separator cuts a text into segments; there is always one more segment than there are separators.
-/

/-- The segments of a text between the occurrences of a separator. -/
def segments
    (separator : Char) :
    List Char → List (List Char)
  | [] => [[]]
  | character :: rest =>
      if character == separator then
        [] :: segments separator rest
      else
        match segments separator rest with
        | [] => [[character]]
        | segment :: others => (character :: segment) :: others

/-- The text behind the last separator, or the whole text without one. -/
def lastSegment
    (separator : Char)
    (text : String) :
    String :=
  String.ofList ((segments separator text.toList).getLast?.getD [])

end Implementers.Text
