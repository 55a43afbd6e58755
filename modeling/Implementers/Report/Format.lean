import Implementers.Report.Plain
import Implementers.Report.Xml

namespace Implementers.Report

/-!
# Formats of a report
-/

/-- The formats that a report can have. -/
inductive Format where
  | plain
  | json
  | xml
  deriving Repr, DecidableEq

namespace Format

/-- The name of a format. -/
def name : Format → String
  | plain => "plain"
  | json => "json"
  | xml => "xml"

/-- The format of a name. -/
def ofName? : String → Option Format
  | "plain" => some plain
  | "json" => some json
  | "xml" => some xml
  | _ => none

/-- The format that a text names. -/
def ofText
    (text : String) :
    Except UsageError Format :=
  match ofName? text with
  | some format => .ok format
  | none => .error (.outputFormat text)

end Format

/-- The report of matches in a format; only plain reports are coloured. -/
def render
    (format : Format)
    (color : Bool)
    (found : List Match) :
    String :=
  match format with
  | .plain => plain color (rows found)
  | .json => json (rows found)
  | .xml => xml (rows found)

end Implementers.Report
