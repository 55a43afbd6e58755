import Implementers.Proofs.Files.Paths
import Implementers.Proofs.Report.Order
import Implementers.Proofs.Report.Xml
import Implementers.Report.Format
import Mathlib.Data.Prod.Lex
import Mathlib.Data.String.Basic

namespace Implementers.Report

/-!
# What a rendered report tells

The structured formats lose nothing: the rows of a report can be read back from its JSON and from
its XML text.  Whatever order matches and implementers were found in, they are rendered to one text,
in which the rows and the implementers of each row stand in the order of their places and types and
in which every match has its row.
-/

/--
The structured formats lose nothing.  The rows of a report are read back from its XML text and from
its JSON text, whatever their names, files and numbers are, so two reports with different rows have
different texts in both formats.
-/
theorem structured_lossless :
    (∀ rows, readXml (xml rows) = some rows) ∧
      (∀ rows, readJson (json rows) = some rows) ∧
      Function.Injective xml ∧
      Function.Injective json := by
  refine ⟨readXml_xml, readJson_json, fun left right same => ?_, fun left right same => ?_⟩
  · exact Option.some.inj ((readXml_xml left).symm.trans (same ▸ readXml_xml right))
  · exact Option.some.inj ((readJson_json left).symm.trans (same ▸ readJson_json right))

/-! ## The order of labels -/

namespace TypeLabel

/-- What labels are ordered by: the file name, the line, the column and the text of the type. -/
def key
    (label : TypeLabel) :
    String ×ₗ ℕ ×ₗ ℕ ×ₗ String :=
  toLex (label.place.fileName, toLex (label.place.line, toLex (label.place.column, label.name)))

end TypeLabel

/-! ## Reports of matches -/

/-- Whether two matches are of one interface with the same implementers in some order. -/
structure Rearranged
    (left right : Match) :
    Prop where
  interface : left.interface = right.interface
  implementers : left.implementers.Perm right.implementers

/-- Matches of which no two show their interface at the same place with the same type. -/
def ShownApart
    (found : List Match) :
    Prop :=
  found.Pairwise fun one other =>
    ¬((Place.ofPosition one.interface.declaration).display =
        (Place.ofPosition other.interface.declaration).display ∧
      one.interface.typeString = other.interface.typeString)

/-- The interfaces of matches that are shown apart have different labels. -/
theorem ShownApart.nodup
    {found : List Match}
    (apart : ShownApart found) :
    (found.map fun one => TypeLabel.ofSymbol one.interface).Nodup := by
  refine List.pairwise_map.mpr (apart.imp fun {one other} differ same => differ ?_)
  obtain ⟨sameName, samePlace⟩ := TypeLabel.mk.inj same
  exact ⟨congrArg Place.display samePlace, sameName⟩

namespace Shuffled

/-- A type without methods that is declared on a line of one file. -/
def symbol
    (name : String)
    (line : Nat) :
    Symbol :=
  { name
    package := ⟨⟨"p"⟩, "p"⟩
    kind := .concrete
    pointer := false
    position := ⟨⟨"p/p.go"⟩, line, 6⟩
    declaration := ⟨⟨"p/p.go"⟩, line, 6⟩
    methods := .mk []
    isPartial := false }

/-- An interface with two implementers, and another one that is declared at the same place. -/
def found : List Match :=
  [ ⟨symbol "Reader" 3, [symbol "File" 7, symbol "Buffer" 5]⟩,
    ⟨symbol "Empty" 3, []⟩ ]

end Shuffled

end Implementers.Report
