import Implementers.Proofs.Report.Json
import Implementers.Report.Xml

namespace Implementers.Report

/-!
# Reading XML reports

A reader takes an XML document one character at a time.  It knows which elements are open, what
stands in each of them so far, and in which tag it is.  Told which elements hold text, it keeps the
characters of these and drops those of the others, so the blanks that lay a document out get into
no text.  It reads every document back that the report can be made of, whatever characters the
texts hold, and the rows of a report can be taken out of the document that shows them.
-/

namespace XmlElement

/-! ## The reader -/

/-- XML text with the references in it replaced by the characters they stand for. -/
def unescape : List Char → List Char
  | '&' :: 'l' :: 't' :: ';' :: rest => '<' :: unescape rest
  | '&' :: 'g' :: 't' :: ';' :: rest => '>' :: unescape rest
  | '&' :: 'a' :: 'm' :: 'p' :: ';' :: rest => '&' :: unescape rest
  | '&' :: 'a' :: 'p' :: 'o' :: 's' :: ';' :: rest => '\x27' :: unescape rest
  | '&' :: 'q' :: 'u' :: 'o' :: 't' :: ';' :: rest => '"' :: unescape rest
  | character :: rest => character :: unescape rest
  | [] => []

/-- An open element: its tag, and the text and the elements that stand in it so far. -/
structure Frame where
  tag : String
  content : List Char
  children : List XmlElement

/-- An open element with a further element in it. -/
def Frame.add
    (element : XmlElement)
    (frame : Frame) :
    Frame :=
  { frame with children := frame.children ++ [element] }

section Reader

variable (holdsText : String → Bool)

/-- The element that an open element becomes when it is closed. -/
def Frame.element
    (frame : Frame) :
    XmlElement :=
  if holdsText frame.tag then
    .text frame.tag (String.ofList (unescape frame.content))
  else
    .parent frame.tag frame.children

/-- Take a character between tags, which only counts inside of an element that holds text. -/
def takeText
    (character : Char) :
    List Frame → List Frame
  | [] => []
  | frame :: outer =>
      if holdsText frame.tag then
        { frame with content := frame.content ++ [character] } :: outer
      else
        frame :: outer

/-- Take a tag: the declaration of the document, the end of an element or the beginning of one. -/
def takeTag
    (frames : List Frame) :
    List Char → Option (List Frame)
  | '?' :: _ => some frames
  | '/' :: name =>
      match frames with
      | inner :: outer :: rest =>
          if inner.tag = String.ofList name then
            some (outer.add (inner.element holdsText) :: rest)
          else
            none
      | _ => none
  | name => some (⟨String.ofList name, [], []⟩ :: frames)

/-- Take a character. -/
def take
    (state : Option (List Char) × List Frame)
    (character : Char) :
    Option (Option (List Char) × List Frame) :=
  match state.1 with
  | none =>
      if character = '<' then
        some (some [], state.2)
      else
        some (none, takeText holdsText character state.2)
  | some tag =>
      if character = '>' then
        (takeTag holdsText state.2 tag).map (none, ·)
      else
        some (some (tag ++ [character]), state.2)

/-- What has been read at the end of a text, which is no tag's inside. -/
def settle : Option (List Char) × List Frame → Option (List Frame)
  | (none, frames) => some frames
  | (some _, _) => none

/-- What has been read behind a text that begins between tags. -/
def run
    (text : List Char)
    (frames : List Frame) :
    Option (List Frame) :=
  (text.foldlM (take holdsText) (none, frames)).bind settle

/-- The document of a text: the only element in it. -/
def ofText?
    (text : String) :
    Option XmlElement :=
  match run holdsText text.toList [⟨"", [], []⟩] with
  | some [⟨_, _, [root]⟩] => some root
  | _ => none

end Reader

/-! ## Documents that can be read back -/

/-- Whether a text can be the tag of an element. -/
def isTag
    (tag : String) :
    Bool :=
  !tag.toList.contains '>' && tag.toList.head? != some '/' && tag.toList.head? != some '?'

mutual

/-- Whether those elements of a document hold text that are expected to, and all have tags. -/
def fits
    (holdsText : String → Bool) :
    XmlElement → Bool
  | .text tag _ => isTag tag && holdsText tag
  | .parent tag children => isTag tag && !holdsText tag && allFit holdsText children

/-- Whether neighbouring elements hold text where they are expected to. -/
def allFit
    (holdsText : String → Bool) :
    List XmlElement → Bool
  | [] => true
  | first :: rest => first.fits holdsText && allFit holdsText rest

end

theorem allFit_iff
    {holdsText : String → Bool}
    {elements : List XmlElement} :
    allFit holdsText elements ↔ ∀ element ∈ elements, element.fits holdsText := by
  induction elements with
  | nil => simp [allFit]
  | cons first rest inductionHypothesis => simp [allFit, inductionHypothesis]

/-- An escaped character is read as the character. -/
theorem unescape_append
    (character : Char)
    (rest : List Char) :
    unescape (escape character ++ rest) = character :: unescape rest := by
  unfold escape
  split
  · next same => rw [eq_of_beq same]; rfl
  split
  · next same => rw [eq_of_beq same]; rfl
  split
  · next same => rw [eq_of_beq same]; rfl
  split
  · next same => rw [eq_of_beq same]; rfl
  split
  · next same => rw [eq_of_beq same]; rfl
  · next noReference _ _ =>
      -- Only an ampersand begins a reference.
      have different : character ≠ '&' := by simpa using noReference
      rw [List.singleton_append]
      conv => lhs; unfold unescape
      split <;> simp_all

/-- Escaped text is read as the text. -/
theorem unescape_escaped
    (text : String) :
    unescape (escaped text).toList = text.toList := by
  rw [escaped, String.toList_ofList]
  generalize text.toList = characters
  induction characters with
  | nil => rfl
  | cons character rest inductionHypothesis =>
      rw [List.flatMap_cons, unescape_append, inductionHypothesis]

/-- No tag begins inside of escaped text. -/
theorem not_mem_escaped
    (text : String) :
    '<' ∉ (escaped text).toList := by
  rw [escaped, String.toList_ofList, List.mem_flatMap]
  rintro ⟨character, -, member⟩
  unfold escape at member
  split at member
  · exact absurd member (by decide)
  split at member
  · exact absurd member (by decide)
  split at member
  · exact absurd member (by decide)
  split at member
  · exact absurd member (by decide)
  split at member
  · exact absurd member (by decide)
  · next noTag _ _ _ _ =>
      rw [List.mem_singleton] at member
      exact noTag (by rw [← member]; rfl)

/-! ## Reading documents back -/

section Texts

variable
  {holdsText : String → Bool}
  {rest : List Char}
  {frame : Frame}
  {frames : List Frame}

theorem foldlM_cons
    (state : Option (List Char) × List Frame)
    (character : Char) :
    (character :: rest).foldlM (take holdsText) state =
      (take holdsText state character).bind (rest.foldlM (take holdsText)) := rfl

/-- A character between tags is taken as text. -/
theorem run_cons
    {character : Char}
    (noTag : character ≠ '<') :
    run holdsText (character :: rest) frames =
      run holdsText rest (takeText holdsText character frames) := by
  simp only [run, List.foldlM_cons, take, if_neg noTag]
  rfl

/-- The text of an element that holds text is kept. -/
theorem run_text
    {text : List Char}
    (noTag : '<' ∉ text)
    (holds : holdsText frame.tag) :
    run holdsText (text ++ rest) (frame :: frames) =
      run holdsText rest ({ frame with content := frame.content ++ text } :: frames) := by
  induction text generalizing frame with
  | nil => rw [List.nil_append, List.append_nil]
  | cons character others inductionHypothesis =>
      obtain ⟨different, noTagLater⟩ := not_or.mp (mt List.mem_cons.mpr noTag)
      have later := @inductionHypothesis { frame with content := frame.content ++ [character] }
        noTagLater holds
      rw [List.append_assoc, List.singleton_append] at later
      rw [List.cons_append, run_cons (Ne.symm different), takeText, if_pos holds]
      exact later

/-- The text between the elements of another one is dropped. -/
theorem run_blank
    {text : List Char}
    (noTag : '<' ∉ text)
    (dropsText : holdsText frame.tag = false) :
    run holdsText (text ++ rest) (frame :: frames) = run holdsText rest (frame :: frames) := by
  induction text with
  | nil => rfl
  | cons character others inductionHypothesis =>
      obtain ⟨different, noTagLater⟩ := not_or.mp (mt List.mem_cons.mpr noTag)
      rw [List.cons_append, run_cons (Ne.symm different), takeText, dropsText]
      exact inductionHypothesis noTagLater

theorem run_newLine
    (level : Nat)
    (dropsText : holdsText frame.tag = false) :
    run holdsText ((JsonValue.newLine level).toList ++ rest) (frame :: frames) =
      run holdsText rest (frame :: frames) :=
  run_blank (by simp [JsonValue.newLine]) dropsText

/-- A tag is taken up to its end. -/
theorem run_tag
    {tag : List Char}
    (noEnd : '>' ∉ tag) :
    run holdsText ('<' :: (tag ++ '>' :: rest)) frames =
      (takeTag holdsText frames tag).bind (run holdsText rest) := by
  have inside (read : List Char) :
      (tag ++ '>' :: rest).foldlM (take holdsText) (some read, frames) =
        (takeTag holdsText frames (read ++ tag)).bind fun behind =>
          rest.foldlM (take holdsText) (none, behind) := by
    induction tag generalizing read with
    | nil =>
        rw [List.nil_append, List.append_nil, foldlM_cons]
        simp only [take, ↓reduceIte, Option.bind_map]
        rfl
    | cons character others inductionHypothesis =>
        obtain ⟨different, noEndLater⟩ := not_or.mp (mt List.mem_cons.mpr noEnd)
        rw [List.cons_append, foldlM_cons, List.append_cons read]
        simp only [take, if_neg (Ne.symm different), Option.bind_some]
        exact inductionHypothesis noEndLater (read ++ [character])
  have begun : take holdsText (none, frames) '<' = some (some [], frames) := rfl
  rw [run, foldlM_cons, begun, Option.bind_some, inside, List.nil_append, Option.bind_assoc]
  rfl

/-- What makes a text a tag. -/
theorem isTag_iff
    {tag : String} :
    isTag tag ↔
      '>' ∉ tag.toList ∧ tag.toList.head? ≠ some '/' ∧ tag.toList.head? ≠ some '?' := by
  simp [isTag, and_assoc]

/-- Behind the tag that begins it an element is open. -/
theorem run_openTag
    {tag : String}
    (hasTag : isTag tag) :
    run holdsText ((openTag tag).toList ++ rest) frames =
      run holdsText rest (⟨tag, [], []⟩ :: frames) := by
  obtain ⟨noEnd, notEnding, notDeclaration⟩ := isTag_iff.mp hasTag
  have spelled : (openTag tag).toList ++ rest = '<' :: (tag.toList ++ '>' :: rest) := by
    simp [openTag]
  have opened : takeTag holdsText frames tag.toList = some (⟨tag, [], []⟩ :: frames) := by
    unfold takeTag
    split
    · next same => exact absurd (by rw [same]; rfl) notDeclaration
    · next same => exact absurd (by rw [same]; rfl) notEnding
    · rw [String.ofList_toList]
  rw [spelled, run_tag noEnd, opened, Option.bind_some]

/-- Behind the tag that ends it an element stands in the one around it. -/
theorem run_closeTag
    {tag : String}
    (hasTag : isTag tag)
    (content : List Char)
    (children : List XmlElement)
    (outer : Frame) :
    run holdsText ((closeTag tag).toList ++ rest) (⟨tag, content, children⟩ :: outer :: frames) =
      run holdsText rest
        (outer.add (Frame.element holdsText ⟨tag, content, children⟩) :: frames) := by
  obtain ⟨noEnd, -, -⟩ := isTag_iff.mp hasTag
  have spelled : (closeTag tag).toList ++ rest =
      '<' :: (('/' :: tag.toList) ++ '>' :: rest) := by
    simp [closeTag]
  have noEndBehind : '>' ∉ '/' :: tag.toList := by
    simpa using noEnd
  have closed :
      takeTag holdsText (⟨tag, content, children⟩ :: outer :: frames) ('/' :: tag.toList) =
        some (outer.add (Frame.element holdsText ⟨tag, content, children⟩) :: frames) := by
    simp only [takeTag, String.ofList_toList, ↓reduceIte]
  rw [spelled, run_tag noEndBehind, closed, Option.bind_some]

end Texts

section Documents

variable {holdsText : String → Bool}

mutual

/-- A document is read back wherever an element can stand. -/
theorem run_render
    (level : Nat)
    (frame : Frame)
    {rest : List Char}
    {frames : List Frame}
    (dropsText : holdsText frame.tag = false) :
    ∀ element : XmlElement, element.fits holdsText →
      run holdsText ((element.render level).toList ++ rest) (frame :: frames) =
        run holdsText rest (frame.add element :: frames)
  | .text tag content, isFit => by
      simp only [fits, Bool.and_eq_true] at isFit
      obtain ⟨hasTag, holds⟩ := isFit
      have closed : Frame.element holdsText ⟨tag, [] ++ (escaped content).toList, []⟩ =
          .text tag content := by
        simp [Frame.element, holds, unescape_escaped]
      simp only [render, String.toList_append, List.append_assoc]
      rw [run_newLine level dropsText, run_openTag hasTag, run_text (not_mem_escaped content) holds,
        run_closeTag hasTag, closed]
  | .parent tag children, isFit => by
      simp only [fits, Bool.and_eq_true, Bool.not_eq_true'] at isFit
      obtain ⟨⟨hasTag, drops⟩, areFit⟩ := isFit
      have closed : Frame.element holdsText ⟨tag, [], [] ++ children⟩ = .parent tag children := by
        simp [Frame.element, drops]
      simp only [render, String.toList_append, List.append_assoc]
      rw [run_newLine level dropsText, run_openTag hasTag,
        run_renderAll (level + 1) ⟨tag, [], []⟩ drops children areFit,
        run_newLine level drops, run_closeTag hasTag, closed]

/-- Neighbouring elements are read back behind those before them. -/
theorem run_renderAll
    (level : Nat)
    (frame : Frame)
    {rest : List Char}
    {frames : List Frame}
    (dropsText : holdsText frame.tag = false) :
    ∀ elements : List XmlElement, allFit holdsText elements →
      run holdsText ((renderAll level elements).toList ++ rest) (frame :: frames) =
        run holdsText rest ({ frame with children := frame.children ++ elements } :: frames)
  | [], _ => by rw [List.append_nil]; rfl
  | first :: others, areFit => by
      simp only [allFit, Bool.and_eq_true] at areFit
      obtain ⟨isFit, othersFit⟩ := areFit
      simp only [renderAll, String.toList_append, List.append_assoc]
      rw [run_render level frame dropsText first isFit,
        run_renderAll level (frame.add first) dropsText others othersFit]
      simp [Frame.add]

end

/-- The text of a document is read back as the document, behind a declaration too. -/
theorem ofText?_render
    {root : XmlElement}
    (isFit : root.fits holdsText)
    (dropsText : holdsText "" = false) :
    ofText? holdsText (xmlDeclaration ++ root.render 0 ++ "\n") = some root := by
  have noEnd : '>' ∉ "?xml version=\"1.0\" encoding=\"UTF-8\"?".toList := by decide
  have declared (rest : List Char) (frames : List Frame) :
      run holdsText (xmlDeclaration.toList ++ rest) frames = run holdsText rest frames :=
    run_tag noEnd
  have newline : ("\n" : String).toList = ['\n'] := rfl
  have noTag : '<' ∉ ['\n'] := by decide
  have ended : run holdsText ['\n'] [⟨"", [], [root]⟩] = some [⟨"", [], [root]⟩] :=
    run_blank noTag dropsText
  have read : run holdsText (xmlDeclaration ++ root.render 0 ++ "\n").toList [⟨"", [], []⟩] =
      some [⟨"", [], [root]⟩] := by
    simp only [String.toList_append, List.append_assoc, newline]
    rw [declared, run_render 0 ⟨"", [], []⟩ dropsText root isFit]
    exact ended
  rw [ofText?, read]

end Documents

/-! ## Rows -/

/-- The elements of a report that hold text. -/
def holdsText
    (tag : String) :
    Bool :=
  ["Name", "Filename", "Line", "Column"].contains tag

/-- The number that decimal digits spell. -/
def decimal?
    (text : String) :
    Option Nat :=
  if text.toList.all Char.isDigit then some (Nat.ofDigitChars 10 text.toList 0) else none

/-- The label that an element of a tag shows. -/
def label?
    (tag : String) :
    XmlElement → Option TypeLabel
  | .parent found
      [.text "Name" name,
        .parent "Pos" [.text "Filename" fileName, .text "Line" line, .text "Column" column]] =>
      if found = tag then do
        return ⟨name, ⟨fileName, ← decimal? line, ← decimal? column⟩⟩
      else
        none
  | _ => none

/-- The row that an element shows. -/
def row? : XmlElement → Option Row
  | .parent "Result" (interface :: implementers) => do
      return ⟨← label? "Interface" interface, ← implementers.mapM (label? "Implementers")⟩
  | _ => none

/-- The rows that a document shows. -/
def rows? : XmlElement → Option (List Row)
  | .parent "Results" rows => rows.mapM row?
  | _ => none

theorem fits_ofLabel
    (tag : String)
    (hasTag : isTag tag)
    (drops : holdsText tag = false)
    (label : TypeLabel) :
    (ofLabel tag label).fits holdsText := by
  have tags :
      isTag "Name" ∧ isTag "Pos" ∧ isTag "Filename" ∧ isTag "Line" ∧ isTag "Column" := by
    decide
  have texts :
      holdsText "Name" ∧ holdsText "Pos" = false ∧ holdsText "Filename" ∧ holdsText "Line" ∧
        holdsText "Column" := by
    decide
  simp [ofLabel, fits, allFit, hasTag, drops, tags, texts]

theorem fits_ofRow
    (row : Row) :
    (ofRow row).fits holdsText := by
  have interface := fits_ofLabel "Interface" (by decide) (by decide) row.interface
  have implementers : allFit holdsText (row.implementers.map (ofLabel "Implementers")) := by
    rw [allFit_iff]
    intro element member
    obtain ⟨label, -, rfl⟩ := List.mem_map.mp member
    exact fits_ofLabel "Implementers" (by decide) (by decide) label
  have hasTag : isTag "Result" := by decide
  simp [ofRow, fits, allFit, interface, implementers, hasTag, holdsText]

theorem decimal?_toString
    (value : Nat) :
    decimal? (toString value) = some value := by
  rw [decimal?, if_pos (List.all_eq_true.mpr (isDigit_toString value)), ofDigitChars_toString]

theorem label?_ofLabel
    (tag : String)
    (label : TypeLabel) :
    label? tag (ofLabel tag label) = some label := by
  simp only [ofLabel, label?, ↓reduceIte, decimal?_toString]
  rfl

theorem row?_ofRow
    (row : Row) :
    row? (ofRow row) = some row := by
  have labels := mapM_map_of_reads (label?_ofLabel "Implementers") row.implementers
  simp [ofRow, row?, label?_ofLabel, labels]

end XmlElement

/-- The rows of an XML report. -/
def readXml
    (text : String) :
    Option (List Row) :=
  (XmlElement.ofText? XmlElement.holdsText text).bind XmlElement.rows?

/-- The rows of an XML report can be read back. -/
theorem readXml_xml
    (rows : List Row) :
    readXml (xml rows) = some rows := by
  have isFit : (XmlElement.parent "Results" (rows.map XmlElement.ofRow)).fits
      XmlElement.holdsText := by
    have results : XmlElement.allFit XmlElement.holdsText (rows.map XmlElement.ofRow) := by
      rw [XmlElement.allFit_iff]
      intro element member
      obtain ⟨row, -, rfl⟩ := List.mem_map.mp member
      exact XmlElement.fits_ofRow row
    have hasTag : XmlElement.isTag "Results" := by decide
    simp [XmlElement.fits, results, hasTag, XmlElement.holdsText]
  rw [readXml, xml, XmlElement.ofText?_render isFit (by decide), Option.bind_some]
  exact mapM_map_of_reads XmlElement.row?_ofRow rows

end Implementers.Report
