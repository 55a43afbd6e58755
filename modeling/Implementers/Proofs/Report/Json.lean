import Implementers.Report.Json
import Mathlib.Data.Option.Basic

namespace Implementers.Report

/-!
# Reading JSON reports

A reader takes a JSON document one character at a time.  It knows the lists and objects that are
open, and in which part of a string or a number it is.  It reads every document back that the report
can be made of, whatever characters its strings hold, and the rows of a report can be taken out of
the document that shows them.
-/

/-- Numbers are written with digits. -/
theorem isDigit_toString
    (value : Nat) :
    ∀ digit ∈ (toString value).toList, digit.isDigit := by
  rw [Nat.toString_eq_repr, Nat.repr_eq_ofList_toDigits, String.toList_ofList]
  exact fun digit member => Nat.isDigit_of_mem_toDigits (by decide) (by decide) member

/-- The digits of a number spell it. -/
theorem ofDigitChars_toString
    (value : Nat) :
    Nat.ofDigitChars 10 (toString value).toList 0 = value := by
  rw [Nat.toString_eq_repr, Nat.repr_eq_ofList_toDigits, String.toList_ofList]
  exact Nat.ofDigitChars_toDigits (by decide) (by decide)

/-- Every number has a digit. -/
theorem toList_toString_ne_nil
    (value : Nat) :
    (toString value).toList ≠ [] := by
  rw [Nat.toString_eq_repr, Nat.repr_eq_ofList_toDigits, String.toList_ofList]
  exact Nat.toDigits_ne_nil

/-- Values that can be read back one by one can be read back as a list. -/
theorem mapM_map_of_reads
    {written : α → β}
    {read? : β → Option α}
    (reads : ∀ value, read? (written value) = some value)
    (values : List α) :
    (values.map written).mapM read? = some values := by
  induction values with
  | nil => rfl
  | cons value others inductionHypothesis =>
      rw [List.map_cons, List.mapM_cons, reads, inductionHypothesis]
      rfl

namespace JsonValue

/-! ## The reader -/

/-- What has been read: the list or object that is open, and what is open around it. -/
inductive Context where
  | document (value? : Option JsonValue)
  | list (items : List JsonValue) (outer : Context)
  | record (fields : List (String × JsonValue)) (name? : Option String) (outer : Context)

namespace Context

/-- Put a value where the next one belongs.  In an object a field's name comes first. -/
def put
    (value : JsonValue) :
    Context → Option Context
  | .document none => some (.document (some value))
  | .document (some _) => none
  | .list items outer => some (.list (items ++ [value]) outer)
  | .record fields (some name) outer => some (.record (fields ++ [(name, value)]) none outer)
  | .record fields none outer =>
      match value with
      | .string name => some (.record fields (some name) outer)
      | _ => none

/-- The document that has been read, if nothing is open. -/
def value? : Context → Option JsonValue
  | .document value? => value?
  | _ => none

end Context

/-- Where the reader is: between values, or in some part of a number or a string. -/
inductive Mode where
  | between
  | number (value : Nat)
  | string (read : List Char)
  | escape (read : List Char)
  | code (read : List Char) (value left : Nat)

/-- The character that a letter stands for behind a backslash. -/
def unescape? : Char → Option Char
  | '"' => some '"'
  | '\\' => some '\\'
  | 'n' => some '\n'
  | 'r' => some '\r'
  | 't' => some '\t'
  | 'b' => some '\x08'
  | 'f' => some '\x0c'
  | _ => none

/-- The value of a digit of a character's number. -/
def hexValue
    (digit : Char) :
    Nat :=
  if digit.isDigit then digit.toNat - '0'.toNat else digit.toNat - 'a'.toNat + 10

/-- Take a character between values.  Blanks, commas and colons tell nothing. -/
def takeMark
    (character : Char)
    (context : Context) :
    Option (Mode × Context) :=
  if character.isDigit then
    some (.number (character.toNat - '0'.toNat), context)
  else
    match character with
    | ' ' | '\n' | ',' | ':' => some (.between, context)
    | '"' => some (.string [], context)
    | '[' => some (.between, .list [] context)
    | '\x7b' => some (.between, .record [] none context)
    | ']' =>
        match context with
        | .list items outer => (outer.put (.list items)).map (.between, ·)
        | _ => none
    | '\x7d' =>
        match context with
        | .record fields none outer => (outer.put (.record fields)).map (.between, ·)
        | _ => none
    | _ => none

/-- Take a character. -/
def take
    (state : Mode × Context)
    (character : Char) :
    Option (Mode × Context) :=
  let context := state.2
  match state.1 with
  | .between => takeMark character context
  | .number value =>
      if character.isDigit then
        some (.number (10 * value + (character.toNat - '0'.toNat)), context)
      else
        (context.put (.number value)).bind (takeMark character)
  | .string read =>
      if character = '"' then
        (context.put (.string (String.ofList read))).map (.between, ·)
      else if character = '\\' then
        some (.escape read, context)
      else
        some (.string (read ++ [character]), context)
  | .escape read =>
      if character = 'u' then
        some (.code read 0 3, context)
      else
        (unescape? character).map fun meant => (.string (read ++ [meant]), context)
  | .code read value left =>
      let next := 16 * value + hexValue character
      match left with
      | 0 => some (.string (read ++ [Char.ofNat next]), context)
      | left + 1 => some (.code read next left, context)

/-- What has been read at the end of a text: a number may end there, but no string. -/
def settle : Mode × Context → Option Context
  | (.between, context) => some context
  | (.number value, context) => context.put (.number value)
  | _ => none

/-- What has been read behind a text that begins between values. -/
def run
    (text : List Char)
    (context : Context) :
    Option Context :=
  (text.foldlM take (.between, context)).bind settle

/-- The document of a text. -/
def ofText?
    (text : String) :
    Option JsonValue :=
  (run text.toList (.document none)).bind Context.value?

/-! ## Reading documents back -/

/-- Whether a number ends in front of a text. -/
def EndsNumber
    (rest : List Char) :
    Prop :=
  ∀ character ∈ rest.head?, character.isDigit = false

section Texts

variable
  {rest : List Char}
  {context : Context}

theorem foldlM_cons
    (state : Mode × Context)
    (character : Char) :
    (character :: rest).foldlM take state = (take state character).bind (rest.foldlM take) := rfl

/-- A character between values is taken as such. -/
theorem run_cons
    (character : Char) :
    run (character :: rest) context =
      (takeMark character context).bind fun state => (rest.foldlM take state).bind settle := by
  simp only [run, foldlM_cons, take, Option.bind_assoc]

theorem run_newLine
    (level : Nat) :
    run ((newLine level).toList ++ rest) context = run rest context := by
  have blanks (count : Nat) :
      run (List.replicate count ' ' ++ rest) context = run rest context := by
    induction count with
    | zero => rfl
    | succ count inductionHypothesis => exact inductionHypothesis
  rw [newLine, String.toList_ofList]
  exact blanks (2 * level)

/-- The digits of a control character's number are read as the number. -/
theorem hexValue_digitChar :
    ∀ digit < 16, hexValue (Nat.digitChar digit) = digit := by
  decide

/-- An escaped character inside a string is read as the character. -/
theorem foldlM_escape
    (read : List Char)
    (character : Char) :
    (escape character ++ rest).foldlM take (.string read, context) =
      rest.foldlM take (.string (read ++ [character]), context) := by
  unfold escape
  split
  · next same => rw [eq_of_beq same]; rfl
  split
  · next same => rw [eq_of_beq same]; rfl
  split
  · next same => rw [eq_of_beq same]; rfl
  split
  · next same => rw [eq_of_beq same]; rfl
  split
  · next same => rw [eq_of_beq same]; rfl
  split
  · next same => rw [eq_of_beq same]; rfl
  split
  · next same => rw [eq_of_beq same]; rfl
  split
  · next control =>
      have high := hexValue_digitChar (character.toNat / 16) (by omega)
      have low := hexValue_digitChar (character.toNat % 16) (by omega)
      have zero : hexValue '0' = 0 := rfl
      have number : 16 * (character.toNat / 16) + character.toNat % 16 = character.toNat := by omega
      simp [take, hexDigits, zero, high, low, number]
  · next notQuote notBackslash _ _ _ _ _ _ =>
      have plain : take (.string read, context) character =
          some (.string (read ++ [character]), context) := by
        simp only [take, if_neg (by simpa using notQuote), if_neg (by simpa using notBackslash)]
      rw [List.singleton_append, foldlM_cons, plain]
      rfl

/-- A quoted string is read as the string. -/
theorem run_quote
    (text : String) :
    run ((quote text).toList ++ rest) context =
      (context.put (.string text)).bind (run rest) := by
  have inside (characters read : List Char) :
      (characters.flatMap escape ++ '"' :: rest).foldlM take (.string read, context) =
        (context.put (.string (String.ofList (read ++ characters)))).bind fun behind =>
          rest.foldlM take (.between, behind) := by
    induction characters generalizing read with
    | nil =>
        rw [List.flatMap_nil, List.nil_append, List.append_nil, foldlM_cons]
        simp only [take, ↓reduceIte, Option.bind_map]
        rfl
    | cons character others inductionHypothesis =>
        rw [List.flatMap_cons, List.append_assoc, foldlM_escape, inductionHypothesis,
          List.append_assoc, List.singleton_append]
  have spelled : (quote text).toList ++ rest =
      '"' :: (text.toList.flatMap escape ++ '"' :: rest) := by
    simp [quote]
  have begun : takeMark '"' context = some (.string [], context) := rfl
  rw [spelled, run_cons, begun, Option.bind_some, inside, List.nil_append, String.ofList_toList,
    Option.bind_assoc]
  rfl

/-- The digits of a number are read as the number, if it ends behind them. -/
theorem run_number
    (ends : EndsNumber rest)
    (value : Nat) :
    run ((toString value).toList ++ rest) context =
      (context.put (.number value)).bind (run rest) := by
  have digits (characters : List Char) (areDigits : ∀ digit ∈ characters, digit.isDigit)
      (value : Nat) :
      (characters ++ rest).foldlM take (.number value, context) =
        rest.foldlM take (.number (Nat.ofDigitChars 10 characters value), context) := by
    induction characters generalizing value with
    | nil => rfl
    | cons digit others inductionHypothesis =>
        obtain ⟨isDigit, areOthers⟩ := List.forall_mem_cons.mp areDigits
        rw [List.cons_append, foldlM_cons]
        simp only [take, isDigit, ↓reduceIte, Option.bind_some]
        exact inductionHypothesis areOthers _
  have behind (value : Nat) :
      (rest.foldlM take (.number value, context)).bind settle =
        (context.put (.number value)).bind (run rest) := by
    cases rest with
    | nil => cases found : context.put (.number value) <;> simp [settle, found, run]
    | cons character others =>
        have noDigit : character.isDigit = false := ends character rfl
        simp only [foldlM_cons, take, noDigit, Bool.false_eq_true, ↓reduceIte, Option.bind_assoc]
        refine Option.bind_congr fun found _ => ?_
        rw [run_cons]
  have areDigits := isDigit_toString value
  have spelled := ofDigitChars_toString value
  cases cut : (toString value).toList with
  | nil => exact absurd cut (toList_toString_ne_nil value)
  | cons first others =>
      rw [cut] at areDigits spelled
      obtain ⟨isDigit, areOthers⟩ := List.forall_mem_cons.mp areDigits
      have begun : takeMark first context = some (.number (first.toNat - '0'.toNat), context) := by
        simp only [takeMark, isDigit, ↓reduceIte]
      have whole : Nat.ofDigitChars 10 others (first.toNat - '0'.toNat) = value := by
        rw [← spelled]
        simp [Nat.ofDigitChars]
      rw [List.cons_append, run_cons, begun, Option.bind_some, digits others areOthers, behind,
        whole]

end Texts

section Documents

/-- A number ends in front of a new line. -/
theorem endsNumber_newLine
    (level : Nat)
    (rest : List Char) :
    EndsNumber ((newLine level).toList ++ rest) := by
  simp [EndsNumber, newLine]

/-- A number ends in front of further items of a list. -/
theorem endsNumber_renderItems
    (level : Nat)
    (items : List JsonValue)
    {rest : List Char}
    (ends : EndsNumber rest) :
    EndsNumber ((renderItems level items).toList ++ rest) := by
  cases items with
  | nil => simpa [renderItems] using ends
  | cons first others => simp [renderItems, EndsNumber]

/-- A number ends in front of further fields of an object. -/
theorem endsNumber_renderFields
    (level : Nat)
    (fields : List (String × JsonValue))
    {rest : List Char}
    (ends : EndsNumber rest) :
    EndsNumber ((renderFields level fields).toList ++ rest) := by
  cases fields with
  | nil => simpa [renderFields] using ends
  | cons first others => simp [renderFields, EndsNumber]

section Marks

variable
  {rest : List Char}
  {context : Context}

theorem run_comma : run (',' :: rest) context = run rest context := rfl

theorem run_colon : run (':' :: ' ' :: rest) context = run rest context := rfl

theorem run_openList : run ('[' :: rest) context = run rest (.list [] context) := rfl

theorem run_openRecord : run ('\x7b' :: rest) context = run rest (.record [] none context) := rfl

/-- A closed list is put where the next value belongs. -/
theorem run_closeList
    (items : List JsonValue) :
    run (']' :: rest) (.list items context) = (context.put (.list items)).bind (run rest) := by
  have closed : takeMark ']' (.list items context) =
      (context.put (.list items)).map (.between, ·) := rfl
  rw [run_cons, closed, Option.bind_map]
  rfl

/-- A closed object is put where the next value belongs. -/
theorem run_closeRecord
    (fields : List (String × JsonValue)) :
    run ('\x7d' :: rest) (.record fields none context) =
      (context.put (.record fields)).bind (run rest) := by
  have closed : takeMark '\x7d' (.record fields none context) =
      (context.put (.record fields)).map (.between, ·) := rfl
  rw [run_cons, closed, Option.bind_map]
  rfl

end Marks

mutual

/-- A document is read back wherever a value can stand. -/
theorem run_render
    (level : Nat)
    {rest : List Char}
    {context : Context}
    (ends : EndsNumber rest) :
    ∀ value : JsonValue,
      run ((value.render level).toList ++ rest) context = (context.put value).bind (run rest)
  | .string text => run_quote text
  | .number value => run_number ends value
  | .list [] => by
      simp only [render, String.reduceToList, List.cons_append, List.nil_append]
      rw [run_openList, run_closeList]
  | .list (first :: others) => by
      have endsLater := endsNumber_newLine level (']' :: rest)
      have endsFirst := endsNumber_renderItems (level + 1) others endsLater
      simp only [render, String.toList_append, String.reduceToList, List.append_assoc,
        List.cons_append, List.nil_append]
      rw [run_openList, run_newLine, run_render (level + 1) endsFirst first, Context.put,
        Option.bind_some, run_renderItems (level + 1) endsLater others, run_newLine, run_closeList]
      rfl
  | .record [] => by
      simp only [render, String.reduceToList, List.cons_append, List.nil_append]
      rw [run_openRecord, run_closeRecord]
  | .record ((name, first) :: others) => by
      have endsLater := endsNumber_newLine level ('\x7d' :: rest)
      have endsFirst := endsNumber_renderFields (level + 1) others endsLater
      simp only [render, String.toList_append, String.reduceToList, List.append_assoc,
        List.cons_append, List.nil_append]
      rw [run_openRecord, run_newLine, run_quote, Context.put, Option.bind_some, run_colon,
        run_render (level + 1) endsFirst first, Context.put, Option.bind_some,
        run_renderFields (level + 1) endsLater others, run_newLine, run_closeRecord]
      rfl

/-- The items of a list are read back behind those before them. -/
theorem run_renderItems
    (level : Nat)
    {rest : List Char}
    {outer : Context}
    (ends : EndsNumber rest) :
    ∀ items before : List JsonValue,
      run ((renderItems level items).toList ++ rest) (.list before outer) =
        run rest (.list (before ++ items) outer)
  | [], before => by rw [List.append_nil]; rfl
  | first :: others, before => by
      have endsFirst := endsNumber_renderItems level others ends
      simp only [renderItems, String.toList_append, String.reduceToList, List.append_assoc,
        List.cons_append, List.nil_append]
      rw [run_comma, run_newLine, run_render level endsFirst first, Context.put, Option.bind_some,
        run_renderItems level ends others, List.append_assoc, List.singleton_append]

/-- The fields of an object are read back behind those before them. -/
theorem run_renderFields
    (level : Nat)
    {rest : List Char}
    {outer : Context}
    (ends : EndsNumber rest) :
    ∀ fields before : List (String × JsonValue),
      run ((renderFields level fields).toList ++ rest) (.record before none outer) =
        run rest (.record (before ++ fields) none outer)
  | [], before => by rw [List.append_nil]; rfl
  | (name, first) :: others, before => by
      have endsFirst := endsNumber_renderFields level others ends
      simp only [renderFields, String.toList_append, String.reduceToList, List.append_assoc,
        List.cons_append, List.nil_append]
      rw [run_comma, run_newLine, run_quote, Context.put, Option.bind_some, run_colon,
        run_render level endsFirst first, Context.put, Option.bind_some,
        run_renderFields level ends others, List.append_assoc, List.singleton_append]

end

/-- The text of a document is read back as the document, also with a newline behind it. -/
theorem ofText?_render
    (level : Nat)
    (value : JsonValue) :
    ofText? (value.render level ++ "\n") = some value := by
  have ends : EndsNumber ['\n'] := by simp [EndsNumber]
  have newline : ("\n" : String).toList = ['\n'] := rfl
  rw [ofText?, String.toList_append, newline, run_render level ends]
  rfl

end Documents

/-! ## Rows -/

/-- The label that a document shows. -/
def label? : JsonValue → Option TypeLabel
  | .record
      [("Name", .string name),
        ("Pos", .record
          [("Filename", .string fileName), ("Line", .number line), ("Column", .number column)])] =>
      some ⟨name, ⟨fileName, line, column⟩⟩
  | _ => none

/-- The row that a document shows. -/
def row? : JsonValue → Option Row
  | .record [("Interface", interface), ("Implementers", .list implementers)] => do
      return ⟨← label? interface, ← implementers.mapM label?⟩
  | _ => none

/-- The rows that a document shows. -/
def rows? : JsonValue → Option (List Row)
  | .list rows => rows.mapM row?
  | _ => none

theorem label?_ofLabel
    (label : TypeLabel) :
    label? (ofLabel label) = some label := rfl

theorem row?_ofRow
    (row : Row) :
    row? (ofRow row) = some row := by
  have labels := mapM_map_of_reads label?_ofLabel row.implementers
  simp [ofRow, row?, label?_ofLabel, labels]

end JsonValue

/-- The rows of a JSON report. -/
def readJson
    (text : String) :
    Option (List Row) :=
  (JsonValue.ofText? text).bind JsonValue.rows?

/-- The rows of a JSON report can be read back. -/
theorem readJson_json
    (rows : List Row) :
    readJson (json rows) = some rows := by
  rw [readJson, json, JsonValue.ofText?_render]
  exact mapM_map_of_reads JsonValue.row?_ofRow rows

end Implementers.Report
