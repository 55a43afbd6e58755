import Implementers.Proofs.Syntax.TypeRules

namespace Implementers.Syntax

/-!
# Entries of lists

A parameter, a field and an interface element may begin with an identifier that names it, or with
one that begins its type.  What stands behind the identifier tells which it is.
-/

namespace TypeForm

/-- The kind of the first lexeme of a type expression. -/
def firstKind : TypeForm → Kind
  | .name _ _ _ => .ident
  | .pointer _ => .star
  | .slice _ | .array _ _ => .leftBracket
  | .map _ _ => .mapKeyword
  | .chan .receive _ => .arrow
  | .chan _ _ => .chanKeyword
  | .func _ _ => .funcKeyword
  | .struct _ => .structKeyword
  | .interface _ => .interfaceKeyword
  | .paren _ => .leftParen

theorem startsType_firstKind
    (form : TypeForm) :
    form.firstKind.startsType = true := by
  cases form with
  | chan direction => cases direction <;> rfl
  | _ => rfl

/-- Only a type name begins with an identifier. -/
theorem eq_name_of_firstKind
    {form : TypeForm}
    (isIdent : form.firstKind = .ident) :
    ∃ qualifier ident args, form = .name qualifier ident args := by
  cases form with
  | name qualifier ident args => exact ⟨qualifier, ident, args, rfl⟩
  | chan direction => cases direction <;> cases isIdent
  | _ => cases isIdent

theorem exists_lexemes_eq
    (style : ItemStyle)
    (form : TypeForm) :
    ∃ first rest, form.lexemes style = first :: rest ∧ first.kind = form.firstKind := by
  cases form with
  | name qualifier => cases qualifier <;> exact ⟨_, _, rfl, rfl⟩
  | chan direction => cases direction <;> exact ⟨_, _, rfl, rfl⟩
  | _ => exact ⟨_, _, rfl, rfl⟩

end TypeForm

open Grammar

theorem TypeForm.heads
    (style : ItemStyle)
    (form : TypeForm) :
    Heads Kind.startsType (form.lexemes style) := by
  obtain ⟨first, rest, lexemes, isFirst⟩ := form.exists_lexemes_eq style
  exact ⟨first, rest, lexemes, isFirst ▸ form.startsType_firstKind⟩

theorem typesHead
    (style : ItemStyle)
    (types : List TypeForm) :
    ∀ piece ∈ typesLexemes style types, Heads Kind.startsType piece := by
  induction types with
  | nil => exact List.forall_mem_nil _
  | cons first rest inductionHypothesis =>
      exact List.forall_mem_cons.mpr ⟨first.heads style, inductionHypothesis⟩

theorem paramsHead
    (style : ItemStyle) :
    ∀ params : List ParamForm, ∀ piece ∈ paramsLexemes style params, Heads (· != .rightParen) piece
  | [] => List.forall_mem_nil _
  | .mk name variadic type :: rest => by
      refine List.forall_mem_cons.mpr ⟨?_, paramsHead style rest⟩
      cases name with
      | some ident => exact ⟨_, _, rfl, rfl⟩
      | none =>
          cases variadic with
          | true => exact ⟨_, _, rfl, rfl⟩
          | false =>
              exact (type.heads style).imp fun kind starts => by
                cases kind <;> first | rfl | cases starts

theorem fieldsHead
    (style : ItemStyle) :
    ∀ fields : List FieldForm, ∀ piece ∈ fieldsLexemes style fields,
      Heads beginsItem piece
  | [] => List.forall_mem_nil _
  | .named _ _ _ _ :: rest =>
      List.forall_mem_cons.mpr ⟨⟨_, _, rfl, rfl⟩, fieldsHead style rest⟩
  | .embedded starred qualifier _ _ _ :: rest => by
      refine List.forall_mem_cons.mpr ⟨?_, fieldsHead style rest⟩
      cases starred <;> cases qualifier <;> exact ⟨_, _, rfl, rfl⟩

theorem TermsForm.heads
    (style : ItemStyle)
    (terms : TermsForm) :
    Heads beginsItem (terms.lexemes style) := by
  have typed (type : TypeForm) : Heads beginsItem (type.lexemes style) :=
    (type.heads style).imp fun kind starts => by
      cases kind <;> first | rfl | cases starts
  cases terms with
  | last tilde type =>
      cases tilde with
      | true => exact ⟨_, _, rfl, rfl⟩
      | false => exact typed type
  | more tilde type rest =>
      cases tilde with
      | true => exact ⟨_, _, rfl, rfl⟩
      | false => exact (typed type).append _

theorem elemsHead
    (style : ItemStyle) :
    ∀ elems : List ElemForm, ∀ piece ∈ elemsLexemes style elems,
      Heads beginsItem piece
  | [] => List.forall_mem_nil _
  | .method _ _ _ :: rest =>
      List.forall_mem_cons.mpr ⟨⟨_, _, rfl, rfl⟩, elemsHead style rest⟩
  | .terms terms :: rest =>
      List.forall_mem_cons.mpr ⟨terms.heads style, elemsHead style rest⟩

namespace Cursor

variable {cursor : Cursor} {behind : List Lexeme}

theorem peek?_zero_form
    {style : ItemStyle}
    {form : TypeForm}
    (coming : cursor.coming = form.lexemes style ++ behind) :
    cursor.peek? 0 = some form.firstKind := by
  obtain ⟨first, rest, lexemes, isFirst⟩ := form.exists_lexemes_eq style
  rw [peek?_eq, coming, lexemes]
  simp [isFirst]

section Named

variable
  {style : ItemStyle}
  {ident : Lexeme}
  {form : TypeForm}
  (coming : cursor.coming = ident :: (form.lexemes style ++ behind))

include coming

/-- The type behind a name begins with its first kind. -/
theorem peek?_one_named :
    cursor.peek? 1 = some form.firstKind := by
  obtain ⟨first, rest, lexemes, isFirst⟩ := form.exists_lexemes_eq style
  rw [peek?_eq, coming, lexemes]
  simp [isFirst]

/-- Brackets behind a name begin a slice or array type. -/
theorem identThenArrayType_named
    (bracket : form.firstKind = .leftBracket) :
    cursor.identThenArrayType = true := by
  cases form with
  | slice elem => exact identThenArrayType_eq coming .nil
  | array length elem =>
      obtain ⟨first, rest, lexemes, starts⟩ := elem.heads style
      rw [identThenArrayType_eq coming (length.balanced .nil), lexemes]
      simpa using starts
  | chan direction => cases direction <;> cases bracket
  | _ => cases bracket

/-- An identifier with a type behind it names a parameter. -/
theorem namesParam_named : namesParam cursor = true := by
  have starts := form.startsType_firstKind
  have isArray := identThenArrayType_named coming
  rw [namesParam, peek?_one_named coming]
  cases kind : form.firstKind <;> rw [kind] at starts isArray <;> simp_all [Kind.startsType]

/-- An identifier with a type behind it names a field. -/
theorem embedsField_named : embedsField cursor = false := by
  have starts := form.startsType_firstKind
  have isArray := identThenArrayType_named coming
  rw [embedsField, peek?_one_named coming]
  cases kind : form.firstKind <;> rw [kind] at starts isArray <;> simp_all [Kind.startsType]

end Named

section Unnamed

variable
  {qualifier : Option Identifier}
  {ident : Identifier}
  {pieces : List (List Lexeme)}
  {stop : Lexeme}
  (coming : cursor.coming =
    ident.lexemesBehind qualifier ++ inBrackets pieces ++ stop :: behind)
  (balanced : ∀ piece ∈ pieces, Balanced piece)
  (begin : ∀ piece ∈ pieces, Heads Kind.startsType piece)

include coming balanced begin

/-- What stands behind the first identifier of a type name. -/
theorem peek?_one_unnamed
    (notStart : stop.kind.startsType = false) :
    cursor.peek? 1 = some .dot ∨
      cursor.peek? 1 = some .leftBracket ∧ cursor.identThenArrayType = false ∨
      cursor.peek? 1 = some stop.kind := by
  cases qualifier with
  | some package =>
      refine .inl ?_
      rw [peek?_eq, coming]
      rfl
  | none =>
      cases pieces with
      | nil =>
          refine .inr (.inr ?_)
          rw [peek?_eq, coming]
          rfl
      | cons piece rest =>
          refine .inr (.inl ⟨by rw [peek?_eq, coming]; rfl, ?_⟩)
          have comes : cursor.coming = ident.lexeme :: .ofKind .leftBracket ::
              (commaSeparated (piece :: rest) ++ .ofKind .rightBracket :: stop :: behind) := by
            rw [coming]
            simp [Identifier.lexemesBehind, inBrackets]
          obtain ⟨first, others, rfl, _⟩ := begin piece List.mem_cons_self
          rw [identThenArrayType_eq comes (.commaSeparated balanced)]
          simpa [commaSeparated] using notStart

/-- A type name alone is no name of a parameter. -/
theorem namesParam_unnamed
    (ends : stop.kind.endsType = true) :
    namesParam cursor = false := by
  have notStart := Kind.not_startsType_of_endsType ends
  rcases peek?_one_unnamed coming balanced begin notStart with next | ⟨next, notArray⟩ | next
  · simp [namesParam, next]
  · simp [namesParam, next, notArray]
  · rw [namesParam, next]
    cases kind : stop.kind <;> rw [kind] at ends <;> first | rfl | cases ends

/-- A type name alone is an embedded field. -/
theorem embedsField_unnamed
    (ends : stop.kind.endsField = true) :
    embedsField cursor = true := by
  have notStart := Kind.not_startsType_of_endsType (Kind.endsType_of_endsField ends)
  rcases peek?_one_unnamed coming balanced begin notStart with next | ⟨next, notArray⟩ | next
  · simp [embedsField, next]
  · simp [embedsField, next, notArray]
  · rw [embedsField, next]
    cases kind : stop.kind <;> rw [kind] at ends <;> first | rfl | cases ends

/-- A type name alone is no method. -/
theorem peek?_one_ne_leftParen
    (ends : stop.kind.endsType = true) :
    cursor.peek? 1 ≠ some .leftParen := by
  have notStart := Kind.not_startsType_of_endsType ends
  rcases peek?_one_unnamed coming balanced begin notStart with next | ⟨next, _⟩ | next <;>
    rw [next]
  · nofun
  · nofun
  · intro isParen
    rw [Option.some.inj isParen] at ends
    cases ends

end Unnamed

end Cursor

namespace Grammar

open Cursor

/-! ## Parameters -/

/-- The name of a parameter, if the identifier that comes next is one. -/
def naming : Rule := fun opened =>
  if opened.sees .ident && namesParam opened then name opened else opened

section Parameters

variable
  {style : ItemStyle}
  (regular : style.Regular)
  (form : TypeForm)
  {behind : List Lexeme}
  (stops : Heads Kind.endsType behind)

include regular stops

/-- A type expression alone does not name a parameter. -/
theorem names_eq_false
    {cursor : Cursor}
    (coming : cursor.coming = form.lexemes style ++ behind) :
    (cursor.sees .ident && namesParam cursor) = false := by
  obtain ⟨stop, others, rfl, ends⟩ := stops
  by_cases isIdent : form.firstKind = .ident
  · obtain ⟨qualifier, ident, args, rfl⟩ := TypeForm.eq_name_of_firstKind isIdent
    rw [namesParam_unnamed coming (typesBalanced regular args) (typesHead style args) ends,
      Bool.and_false]
  · simp [sees, peek?_zero_form coming, isIdent]

/-- A parameter is named if its form is. -/
theorem Reads.naming
    (name : Option Identifier)
    (variadic : Bool) :
    Reads Grammar.naming (name.toList.map Identifier.lexeme)
      (name.toList.map fun ident => .name ident.ident)
      ((if variadic then [.ofKind .ellipsis] else []) ++ form.lexemes style ++ behind) := by
  cases name with
  | none =>
      refine nothing.congr fun cursor coming => ?_
      have unnamed : (cursor.sees .ident && namesParam cursor) = false := by
        cases variadic with
        | true => simp [sees, peek?_eq, coming]
        | false => exact names_eq_false regular form stops coming
      simp [Grammar.naming, unnamed]
  | some ident =>
      refine (Reads.name ident).congr fun cursor coming => ?_
      have named : namesParam cursor = true := by
        cases variadic with
        | true => simp [namesParam, peek?_eq, coming]
        | false => exact namesParam_named coming
      simp [Grammar.naming, named, sees, peek?_eq, coming, Identifier.lexeme]

/-- A parameter is read with its name, its ellipsis and its type. -/
theorem Reads.param
    {type : TypeExpr}
    (reads : Reads typeRule (form.lexemes style) [.type type] behind)
    (name : Option Identifier)
    (variadic : Bool) :
    Reads (Grammar.param typeRule) ((ParamForm.mk name variadic form).lexemes style)
      [.param (.mk here (name.map Identifier.ident) variadic type)] behind := by
  have ellipsis : Reads (Cursor.eat .ellipsis) (if variadic then [.ofKind .ellipsis] else [])
      (if variadic then Lexeme.parts (.ofKind .ellipsis) else [])
      (form.lexemes style ++ behind) := by
    cases variadic with
    | true => exact eat (.ofKind .ellipsis)
    | false => exact eat_absent (((form.heads style).append behind).ne rfl)
  have named := Reads.naming regular form stops name variadic
  have inside := named.append (ellipsis.append reads)
  refine (inside.node (by decide : Kind.param ≠ _)).alike ?_
  cases name <;> cases variadic <;> rfl

end Parameters

/-! ## Results -/

theorem Reads.results_none
    {behind : List Lexeme}
    (stops : Heads Kind.endsType behind) :
    Reads (results typeRule) [] [] behind := by
  obtain ⟨stop, others, rfl, ends⟩ := stops
  have notStart := Kind.not_startsType_of_endsType ends
  refine nothing.congr fun cursor coming => ?_
  have unopened : stop.kind ≠ .leftParen := by
    intro isParen
    rw [isParen] at ends
    cases ends
  simp [results, sees, seesAny, peek?_eq, coming, unopened, notStart]

/-- A bare result is read if it is not in parentheses. -/
theorem Reads.results_single
    {style : ItemStyle}
    {form : TypeForm}
    {type : TypeExpr}
    {behind : List Lexeme}
    (notParen : form.isParen = false)
    (reads : Reads typeRule (form.lexemes style) [.type type] behind) :
    Reads (results typeRule) (form.lexemes style) [.result (.single type)] behind := by
  refine ((reads.node (by decide : Kind.result ≠ _)).alike rfl).congr fun cursor coming => ?_
  have first := peek?_zero_form coming
  have starts := form.startsType_firstKind
  have unopened : form.firstKind ≠ .leftParen := by
    cases form with
    | paren => cases notParen
    | chan direction => cases direction <;> nofun
    | _ => nofun
  simp [results, sees, seesAny, first, unopened, starts]

theorem Reads.results_list
    {pieces : List (List Lexeme)}
    {params : List Param}
    {behind : List Lexeme}
    (each : ReadsEach (Grammar.param typeRule) Kind.endsType pieces (params.map .param))
    (begin : ∀ piece ∈ pieces, Heads (· != .rightParen) piece) :
    Reads (results typeRule)
      (.ofKind .leftParen :: (commaSeparated pieces ++ [.ofKind .rightParen]))
      [.result (.list (.list here params))] behind := by
  refine (((paramList each begin).node (by decide : Kind.result ≠ _)).alike rfl).congr
    fun cursor coming => ?_
  simp [results, sees, peek?_eq, coming]

/-! ## Fields -/

/-- What stands in a field declaration before its tag. -/
def fieldBody
    (typeRule : Rule)
    (opened : Cursor) :
    Cursor :=
  if opened.sees .star then
    let starred := opened.bump
    if starred.sees .ident then typeName typeRule starred else starred.report .embeddedTypeName
  else if opened.sees .ident then
    if embedsField opened then
      typeName typeRule opened
    else
      typeRule (moreNames (name opened))
  else
    opened.recover .fieldDeclaration (endsItem (some .rightBrace))

theorem Reads.moreNames
    {behind : List Lexeme}
    (noComma : ∀ first ∈ behind.head?, first.kind ≠ .comma)
    (idents : List Identifier) :
    Reads Grammar.moreNames (Identifier.lexemesBehindCommas idents)
      (idents.map fun ident => .name ident.ident) behind := by
  have again := terminates.names.repeatWhile_eq
  induction idents with
  | nil =>
      refine nothing.congr fun cursor coming => ?_
      rw [Grammar.moreNames, again, sees_eq_false coming noComma]
      rfl
  | cons ident idents inductionHypothesis =>
      refine (((bump (.ofKind .comma)).append (name ident)).append inductionHypothesis).congr
        fun cursor coming => ?_
      have seen : cursor.sees .comma = true := sees_cons coming
      rw [Grammar.moreNames, again, seen]
      rfl

/-- The tag of a field is read if there is one. -/
theorem Reads.tag
    {behind : List Lexeme}
    (noString : ∀ first ∈ behind.head?, first.kind ≠ .string)
    (tag : Option StringLiteral) :
    Reads (Cursor.eat .string) (tag.toList.map StringLiteral.lexeme)
      (tag.toList.flatMap fun literal => literal.lexeme.parts) behind := by
  cases tag with
  | none => exact eat_absent noString
  | some literal => exact (eat literal.lexeme).alike (by simp)

section FieldDeclarations

variable
  {style : ItemStyle}
  {behind : List Lexeme}
  (ends : Heads (endsItem (some .rightBrace)) behind)
  (tag : Option StringLiteral)

include ends

/-- Behind the type of a field stands its tag, or what ends the field. -/
theorem Heads.tagged :
    Heads Kind.endsField (tag.toList.map StringLiteral.lexeme ++ behind) := by
  cases tag with
  | some literal => exact ⟨_, _, rfl, rfl⟩
  | none => exact Heads.imp ends fun kind isEnd => by simp [Kind.endsField, isEnd]

/-- A field declaration is read with its tag when what stands before the tag is read. -/
theorem Reads.tagged
    {taken : List Lexeme}
    {parts : List Part}
    (reads : Reads (fieldBody typeRule) taken parts
      (tag.toList.map StringLiteral.lexeme ++ behind)) :
    Reads (Grammar.fieldDecl typeRule) (taken ++ tag.toList.map StringLiteral.lexeme)
      [Read.node .fieldDecl here
        (parts ++ tag.toList.flatMap fun literal => literal.lexeme.parts)] behind := by
  exact (reads.append (Reads.tag (ends.ne rfl) tag)).node (by decide : Kind.fieldDecl ≠ _)

theorem Reads.namedField
    {form : TypeForm}
    {type : TypeExpr}
    (first : Identifier)
    (more : List Identifier)
    (reads : Reads typeRule (form.lexemes style) [.type type]
      (tag.toList.map StringLiteral.lexeme ++ behind)) :
    Reads (Grammar.fieldDecl typeRule) ((FieldForm.named first more form tag).lexemes style)
      [.field (.mk here ((first :: more).map Identifier.ident) false type)] behind := by
  have begins := (form.heads style).append (tag.toList.map StringLiteral.lexeme ++ behind)
  have names : Reads (fun opened => Grammar.moreNames (Grammar.name opened))
      (first.lexeme :: Identifier.lexemesBehindCommas more)
      ((first :: more).map fun ident => .name ident.ident) _ :=
    (name first).append (Reads.moreNames (begins.ne rfl) more)
  have body : Reads (fieldBody typeRule)
      (first.lexeme :: Identifier.lexemesBehindCommas more ++ form.lexemes style)
      (((first :: more).map fun ident => .name ident.ident) ++ [.type type])
      (tag.toList.map StringLiteral.lexeme ++ behind) := by
    refine (names.append reads).congr fun cursor coming => ?_
    have embeds : embedsField cursor = false := by
      cases more with
      | nil => exact embedsField_named coming
      | cons second more => simp [embedsField, peek?_eq, coming, Identifier.lexemesBehindCommas]
    have notStar : cursor.sees .star = false := sees_cons coming
    have isIdent : cursor.sees .ident = true := sees_cons coming
    simp only [fieldBody, notStar, isIdent, embeds]
    rfl
  have read := Reads.tagged ends tag body
  have lexemes : (FieldForm.named first more form tag).lexemes style =
      first.lexeme :: Identifier.lexemesBehindCommas more ++ form.lexemes style ++
        tag.toList.map StringLiteral.lexeme := by
    simp [FieldForm.lexemes]
  rw [lexemes]
  refine read.alike (congrArg (fun part => seen [part]) ?_)
  obtain ⟨parts, isParts⟩ : ∃ parts : List Part,
      parts = ((first :: more).map fun ident => .name ident.ident) ++ [.type type] ++
        tag.toList.flatMap fun literal => literal.lexeme.parts := ⟨_, rfl⟩
  have found : parts.filterMap Part.name? = (first :: more).map Identifier.ident ∧
      parts.filterMap Part.type? = [type] ∧ parts.any (Part.isToken .star) = false := by
    rw [isParts]
    cases tag <;>
      simp [Part.name?, Part.type?, Part.isToken, Part.token?, Lexeme.parts,
        StringLiteral.lexeme, Kind.isRead, List.filterMap_cons, List.filterMap_map,
        Function.comp_def]
  rw [← isParts, Read.node, Read.typeAt, found.1, found.2.1, found.2.2]
  rfl

/-- An embedded field is read with its star and its type name. -/
theorem Reads.embeddedField
    {pieces : List (List Lexeme)}
    {args : List TypeExpr}
    (each : ReadsEach typeRule Kind.endsType pieces (args.map .type))
    (begin : ∀ piece ∈ pieces, Heads Kind.startsType piece)
    (balanced : ∀ piece ∈ pieces, Balanced piece)
    (starred : Bool)
    (qualifier : Option Identifier)
    (ident : Identifier) :
    Reads (Grammar.fieldDecl typeRule)
      ((if starred then [.ofKind .star] else []) ++
        (ident.lexemesBehind qualifier ++
          (inBrackets pieces ++ tag.toList.map StringLiteral.lexeme)))
      [.field (.mk here [] starred
        (.name here (qualifier.map Identifier.ident) (some ident.ident) (!args.isEmpty) args))]
      behind := by
  obtain ⟨stop, others, stops, isStop⟩ := Heads.tagged ends tag
  have typeName := Reads.typeName each begin qualifier ident
    ⟨stop, others, stops, Kind.endsType_of_endsField isStop⟩
  have body : Reads (fieldBody typeRule)
      ((if starred then [.ofKind .star] else []) ++
        (ident.lexemesBehind qualifier ++ inBrackets pieces))
      ((if starred then Lexeme.parts (.ofKind .star) else []) ++ [.type (.name here
        (qualifier.map Identifier.ident) (some ident.ident) (!args.isEmpty) args)])
      (tag.toList.map StringLiteral.lexeme ++ behind) := by
    cases starred with
    | true =>
        refine (bump (.ofKind .star)).andThen typeName fun cursor coming after => ?_
        have isStar : cursor.sees .star = true := sees_cons coming
        have isIdent : cursor.bump.sees .ident = true := by
          rw [sees, peek?_eq, after]
          cases qualifier <;> rfl
        simp only [fieldBody, isStar, isIdent, if_true]
    | false =>
        refine typeName.congr fun cursor coming => ?_
        have notStar : cursor.sees .star = false := by
          rw [sees, peek?_eq, coming]
          cases qualifier <;> rfl
        have isIdent : cursor.sees .ident = true := by
          rw [sees, peek?_eq, coming]
          cases qualifier <;> rfl
        rw [stops] at coming
        have embeds := embedsField_unnamed coming balanced begin isStop
        simp only [fieldBody, notStar, isIdent, embeds, if_true]
        rfl
  have read := Reads.tagged ends tag body
  simp only [List.append_assoc] at read
  refine read.alike ?_
  cases starred <;> cases tag <;> rfl

end FieldDeclarations

/-! ## Interface elements -/

/-- A method is read with its name, its parameters and its results. -/
theorem Reads.method
    {pieces : List (List Lexeme)}
    {params : List Param}
    {more behind : List Lexeme}
    {result : Result}
    (each : ReadsEach (Grammar.param typeRule) Kind.endsType pieces (params.map .param))
    (begin : ∀ piece ∈ pieces, Heads (· != .rightParen) piece)
    (readsResults : Reads (results typeRule) more (resultParts result) behind)
    (ident : Identifier) :
    Reads (interfaceElem typeRule)
      (ident.lexeme :: .ofKind .leftParen ::
        (commaSeparated pieces ++ .ofKind .rightParen :: more))
      [.elem (.method here (some ident.ident) (.list here params) result)] behind := by
  have inside := (name ident).append (signature each begin readsResults)
  refine ((inside.node (by decide : Kind.methodSpec ≠ _)).alike ?_).congr fun cursor coming => ?_
  · cases result <;> rfl
  · have isMethod : (cursor.sees .ident && cursor.peek? 1 == some .leftParen) = true := by
      simp [sees, peek?_eq, coming, Identifier.lexeme]
    simp only [interfaceElem, isMethod, if_true]

/--
Whether the terms of an interface element are read one after the other, and whether they are found
to form a type set.
-/
structure ReadsTerms
    (taken : List Lexeme)
    (parts : List Part)
    (typeSet : Bool)
    (behind : List Lexeme) :
    Prop where
  reads : ∀ marked,
    Reads (fun cursor => (loop (termTurn typeRule) marked cursor).2) taken parts behind
  found : ∀ marked (cursor : Cursor), cursor.coming = taken ++ behind →
    (loop (termTurn typeRule) marked cursor).1 = (marked || typeSet)

section Terms

variable
  {taken others behind : List Lexeme}
  {type : TypeExpr}
  (begins : Heads Kind.startsType taken)
  (tilde : Bool)

include begins

/-- The tilde of a term is taken, and a type expression follows. -/
theorem Reads.eatTilde :
    Reads (Cursor.eat .tilde) (if tilde then [.ofKind .tilde] else []) [] (taken ++ behind) := by
  cases tilde with
  | true => exact eat (.ofKind .tilde)
  | false => exact eat_absent ((begins.append behind).ne rfl)

/-- A term that is read comes with a turn, and a pipe behind it asks for another one. -/
theorem termTurn_eq
    {cursor : Cursor}
    (coming : cursor.coming = (if tilde then [.ofKind .tilde] else []) ++ (taken ++ behind))
    (marked : Bool) :
    termTurn typeRule marked cursor =
      if (typeRule (eat .tilde cursor)).sees .pipe then
        .again true (typeRule (eat .tilde cursor)).bump
      else
        .done (marked || tilde) (typeRule (eat .tilde cursor)) := by
  have isMarked : cursor.sees .tilde = tilde := by
    cases tilde with
    | true => simp [sees, peek?_eq, coming]
    | false => exact sees_eq_false coming ((begins.append behind).ne rfl)
  obtain ⟨_, builds, _⟩ := Reads.eatTilde begins tilde cursor coming
  have term := builds.coming_eq coming
  obtain ⟨first, rest, rfl, starts⟩ := begins
  have isTyped : (eat .tilde cursor).seesAny Kind.startsType = true := by
    simp [seesAny, peek?_eq, term, starts]
  simp only [termTurn, isTyped, isMarked, if_true]

/-- The last term of an element is read. -/
theorem ReadsTerms.last
    (noPipe : ∀ first ∈ behind.head?, first.kind ≠ .pipe)
    (reads : Reads typeRule taken [.type type] behind) :
    ReadsTerms ((if tilde then [.ofKind .tilde] else []) ++ taken) [.type type] tilde behind := by
  have term := (Reads.eatTilde begins tilde).append reads
  have ends : ∀ (marked : Bool) (cursor : Cursor),
      cursor.coming = (if tilde then [.ofKind .tilde] else []) ++ taken ++ behind →
      loop (termTurn typeRule) marked cursor =
        (marked || tilde, typeRule (Cursor.eat .tilde cursor)) := by
    intro marked cursor coming
    obtain ⟨_, builds, _⟩ := term cursor coming
    have unseen := sees_eq_false (builds.coming_eq coming) noPipe
    rw [List.append_assoc] at coming
    rw [terminates.terms.loop_eq, termTurn_eq begins tilde coming, unseen]
    rfl
  exact
    { reads := fun marked => term.congr fun cursor coming => by rw [ends marked cursor coming]
      found := fun marked cursor coming => by rw [ends marked cursor coming] }

/-- A term of an element is read with the terms behind it, and they form a type set. -/
theorem ReadsTerms.more
    {parts : List Part}
    {typeSet : Bool}
    (reads : Reads typeRule taken [.type type] (.ofKind .pipe :: (others ++ behind)))
    (rest : ReadsTerms others parts typeSet behind) :
    ReadsTerms ((if tilde then [.ofKind .tilde] else []) ++ (taken ++ .ofKind .pipe :: others))
      (.type type :: parts) true behind := by
  have term := (Reads.eatTilde begins tilde).append reads
  have later : Reads (fun cursor => (loop (termTurn typeRule) true cursor.bump).2)
      (.ofKind .pipe :: others) parts behind :=
    (Reads.bump (.ofKind .pipe)).append (rest.reads true)
  have lexemes : (if tilde then [.ofKind .tilde] else []) ++ (taken ++ .ofKind .pipe :: others) =
      (if tilde then [.ofKind .tilde] else []) ++ taken ++ .ofKind .pipe :: others := by
    simp
  have again : ∀ (marked : Bool) (cursor : Cursor),
      cursor.coming = (if tilde then [.ofKind .tilde] else []) ++ taken ++
        (.ofKind .pipe :: others ++ behind) →
      (typeRule (Cursor.eat .tilde cursor)).coming = .ofKind .pipe :: others ++ behind ∧
        loop (termTurn typeRule) marked cursor =
          loop (termTurn typeRule) true (typeRule (Cursor.eat .tilde cursor)).bump := by
    intro marked cursor coming
    obtain ⟨_, builds, _⟩ := term cursor coming
    have next := builds.coming_eq coming
    have seen : (typeRule (Cursor.eat .tilde cursor)).sees .pipe = true := by
      simp [sees, peek?_eq, next]
    rw [List.append_assoc] at coming
    refine ⟨next, ?_⟩
    rw [terminates.terms.loop_eq, termTurn_eq begins tilde coming, seen]
    rfl
  rw [lexemes]
  exact
    { reads := fun marked => term.andThen later fun cursor coming _ => by
        rw [(again marked cursor coming).2]
      found := fun marked cursor coming => by
        rw [List.append_assoc] at coming
        obtain ⟨next, same⟩ := again marked cursor coming
        obtain ⟨_, builds, _⟩ := Reads.bump (.ofKind .pipe) _ next
        rw [same, rest.found true _ (builds.coming_eq next)]
        simp }

end Terms

/-- An element of terms is read as an embedded type or as a type set. -/
theorem ReadsTerms.terms
    {taken behind : List Lexeme}
    {parts : List Part}
    {typeSet : Bool}
    (reads : ReadsTerms taken parts typeSet behind)
    (notMethod : ∀ cursor : Cursor, cursor.coming = taken ++ behind →
      (cursor.sees .ident && cursor.peek? 1 == some .leftParen) = false) :
    Reads (interfaceElem typeRule) taken
      [Read.node (if typeSet then .typeSetElem else .embeddedElem) here parts] behind := by
  intro cursor coming
  have begun : cursor.skipTrivia.coming = taken ++ behind := by rw [coming_skipTrivia, coming]
  obtain ⟨trees, inside, looks⟩ := reads.reads false cursor.skipTrivia begun
  have found := reads.found false cursor.skipTrivia begun
  obtain ⟨span, builds⟩ := inside.wrapped (if typeSet then .typeSetElem else .embeddedElem)
  have isElem : interfaceElem typeRule cursor =
      ((loop (termTurn typeRule) false cursor.skipTrivia).2.openAt cursor.skipTrivia.mark
        (if typeSet then .typeSetElem else .embeddedElem)).closeNode := by
    rw [Bool.false_or] at found
    simp only [interfaceElem, notMethod cursor coming, found]
    rfl
  rw [isElem]
  exact ⟨_, builds, Tree.indistinct_node (by cases typeSet <;> decide) looks⟩

end Grammar

end Implementers.Syntax
