import Implementers.Proofs.Syntax.Brackets

namespace Implementers.Syntax

/-!
# Rules for type expressions

What the rules of the grammar read when the type expressions inside of them are read.
-/

/-- Whether a kind can stand behind a type expression. -/
def Kind.endsType : Kind → Bool
  | .comma | .rightParen | .rightBracket | .rightBrace | .semicolon | .newline | .pipe
  | .string => true
  | _ => false

/-- Nothing that can stand behind a type expression goes on with one. -/
theorem Kind.not_startsType_of_endsType
    {kind : Kind}
    (ends : kind.endsType = true) :
    kind.startsType = false := by
  cases kind <;> first | rfl | cases ends

/-- What ends an item between braces can stand behind a type expression. -/
theorem Kind.endsType_of_endsItem
    {kind : Kind}
    (ends : Grammar.endsItem (some .rightBrace) kind = true) :
    kind.endsType = true := by
  cases kind <;> first | rfl | cases ends

/-- Whether a kind can stand behind the type of a field: it is a tag or ends the declaration. -/
def Kind.endsField
    (kind : Kind) :
    Bool :=
  Grammar.endsItem (some .rightBrace) kind || kind == .string

theorem Kind.endsType_of_endsField
    {kind : Kind}
    (ends : kind.endsField = true) :
    kind.endsType = true := by
  cases kind <;> first | rfl | cases ends

namespace Grammar

open Cursor Syntax.Tree

/-- The marks in front of the element type of a channel. -/
def chanMarks : Rule := fun opened =>
  if opened.sees .arrow then
    expect .chanKeyword (.symbol "chan") opened.bump
  else
    eat .arrow opened.bump

/-- An identifier behind its dot, behind a qualifier. -/
def qualification : Rule := fun first =>
  if first.sees .dot then expect .ident .identifierAfterDot first.bump else first

/-- Type arguments in their brackets, if an opening one follows that is not closed at once. -/
def arguments
    (typeRule : Rule)
    (named : Cursor) :
    Cursor :=
  if named.sees .leftBracket && named.peek? 1 != some .rightBracket then
    named.node .typeArgs fun bracket =>
      expect .rightBracket (.symbol "]") (loop (typeArgTurn typeRule) () bracket.bump).2
  else
    named

namespace Reads

variable {taken more behind : List Lexeme} {elem value : TypeExpr}

/-! ## Type expressions with one beginning -/

theorem pointer
    (reads : Reads typeRule taken [.type elem] behind) :
    Reads typeRule (.ofKind .star :: taken) [.type (.pointer here elem)] behind := by
  have inside := (bump (.ofKind .star)).append reads
  refine ((inside.node (by decide : Kind.pointerType ≠ _)).alike rfl).congr
    fun cursor coming => ?_
  rw [closesTypes_typeRule]
  simp [typeExpr, peek?_eq, coming]

theorem slice
    (reads : Reads typeRule taken [.type elem] behind) :
    Reads typeRule (.ofKind .leftBracket :: .ofKind .rightBracket :: taken)
      [.type (.slice here elem)] behind := by
  have inside := (bump (.ofKind .leftBracket)).append
    ((bump (.ofKind .rightBracket)).append reads)
  refine ((inside.node (by decide : Kind.sliceType ≠ _)).alike rfl).congr
    fun cursor coming => ?_
  rw [closesTypes_typeRule]
  simp [typeExpr, sliceOrArrayType, peek?_eq, coming]

theorem map
    (reads : Reads typeRule taken [.type elem] (.ofKind .rightBracket :: (more ++ behind)))
    (readsValue : Reads typeRule more [.type value] behind) :
    Reads typeRule
      (.ofKind .mapKeyword :: .ofKind .leftBracket :: (taken ++ .ofKind .rightBracket :: more))
      [.type (.map here elem value)] behind := by
  have inside := (bump (.ofKind .mapKeyword)).append
    ((expect (.ofKind .leftBracket) (.symbol "[")).append
      (reads.append ((expect (.ofKind .rightBracket) (.symbol "]")).append readsValue)))
  refine ((inside.node (by decide : Kind.mapType ≠ _)).alike rfl).congr
    fun cursor coming => ?_
  rw [closesTypes_typeRule]
  simp [typeExpr, peek?_eq, coming]
  rfl

theorem paren
    (reads : Reads typeRule taken [.type elem] (.ofKind .rightParen :: behind)) :
    Reads typeRule (.ofKind .leftParen :: (taken ++ [.ofKind .rightParen]))
      [.type (.paren here elem)] behind := by
  have inside := (bump (.ofKind .leftParen)).append
    (reads.append (expect (.ofKind .rightParen) (.symbol ")")))
  refine ((inside.node (by decide : Kind.parenType ≠ _)).alike rfl).congr
    fun cursor coming => ?_
  rw [closesTypes_typeRule]
  simp [typeExpr, peek?_eq, coming]

/-- An arrow is where the direction of a channel says. -/
theorem chan
    {direction : ChanDirection}
    (noArrow : direction = .both → ∀ first ∈ (taken ++ behind).head?, first.kind ≠ .arrow)
    (reads : Reads typeRule taken [.type elem] behind) :
    Reads typeRule (direction.lexemes ++ taken) [.type (.chan here direction elem)] behind := by
  have readsMarks : Reads chanMarks direction.lexemes (direction.lexemes.flatMap Lexeme.parts)
      (taken ++ behind) := by
    cases direction with
    | both =>
        refine ((bump (.ofKind .chanKeyword)).append (eat_absent (noArrow rfl))).congr
          fun cursor coming => ?_
        simp [chanMarks, sees, peek?_eq, coming]
    | send =>
        refine ((bump (.ofKind .chanKeyword)).append (eat (.ofKind .arrow))).congr
          fun cursor coming => ?_
        simp [chanMarks, sees, peek?_eq, coming]
    | receive =>
        refine ((bump (.ofKind .arrow)).append
          (expect (.ofKind .chanKeyword) (.symbol "chan"))).congr fun cursor coming => ?_
        simp [chanMarks, sees, peek?_eq, coming]
  have inside := readsMarks.append reads
  refine ((inside.node (by decide : Kind.chanType ≠ _)).alike ?_).congr fun cursor coming => ?_
  · cases direction <;> rfl
  · rw [closesTypes_typeRule]
    cases direction <;> simp [typeExpr, peek?_eq, coming, ChanDirection.lexemes] <;> rfl

/-- An array length is read as the text of its one token. -/
theorem arrayLength
    (length : ArrayLength) :
    Reads (Cursor.node .arrayLength fun inner => (loop arrayLengthTurn 0 inner).2)
      [length.lexeme] [.arrayLength length.text] (.ofKind .rightBracket :: behind) := by
  intro cursor coming
  obtain ⟨token, rest, next, notTrivia, isLexeme, _⟩ := dropWhile_of_lexemes coming
  have taken := @Builds.bump_of_rest (cursor.openNode .arrayLength) token rest next notTrivia
  rw [isLexeme] at taken
  have isOpen : (cursor.openNode .arrayLength).coming =
      [length.lexeme] ++ .ofKind .rightBracket :: behind := by
    rw [coming_openNode, coming]
  have first : arrayLengthTurn 0 (cursor.openNode .arrayLength) =
      .again 0 (cursor.openNode .arrayLength).bump := by
    rw [arrayLengthTurn, peek?_eq, isOpen]
    cases length <;> rfl
  have second : arrayLengthTurn 0 (cursor.openNode .arrayLength).bump =
      .done 0 (cursor.openNode .arrayLength).bump := by
    rw [arrayLengthTurn, peek?_eq, taken.coming_eq isOpen]
    rfl
  have loops : (loop arrayLengthTurn 0 (cursor.openNode .arrayLength)).2 =
      (cursor.openNode .arrayLength).bump := by
    rw [terminates.arrayLength.loop_eq, first]
    simp only
    rw [terminates.arrayLength.loop_eq, second]
  rw [← loops] at taken
  obtain ⟨span, builds⟩ :=
    @Builds.node cursor _ _ .arrayLength (fun inner => (loop arrayLengthTurn 0 inner).2) taken
  refine ⟨_, builds, ?_⟩
  have text : Read.arrayLength [.token token] = length.text := by
    have isText : token.text = length.lexeme.text := congrArg Lexeme.text isLexeme
    have unblank := List.filter_eq_self.mpr fun character member =>
      congrArg Bool.not (length.not_isBlank character member)
    simp only [Read.arrayLength, Part.token?, List.filterMap_cons, List.filterMap_nil,
      List.flatMap_singleton, isText]
    exact congrArg String.ofList unblank
  rw [Indistinct, forestParts_append, seen_append, seen_trivia, List.nil_append]
  exact congrArg (fun text => [Part.arrayLength text]) text

theorem array
    (length : ArrayLength)
    (reads : Reads typeRule taken [.type elem] behind) :
    Reads typeRule
      (.ofKind .leftBracket :: length.lexeme :: .ofKind .rightBracket :: taken)
      [.type (.array here length.text elem)] behind := by
  have inside := (bump (.ofKind .leftBracket)).append
    ((arrayLength length).append
      ((expect (.ofKind .rightBracket) (.symbol "]")).append reads))
  refine ((inside.node (by decide : Kind.arrayType ≠ _)).alike rfl).congr
    fun cursor coming => ?_
  have notSlice : length.lexeme.kind ≠ .rightBracket := by cases length <;> nofun
  rw [closesTypes_typeRule]
  simp [typeExpr, sliceOrArrayType, peek?_eq, coming, notSlice]

/-! ## Type names -/

/-- An identifier is read with its qualifier. -/
theorem qualified
    (qualifier : Option Identifier)
    (ident : Identifier)
    (noDot : ∀ first ∈ behind.head?, first.kind ≠ .dot) :
    Reads (fun opened => qualification opened.bump) (ident.lexemesBehind qualifier)
      ((ident.lexemesBehind qualifier).flatMap Lexeme.parts) behind := by
  cases qualifier with
  | none =>
      have alone : Reads qualification [] [] behind :=
        nothing.congr fun cursor coming => by simp [qualification, sees_eq_false coming noDot]
      exact (bump ident.lexeme).append alone
  | some package =>
      have dotted : Reads qualification ([.ofKind .dot] ++ [ident.lexeme])
          (Lexeme.parts (.ofKind .dot) ++ ident.lexeme.parts) behind :=
        ((bump (.ofKind .dot)).append (expect ident.lexeme .identifierAfterDot)).congr
          fun cursor coming => by
            simp [qualification, sees, peek?_eq, coming]
            rfl
      exact (bump package.lexeme).append dotted

end Reads

section Lists

variable
  {pieces : List (List Lexeme)}
  {args : List TypeExpr}
  (each : ReadsEach typeRule Kind.endsType pieces (args.map .type))
  (begin : ∀ piece ∈ pieces, Heads Kind.startsType piece)
  {behind : List Lexeme}

include each begin

/-- Type arguments are read in their brackets; without any, there are no brackets. -/
theorem Reads.typeArgs
    (noBracket : ∀ first ∈ behind.head?, first.kind ≠ .leftBracket) :
    Reads (arguments typeRule) (inBrackets pieces)
      (if args.isEmpty then [] else [.typeArgs args]) behind := by
  cases args with
  | nil =>
      cases each
      exact nothing.congr fun cursor coming => by
        simp [arguments, sees_eq_false coming noBracket]
  | cons arg args =>
      cases pieces with
      | nil => cases each
      | cons piece pieces =>
          have opens : ∀ other ∈ piece :: pieces, ∃ first rest, other = first :: rest ∧
              first.kind.startsType = true ∧ first.kind ≠ .rightBracket := by
            intro other member
            have notClosing := (begin other member).ne (rfl : Kind.startsType .rightBracket = false)
            obtain ⟨first, rest, rfl, starts⟩ := begin other member
            exact ⟨first, rest, rfl, starts, notClosing first rfl⟩
          have enters : ∀ other ∈ piece :: pieces, ∀ (cursor : Cursor) (others : List Lexeme),
              cursor.coming = other ++ others →
                typeArgTurn typeRule () cursor = commaTurn (typeRule cursor) := by
            intro other member cursor others coming
            obtain ⟨first, rest, rfl, starts, notClosing⟩ := opens other member
            simp [typeArgTurn, atEnd, sees, seesAny, peek?_eq, coming, starts, notClosing]
          have loops : Reads (fun cursor => (loop (typeArgTurn typeRule) () cursor).2)
              (commaSeparated (piece :: pieces)) ((arg :: args).map .type)
              (.ofKind .rightBracket :: behind) :=
            commas terminates.typeArgs rfl rfl (by decide) each (List.cons_ne_nil _ _) enters
          have inside := (bump (.ofKind .leftBracket)).append
            (loops.append (expect (.ofKind .rightBracket) (.symbol "]")))
          refine ((inside.node (by decide : Kind.typeArgs ≠ _)).alike ?_).congr
            fun cursor coming => ?_
          · simp [Read.node, Lexeme.parts, Kind.isRead, Part.type?, Function.comp_def]
          · obtain ⟨first, rest, rfl, _, notClosing⟩ := opens piece List.mem_cons_self
            simp [arguments, sees, peek?_eq, coming, commaSeparated, notClosing]

theorem Reads.typeName
    (qualifier : Option Identifier)
    (ident : Identifier)
    (stops : Heads Kind.endsType behind) :
    Reads (Grammar.typeName typeRule) (ident.lexemesBehind qualifier ++ inBrackets pieces)
      [.type (.name here (qualifier.map Identifier.ident) (some ident.ident) (!args.isEmpty) args)]
      behind := by
  have noDot : ∀ first ∈ (inBrackets pieces ++ behind).head?, first.kind ≠ .dot := by
    cases pieces with
    | nil => exact stops.ne rfl
    | cons => exact Heads.ne ⟨_, _, rfl, beq_self_eq_true Kind.leftBracket⟩ rfl
  have inside := (qualified qualifier ident noDot).append (typeArgs each begin (stops.ne rfl))
  refine (inside.node (by decide : Kind.typeName ≠ _)).alike ?_
  cases qualifier <;> cases args <;> rfl

end Lists

/-! ## Signatures -/

/-- The closing parenthesis of a parameter list. -/
def closeParams : Rule := fun taken =>
  if taken.sees .rightParen then
    taken.bump
  else
    eat .rightParen (taken.recover (.symbol ")") (· == .rightParen))

/-- The results of a function, if some follow its parameters. -/
def results
    (typeRule : Rule)
    (taken : Cursor) :
    Cursor :=
  if taken.sees .leftParen then
    taken.node .result (paramList typeRule)
  else if taken.seesAny Kind.startsType then
    taken.node .result typeRule
  else
    taken

/-- The part that a reader makes of results, if there are any. -/
def resultParts : Result → List Part
  | .absent => []
  | result => [.result result]

section Signatures

variable
  {pieces : List (List Lexeme)}
  {params : List Param}
  (each : ReadsEach (param typeRule) Kind.endsType pieces (params.map .param))
  (begin : ∀ piece ∈ pieces, Heads (· != .rightParen) piece)
  {behind : List Lexeme}

include each begin

/-- A parameter list is read with each of its entries. -/
theorem Reads.paramList :
    Reads (Grammar.paramList typeRule)
      (.ofKind .leftParen :: (commaSeparated pieces ++ [.ofKind .rightParen]))
      [.params (.list here params)] behind := by
  have loops : Reads (fun cursor => (loop (paramTurn typeRule) () cursor).2)
      (commaSeparated pieces) (params.map .param) (.ofKind .rightParen :: behind) := by
    cases pieces with
    | nil =>
        cases params with
        | cons => cases each
        | nil =>
            refine nothing.congr fun cursor coming => ?_
            rw [terminates.params.loop_eq]
            simp [paramTurn, sees, peek?_eq, coming]
    | cons piece pieces =>
        refine commas terminates.params rfl rfl (by decide) each (List.cons_ne_nil _ _) ?_
        intro other member cursor others coming
        obtain ⟨first, rest, rfl, notClosing⟩ := begin other member
        have isOther : first.kind ≠ .rightParen := by simpa using notClosing
        simp [paramTurn, atEnd, sees, peek?_eq, coming, isOther]
  have closes : Reads closeParams [.ofKind .rightParen] (Lexeme.parts (.ofKind .rightParen))
      behind :=
    (bump (.ofKind .rightParen)).congr fun cursor coming => by
      simp [closeParams, sees, peek?_eq, coming]
  have inside := (bump (.ofKind .leftParen)).append (loops.append closes)
  refine (inside.node (by decide : Kind.paramList ≠ _)).alike ?_
  simp [Read.node, Lexeme.parts, Kind.isRead, Part.param?, Function.comp_def]

/-- A signature is read with its parameters and its results. -/
theorem Reads.signature
    {more : List Lexeme}
    {result : Result}
    (readsResults : Reads (results typeRule) more (resultParts result) behind) :
    Reads (Grammar.signature typeRule)
      (.ofKind .leftParen :: (commaSeparated pieces ++ .ofKind .rightParen :: more))
      (.params (.list here params) :: resultParts result) behind := by
  have both := (paramList each begin).append readsResults
  have taken : .ofKind .leftParen :: (commaSeparated pieces ++ [.ofKind .rightParen]) ++ more =
      .ofKind .leftParen :: (commaSeparated pieces ++ .ofKind .rightParen :: more) := by
    simp
  rw [taken] at both
  refine both.congr fun cursor coming => ?_
  have opens : cursor.sees .leftParen = true := by simp [sees, peek?_eq, coming]
  simp only [Grammar.signature, opens, if_true]
  rfl

theorem Reads.func
    {more : List Lexeme}
    {result : Result}
    (readsResults : Reads (results typeRule) more (resultParts result) behind) :
    Reads typeRule
      (.ofKind .funcKeyword :: .ofKind .leftParen ::
        (commaSeparated pieces ++ .ofKind .rightParen :: more))
      [.type (.func here (.list here params) result)] behind := by
  have inside := (bump (.ofKind .funcKeyword)).append (signature each begin readsResults)
  refine ((inside.node (by decide : Kind.funcType ≠ _)).alike ?_).congr fun cursor coming => ?_
  · cases result <;> rfl
  · rw [closesTypes_typeRule]
    simp [typeExpr, peek?_eq, coming]

end Signatures

/-! ## Structs and interfaces -/

/-- Items between braces. -/
def braces
    (item : Rule)
    (taken : Cursor) :
    Cursor :=
  if taken.sees .leftBrace then
    items .rightBrace (.symbol "\x7d") item taken.bump
  else
    taken.report (.symbol "\x7b")

section Braces

variable
  {style : ItemStyle}
  (regular : style.Regular)
  {pieces : List (List Lexeme)}
  (begin : ∀ piece ∈ pieces, Heads beginsItem piece)
  {behind : List Lexeme}

include regular begin

/-- A keyword with items between braces is read as what its kind makes of the items. -/
theorem Reads.braced
    {kind : Kind}
    {item : Rule}
    {keyword : Lexeme}
    {parts : List Part}
    (ends : ∀ closing, Ends (whileTurn (goesOn closing) (Grammar.listed closing item)))
    (each : ReadsEach item (endsItem (some .rightBrace)) pieces parts)
    (unread : keyword.parts = [])
    (notLength : kind ≠ .arrayLength) :
    Reads (bracedType kind item)
      (keyword :: .ofKind .leftBrace :: (style.items pieces ++ [.ofKind .rightBrace]))
      [Read.node kind here parts] behind := by
  have listed : Reads (braces item)
      (.ofKind .leftBrace :: (style.items pieces ++ [.ofKind .rightBrace])) parts behind :=
    ((bump (.ofKind .leftBrace)).append
      (Reads.items ends regular each begin (.symbol "\x7d") behind)).congr
      fun cursor coming => by simp [braces, sees, peek?_eq, coming]
  have inside := (bump keyword).append listed
  rw [unread] at inside
  exact inside.node notLength

theorem Reads.struct
    {fields : List FieldDecl}
    (each : ReadsEach (fieldDecl typeRule) (endsItem (some .rightBrace)) pieces
      (fields.map .field)) :
    Reads typeRule
      (.ofKind .structKeyword :: .ofKind .leftBrace ::
        (style.items pieces ++ [.ofKind .rightBrace]))
      [.type (.struct here fields)] behind := by
  have reads : Reads (bracedType .structType (fieldDecl typeRule)) _ _ behind :=
    braced regular begin terminates.fields each (rfl : Lexeme.parts (.ofKind .structKeyword) = [])
      (by decide)
  refine (reads.alike ?_).congr fun cursor coming => ?_
  · simp [Read.node, Part.field?, Function.comp_def]
  · rw [closesTypes_typeRule]
    simp [typeExpr, peek?_eq, coming]

theorem Reads.interface
    {elems : List Elem}
    (each : ReadsEach (interfaceElem typeRule) (endsItem (some .rightBrace)) pieces
      (elems.map .elem)) :
    Reads typeRule
      (.ofKind .interfaceKeyword :: .ofKind .leftBrace ::
        (style.items pieces ++ [.ofKind .rightBrace]))
      [.type (.interface here elems)] behind := by
  have reads : Reads (bracedType .interfaceType (interfaceElem typeRule)) _ _ behind :=
    braced regular begin terminates.elements each
      (rfl : Lexeme.parts (.ofKind .interfaceKeyword) = []) (by decide)
  refine (reads.alike ?_).congr fun cursor coming => ?_
  · simp [Read.node, Part.elem?, Function.comp_def]
  · rw [closesTypes_typeRule]
    simp [typeExpr, peek?_eq, coming]

end Braces

end Grammar

end Implementers.Syntax
