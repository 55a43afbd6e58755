import Implementers.Proofs.Syntax.Layout
import Implementers.Proofs.Syntax.Lossless
import Implementers.Proofs.Syntax.Reading

namespace Implementers.Syntax

/-!
# Rules that take given lexemes

A rule reads lexemes as parts if, wherever these lexemes come next with others behind them, it takes
exactly these, notes no fault, and builds trees that look like the parts.  Rules that follow one
another read what each of them reads.
-/

namespace Token

/-- The lexemes of the tokens that are no trivia. -/
def lexemes
    (tokens : List Token) :
    List Lexeme :=
  (tokens.filter (!·.kind.isTrivia)).map lexeme

theorem lexemes_cons
    (token : Token)
    (rest : List Token) :
    lexemes (token :: rest) =
      if token.kind.isTrivia then lexemes rest else token.lexeme :: lexemes rest := by
  cases trivia : token.kind.isTrivia <;> simp [lexemes, trivia]

end Token

namespace Cursor

open Syntax.Tree

/-- The lexemes of the tokens to come that are no trivia. -/
def coming
    (cursor : Cursor) :
    List Lexeme :=
  Token.lexemes cursor.rest

theorem lexemes_ahead
    (index : Nat)
    (tokens : List Token) :
    Token.lexemes (ahead index tokens) = (Token.lexemes tokens).drop index := by
  induction tokens generalizing index with
  | nil => simp [ahead, Token.lexemes]
  | cons token rest inductionHypothesis =>
      rw [Token.lexemes_cons]
      cases trivia : token.kind.isTrivia with
      | true => simpa [ahead, isTrivia, trivia] using inductionHypothesis index
      | false =>
          cases index with
          | zero => simp [ahead, isTrivia, trivia, Token.lexemes_cons]
          | succ index => simpa [ahead, isTrivia, trivia] using inductionHypothesis index

/-- The first of the tokens ahead is no trivia. -/
theorem head?_ahead
    (index : Nat)
    (tokens : List Token) :
    (ahead index tokens).head?.map Token.lexeme = (Token.lexemes (ahead index tokens)).head? := by
  induction tokens generalizing index with
  | nil => rfl
  | cons token rest inductionHypothesis =>
      cases trivia : token.kind.isTrivia with
      | true => simpa [ahead, isTrivia, trivia] using inductionHypothesis index
      | false =>
          cases index with
          | zero => simp [ahead, isTrivia, trivia, Token.lexemes_cons]
          | succ index => simpa [ahead, isTrivia, trivia] using inductionHypothesis index

theorem peek?_eq
    (cursor : Cursor)
    (index : Nat) :
    cursor.peek? index = cursor.coming[index]?.map Lexeme.kind := by
  have first := congrArg (Option.map Lexeme.kind) (head?_ahead index cursor.rest)
  rw [lexemes_ahead, List.head?_drop, Option.map_map] at first
  exact first

/-- The kind of what comes next is seen. -/
theorem sees_cons
    {cursor : Cursor}
    {kind : Kind}
    {first : Lexeme}
    {rest : List Lexeme}
    (coming : cursor.coming = first :: rest) :
    cursor.sees kind = (first.kind == kind) := by
  rw [sees, peek?_eq, coming]
  rfl

/-- A kind is not seen where another one comes next. -/
theorem sees_eq_false
    {cursor : Cursor}
    {kind : Kind}
    {lexemes : List Lexeme}
    (coming : cursor.coming = lexemes)
    (absent : ∀ lexeme ∈ lexemes.head?, lexeme.kind ≠ kind) :
    cursor.sees kind = false := by
  rw [sees, peek?_eq, coming]
  cases lexemes with
  | nil => rfl
  | cons lexeme rest => simpa using absent lexeme rfl

@[simp] theorem lexemes_dropWhile
    (tokens : List Token) :
    Token.lexemes (tokens.dropWhile isTrivia) = Token.lexemes tokens := by
  rw [← ahead_zero, lexemes_ahead, List.drop_zero]

@[simp] theorem coming_skipTrivia
    (cursor : Cursor) :
    cursor.skipTrivia.coming = cursor.coming :=
  lexemes_dropWhile cursor.rest

@[simp] theorem coming_openNode
    (cursor : Cursor)
    (kind : Kind) :
    (cursor.openNode kind).coming = cursor.coming :=
  coming_skipTrivia cursor

/-- Where a lexeme comes first, its token does, behind trivia. -/
theorem dropWhile_of_lexemes
    {tokens : List Token}
    {lexeme : Lexeme}
    {behind : List Lexeme}
    (comes : Token.lexemes tokens = lexeme :: behind) :
    ∃ token rest, tokens.dropWhile isTrivia = token :: rest ∧ isTrivia token = false ∧
      token.lexeme = lexeme ∧ Token.lexemes rest = behind := by
  induction tokens with
  | nil => cases comes
  | cons token rest inductionHypothesis =>
      rw [Token.lexemes_cons] at comes
      cases trivia : token.kind.isTrivia with
      | true =>
          rw [trivia, if_pos rfl] at comes
          simpa [isTrivia, trivia] using inductionHypothesis comes
      | false =>
          rw [trivia] at comes
          obtain ⟨isFirst, areBehind⟩ := List.cons.inj comes
          exact ⟨token, rest, by simp [isTrivia, trivia], trivia, isFirst, areBehind⟩

/-! ## Loops -/

/-- A loop comes to one result only. -/
theorem Loops.unique
    {turn : σ → Cursor → Turn σ}
    {state : σ}
    {cursor : Cursor}
    {result other : σ × Cursor}
    (loops : Loops turn state cursor result)
    (others : Loops turn state cursor other) :
    result = other := by
  induction loops with
  | done ends =>
      cases others with
      | done endsAlso =>
          cases ends.symm.trans endsAlso
          rfl
      | again takes => cases ends.symm.trans takes
  | again takes _ inductionHypothesis =>
      cases others with
      | done ends => cases ends.symm.trans takes
      | again takesAlso later =>
          cases takes.symm.trans takesAlso
          exact inductionHypothesis later

/-- A loop that ends by itself is its first turn and the loop behind it. -/
theorem Ends.loop_eq
    {turn : σ → Cursor → Turn σ}
    (ends : Ends turn)
    (state : σ)
    (cursor : Cursor) :
    loop turn state cursor =
      match turn state cursor with
      | .again next behind => loop turn next behind
      | .done last behind => (last, behind) := by
  have loops := ends state cursor
  cases step : turn state cursor with
  | again next behind => exact loops.unique (.again step (ends next behind))
  | done last behind => exact loops.unique (.done step)

theorem Ends.repeatWhile_eq
    {condition : Cursor → Bool}
    {rule : Rule}
    (ends : Ends (whileTurn condition rule))
    (cursor : Cursor) :
    repeatWhile condition rule cursor =
      if condition cursor then repeatWhile condition rule (rule cursor) else cursor := by
  rw [repeatWhile, ends.loop_eq]
  cases holds : condition cursor <;> simp [whileTurn, holds, repeatWhile]

/-! ## What a run builds -/

/-- What a run takes and the trees that it builds from it, when it notes no fault. -/
structure Builds
    (base cursor : Cursor)
    (taken : List Lexeme)
    (trees : List Tree) :
    Prop where
  coming : base.coming = taken ++ cursor.coming
  parents : cursor.parents = base.parents
  errors : cursor.errors = base.errors
  built : cursor.built.toList = base.built.toList ++ trees

namespace Builds

variable {base middle cursor : Cursor} {taken more : List Lexeme} {trees others : List Tree}

theorem self
    (cursor : Cursor) :
    Builds cursor cursor [] [] :=
  ⟨rfl, rfl, rfl, (List.append_nil _).symm⟩

theorem trans
    (first : Builds base middle taken trees)
    (second : Builds middle cursor more others) :
    Builds base cursor (taken ++ more) (trees ++ others) where
  coming := by rw [first.coming, second.coming, List.append_assoc]
  parents := second.parents.trans first.parents
  errors := second.errors.trans first.errors
  built := by rw [second.built, first.built, List.append_assoc]

theorem skipTrivia
    (cursor : Cursor) :
    Builds cursor cursor.skipTrivia [] ((cursor.rest.takeWhile isTrivia).map .leaf) where
  coming := (coming_skipTrivia cursor).symm
  parents := rfl
  errors := rfl
  built := by simp [Cursor.skipTrivia]

/-- What stands behind what a run took is what comes next. -/
theorem coming_eq
    {behind : List Lexeme}
    (builds : Builds base cursor taken trees)
    (coming : base.coming = taken ++ behind) :
    cursor.coming = behind :=
  List.append_cancel_left (builds.coming.symm.trans coming)

/-- A token that is next is taken alone. -/
theorem bump_of_rest
    {token : Token}
    {rest : List Token}
    (next : cursor.rest = token :: rest)
    (notTrivia : isTrivia token = false) :
    Builds cursor cursor.bump [token.lexeme] [.leaf token] := by
  have bumped : cursor.bump = { cursor with rest, built := cursor.built.push (.leaf token) } := by
    simp [Cursor.bump, Cursor.skipTrivia, next, notTrivia]
  rw [bumped]
  refine ⟨?_, rfl, rfl, by simp⟩
  simp [Cursor.coming, next, Token.lexemes_cons, show token.kind.isTrivia = false from notTrivia]

/-- The token that comes next is taken with the trivia before it. -/
theorem bump
    {lexeme : Lexeme}
    {behind : List Lexeme}
    (coming : cursor.coming = lexeme :: behind) :
    ∃ token, token.lexeme = lexeme ∧
      Builds cursor cursor.bump [lexeme]
        ((cursor.rest.takeWhile isTrivia).map .leaf ++ [.leaf token]) := by
  obtain ⟨token, rest, next, notTrivia, isLexeme, _⟩ := dropWhile_of_lexemes coming
  have skipped : cursor.skipTrivia.bump = cursor.bump := by
    simp [Cursor.bump, Cursor.skipTrivia, next, notTrivia]
  have taken := (skipTrivia cursor).trans (bump_of_rest next notTrivia)
  rw [skipped, isLexeme] at taken
  exact ⟨token, isLexeme, taken⟩

/-- The trees built since a place behind trivia go below the node that began there. -/
theorem closed
    {kind : Kind}
    (coming : cursor.coming = taken ++ middle.coming)
    (parents : middle.parents = ⟨kind, cursor.skipTrivia.mark⟩ :: cursor.parents)
    (errors : middle.errors = cursor.errors)
    (built : middle.built.toList = cursor.skipTrivia.built.toList ++ trees) :
    ∃ span, Builds cursor middle.closeNode taken
      ((cursor.rest.takeWhile isTrivia).map .leaf ++ [.node kind span trees]) := by
  refine ⟨⟨cursor.skipTrivia.offset, middle.offset⟩, ?_⟩
  rw [closeNode_eq parents rfl built]
  refine ⟨coming, rfl, errors, ?_⟩
  rw [Array.toList_push, (skipTrivia cursor).built, List.append_assoc]
  rfl

theorem node
    {kind : Kind}
    {rule : Rule}
    (inside : Builds (cursor.openNode kind) (rule (cursor.openNode kind)) taken trees) :
    ∃ span, Builds cursor (cursor.node kind rule) taken
      ((cursor.rest.takeWhile isTrivia).map .leaf ++ [.node kind span trees]) :=
  closed ((coming_openNode cursor kind).symm.trans inside.coming) inside.parents inside.errors
    inside.built

theorem wrapped
    (inside : Builds cursor.skipTrivia middle taken trees)
    (kind : Kind) :
    ∃ span, Builds cursor (middle.openAt cursor.skipTrivia.mark kind).closeNode taken
      ((cursor.rest.takeWhile isTrivia).map .leaf ++ [.node kind span trees]) :=
  closed ((coming_skipTrivia cursor).symm.trans inside.coming) (congrArg _ inside.parents)
    inside.errors inside.built

end Builds

end Cursor

/-! ## What a rule reads -/

/-- The part that a reader makes of a lexeme, if it looks for it. -/
def Lexeme.parts
    (lexeme : Lexeme) :
    List Part :=
  if lexeme.kind.isRead then [.token ⟨lexeme.kind, lexeme.text, 0⟩] else []

namespace Tree

@[simp] theorem forestParts_append
    (front back : List Tree) :
    forestParts (front ++ back) = forestParts front ++ forestParts back := by
  induction front with
  | nil => rfl
  | cons tree rest inductionHypothesis => simp [forestParts, inductionHypothesis]

/-- Trivia is not seen. -/
theorem seen_trivia
    (tokens : List Token) :
    seen (forestParts ((tokens.takeWhile Cursor.isTrivia).map .leaf)) = [] := by
  have unread : ∀ kind : Kind, kind.isTrivia = true → kind.isRead = false := by
    intro kind
    cases kind <;> simp [Kind.isTrivia, Kind.isRead]
  induction tokens with
  | nil => rfl
  | cons token rest inductionHypothesis =>
      cases trivia : Cursor.isTrivia token with
      | false => simp [trivia, forestParts, seen]
      | true =>
          simpa [trivia, forestParts, seen, part, Part.isSeen, Part.token?,
            unread token.kind trivia] using inductionHypothesis

/-- A leaf is seen as the part of its lexeme. -/
theorem seen_leaf
    (token : Token) :
    seen (forestParts [.leaf token]) = seen token.lexeme.parts := by
  cases isRead : token.kind.isRead <;>
    simp [seen, forestParts, part, Lexeme.parts, Token.lexeme, Part.isSeen, Part.token?, isRead,
      Part.placeless, Token.placeless]

/-- A node behind trivia looks like one whose children look the same. -/
theorem indistinct_node
    {kind : Kind}
    (notLength : kind ≠ .arrayLength)
    {tokens : List Token}
    {span : Span}
    {trees : List Tree}
    {parts : List Part}
    (looks : Indistinct (forestParts trees) parts) :
    Indistinct
      (forestParts ((tokens.takeWhile Cursor.isTrivia).map .leaf ++ [.node kind span trees]))
      [Read.node kind here parts] := by
  have isSeen : ∀ (span : Span) (found : List Part),
      seen [Read.node kind span found] = [(Read.node kind span found).placeless] := by
    intro span found
    cases kind <;> rfl
  rw [Indistinct, forestParts_append, seen_append, seen_trivia, List.nil_append]
  exact (isSeen _ _).trans ((congrArg ([·]) (looks.node span here notLength)).trans
    (isSeen _ _).symm)

end Tree

/-- How items are kept apart by one terminator each, when nothing stands in front of them. -/
structure ItemStyle.Regular
    (style : ItemStyle) :
    Prop where
  opening : style.opening = []
  separator : style.separator.kind.isTerminator = true
  closing : style.closing = [] ∨ style.closing = [style.separator]

theorem Layout.regular
    (layout : Layout) :
    layout.style.unopened.Regular := by
  unfold Layout.style
  split
  · exact ⟨rfl, rfl, .inr rfl⟩
  · exact ⟨rfl, rfl, .inl rfl⟩

namespace Grammar

open Cursor Syntax.Tree

/--
Whether a rule reads lexemes as parts where others stand behind them: it takes exactly these and
builds trees that look like the parts.
-/
def Reads
    (rule : Rule)
    (taken : List Lexeme)
    (parts : List Part)
    (behind : List Lexeme) :
    Prop :=
  ∀ cursor : Cursor, cursor.coming = taken ++ behind →
    ∃ trees, Builds cursor (rule cursor) taken trees ∧ Indistinct (forestParts trees) parts

namespace Reads

variable
  {rule other first second : Rule}
  {taken more behind : List Lexeme}
  {parts others : List Part}

/-- A rule that does what another one does reads what that one reads. -/
theorem congr
    (reads : Reads other taken parts behind)
    (same : ∀ cursor : Cursor, cursor.coming = taken ++ behind → rule cursor = other cursor) :
    Reads rule taken parts behind := by
  intro cursor coming
  rw [same cursor coming]
  exact reads cursor coming

/-- What is read may be given as other parts that look the same. -/
theorem alike
    (reads : Reads rule taken others behind)
    (same : seen others = seen parts) :
    Reads rule taken parts behind := by
  intro cursor coming
  obtain ⟨trees, builds, looks⟩ := reads cursor coming
  exact ⟨trees, builds, looks.trans same⟩

/-- Nothing is read where nothing is taken. -/
theorem nothing : Reads (fun cursor => cursor) [] [] behind :=
  fun cursor _ => ⟨[], .self cursor, rfl⟩

/-- A rule that comes down to two others behind one another reads what each of them reads. -/
theorem andThen
    (reads : Reads first taken parts (more ++ behind))
    (next : Reads second more others behind)
    (same : ∀ cursor : Cursor, cursor.coming = taken ++ (more ++ behind) →
      (first cursor).coming = more ++ behind → rule cursor = second (first cursor)) :
    Reads rule (taken ++ more) (parts ++ others) behind := by
  intro cursor coming
  rw [List.append_assoc] at coming
  obtain ⟨trees, builds, looks⟩ := reads cursor coming
  have comingNext := builds.coming_eq coming
  obtain ⟨later, buildsLater, looksLater⟩ := next (first cursor) comingNext
  refine ⟨trees ++ later, ?_, ?_⟩
  · rw [same cursor coming comingNext]
    exact builds.trans buildsLater
  · rw [forestParts_append]
    simp only [Indistinct, seen_append, show seen _ = seen _ from looks,
      show seen _ = seen _ from looksLater]

/-- Rules that follow one another read what each of them reads. -/
theorem append
    (reads : Reads first taken parts (more ++ behind))
    (next : Reads second more others behind) :
    Reads (fun cursor => second (first cursor)) (taken ++ more) (parts ++ others) behind :=
  reads.andThen next fun _ _ _ => rfl

theorem bump
    (lexeme : Lexeme) :
    Reads Cursor.bump [lexeme] lexeme.parts behind := by
  intro cursor coming
  obtain ⟨token, rfl, builds⟩ := Builds.bump coming
  refine ⟨_, builds, ?_⟩
  rw [Indistinct, forestParts_append, seen_append, seen_trivia, seen_leaf, List.nil_append]

/-- A node is read as what its kind makes of what is read inside of it. -/
theorem node
    {kind : Kind}
    (notLength : kind ≠ .arrayLength)
    (reads : Reads rule taken parts behind) :
    Reads (Cursor.node kind rule) taken [Read.node kind here parts] behind := by
  intro cursor coming
  obtain ⟨trees, inside, looks⟩ :=
    reads (cursor.openNode kind) (by rw [coming_openNode, coming])
  obtain ⟨span, builds⟩ := inside.node
  refine ⟨_, builds, ?_⟩
  exact indistinct_node notLength looks

/-! ### Single tokens -/

theorem eat
    (lexeme : Lexeme) :
    Reads (Cursor.eat lexeme.kind) [lexeme] lexeme.parts behind :=
  (bump lexeme).congr fun cursor coming => by simp [Cursor.eat, sees, peek?_eq, coming]

/-- A token that does not come next is not taken. -/
theorem eat_absent
    {kind : Kind}
    (absent : ∀ lexeme ∈ behind.head?, lexeme.kind ≠ kind) :
    Reads (Cursor.eat kind) [] [] behind := by
  exact nothing.congr fun cursor coming => by simp [Cursor.eat, sees_eq_false coming absent]

theorem expect
    (lexeme : Lexeme)
    (fault : SyntaxFault) :
    Reads (Cursor.expect lexeme.kind fault) [lexeme] lexeme.parts behind :=
  (bump lexeme).congr fun cursor coming => by simp [Cursor.expect, sees, peek?_eq, coming]

theorem name
    (ident : Identifier) :
    Reads Grammar.name [ident.lexeme] [.name ident.ident] behind := by
  have isIdent : ∀ cursor : Cursor, cursor.coming = [ident.lexeme] ++ behind →
      Grammar.name cursor = cursor.node .name Cursor.bump := by
    intro cursor coming
    simp [Grammar.name, sees, peek?_eq, coming, Identifier.lexeme]
  exact (((bump ident.lexeme).node (by decide)).congr isIdent).alike rfl

end Reads

/-- Whether a lexeme of a class comes first. -/
def Heads
    (belongs : Kind → Bool)
    (lexemes : List Lexeme) :
    Prop :=
  ∃ first rest, lexemes = first :: rest ∧ belongs first.kind = true

theorem Heads.imp
    {belongs others : Kind → Bool}
    {lexemes : List Lexeme}
    (heads : Heads belongs lexemes)
    (also : ∀ kind, belongs kind = true → others kind = true) :
    Heads others lexemes := by
  obtain ⟨first, rest, isFirst, isIn⟩ := heads
  exact ⟨first, rest, isFirst, also _ isIn⟩

theorem Heads.append
    {belongs : Kind → Bool}
    {lexemes : List Lexeme}
    (heads : Heads belongs lexemes)
    (behind : List Lexeme) :
    Heads belongs (lexemes ++ behind) := by
  obtain ⟨first, rest, rfl, isIn⟩ := heads
  exact ⟨first, rest ++ behind, rfl, isIn⟩

/-- No kind outside of the class comes first. -/
theorem Heads.ne
    {belongs : Kind → Bool}
    {lexemes : List Lexeme}
    {kind : Kind}
    (heads : Heads belongs lexemes)
    (outside : belongs kind = false) :
    ∀ first ∈ lexemes.head?, first.kind ≠ kind := by
  obtain ⟨first, rest, rfl, isIn⟩ := heads
  rintro _ ⟨⟩ rfl
  exact Bool.false_ne_true (outside.symm.trans isIn)

/-- Whether a rule reads each of several pieces as one part wherever a lexeme of a class follows. -/
abbrev ReadsEach
    (rule : Rule)
    (follows : Kind → Bool) :
    List (List Lexeme) → List Part → Prop :=
  List.Forall₂ fun taken part => ∀ behind, Heads follows behind → Reads rule taken [part] behind

section Lists

variable
  {turn : Unit → Cursor → Turn Unit}
  {rule : Rule}
  {follows : Kind → Bool}
  {closing : Lexeme}
  {behind : List Lexeme}

/-- A loop through pieces with commas between them reads each of the pieces. -/
theorem Reads.commas
    (ends : Ends turn)
    (comma : follows .comma = true)
    (closes : follows closing.kind = true)
    (notComma : closing.kind ≠ .comma)
    {pieces : List (List Lexeme)}
    {parts : List Part}
    (each : ReadsEach rule follows pieces parts)
    (some : pieces ≠ [])
    (enters : ∀ piece ∈ pieces, ∀ (cursor : Cursor) (others : List Lexeme),
      cursor.coming = piece ++ others → turn () cursor = commaTurn (rule cursor)) :
    Reads (fun cursor => (loop turn () cursor).2) (commaSeparated pieces) parts
      (closing :: behind) := by
  induction each with
  | nil => exact absurd rfl some
  | @cons piece part pieces parts reads each inductionHypothesis =>
      have enter := enters piece List.mem_cons_self
      cases each with
      | nil =>
          rw [commaSeparated, List.flatMap_nil]
          refine (reads _ ⟨closing, behind, rfl, closes⟩).andThen .nothing
            fun cursor coming behindPiece => ?_
          have unseen : (rule cursor).sees .comma = false := by
            simpa [sees, peek?_eq, behindPiece] using notComma
          simp [ends.loop_eq () cursor, enter _ _ coming, commaTurn, unseen]
      | @cons second _ rest _ _ _ =>
          have later := inductionHypothesis (List.cons_ne_nil _ _) fun piece member =>
            enters piece (List.mem_cons_of_mem _ member)
          refine (reads _ ⟨_, _, rfl, comma⟩).andThen ((Reads.bump (.ofKind .comma)).append later)
            fun cursor coming behindPiece => ?_
          have seen : (rule cursor).sees .comma = true := by
            simp [sees, peek?_eq, behindPiece, Lexeme.ofKind]
          simp [ends.loop_eq () cursor, enter _ _ coming, commaTurn, seen]

end Lists

/-! ### Items between braces -/

/-- Whether a kind can begin an item between braces. -/
def beginsItem
    (kind : Kind) :
    Bool :=
  !endsItem (some .rightBrace) kind

section Items

variable
  {item : Rule}
  {separator : Lexeme}
  {taken behind : List Lexeme}
  {part : Part}

/-- A terminator is taken, and not read. -/
theorem Reads.terminator
    {closing : Option Kind}
    (terminates : separator.kind.isTerminator = true) :
    Reads (Grammar.terminator closing) [separator] [] behind := by
  have unread : separator.parts = [] := by
    unfold Lexeme.parts
    cases kind : separator.kind <;> simp [kind, Kind.isTerminator] at terminates <;> rfl
  refine ((bump separator).congr fun cursor coming => ?_).alike (by rw [unread])
  simp [Grammar.terminator, seesAny, peek?_eq, coming, terminates]

/-- A closing bracket stands for a terminator. -/
theorem Reads.terminator_closing
    {closing : Lexeme}
    (notTerminator : closing.kind.isTerminator = false) :
    Reads (Grammar.terminator (some closing.kind)) [] [] (closing :: behind) :=
  nothing.congr fun cursor coming => by
    simp [Grammar.terminator, seesAny, peek?_eq, coming, notTerminator]

/-- An item is read with the terminator behind it. -/
theorem Reads.listed
    {closing : Kind}
    (reads : Reads item taken [part] (separator :: behind))
    (terminates : separator.kind.isTerminator = true) :
    Reads (Grammar.listed closing item) (taken ++ [separator]) [part] behind :=
  (reads.andThen (terminator terminates) fun _ _ _ => rfl).alike rfl

theorem Reads.listed_closing
    {closing : Lexeme}
    (reads : Reads item taken [part] (closing :: behind))
    (notTerminator : closing.kind.isTerminator = false) :
    Reads (Grammar.listed closing.kind item) (taken ++ []) [part] (closing :: behind) :=
  (reads.andThen (terminator_closing notTerminator) fun _ _ _ => rfl).alike rfl

theorem Reads.skipTerminators
    {belongs : Kind → Bool}
    (heads : Heads belongs behind)
    (others : ∀ kind, belongs kind = true → kind.isTerminator = false) :
    Reads Grammar.skipTerminators [] [] behind := by
  obtain ⟨first, rest, rfl, isFirst⟩ := heads
  refine nothing.congr fun cursor coming => ?_
  rw [Grammar.skipTerminators, terminates.terminators.repeatWhile_eq]
  simp [seesAny, peek?_eq, coming, others _ isFirst]

end Items

section ItemLists

variable
  {item : Rule}
  (ends : ∀ closing, Ends (whileTurn (goesOn closing) (Grammar.listed closing item)))

include ends

/-- Where an item comes next, the loop through items takes it with its terminator. -/
theorem repeatItems_eq
    {piece others : List Lexeme}
    (begins : Heads beginsItem piece)
    {cursor : Cursor}
    (coming : cursor.coming = piece ++ others) :
    repeatWhile (goesOn .rightBrace) (listed .rightBrace item) cursor =
      repeatWhile (goesOn .rightBrace) (listed .rightBrace item)
        (listed .rightBrace item cursor) := by
  have notClosing := begins.ne (rfl : beginsItem .rightBrace = false)
  obtain ⟨first, rest, rfl, isFirst⟩ := begins
  replace notClosing := notClosing first rfl
  rw [(ends .rightBrace).repeatWhile_eq]
  simp [goesOn, atEnd, sees, peek?_eq, coming, notClosing]

theorem Reads.repeatItems_nil
    (behind : List Lexeme) :
    Reads (repeatWhile (goesOn .rightBrace) (Grammar.listed .rightBrace item)) [] []
      (.ofKind .rightBrace :: behind) := by
  refine nothing.congr fun cursor coming => ?_
  rw [(ends .rightBrace).repeatWhile_eq]
  simp [goesOn, atEnd, sees, peek?_eq, coming, Lexeme.ofKind]

/-- A loop through items with terminators between them reads each of the items. -/
theorem Reads.repeatItems
    {style : ItemStyle}
    (regular : style.Regular)
    {pieces : List (List Lexeme)}
    {parts : List Part}
    (each : ReadsEach item (endsItem (some .rightBrace)) pieces parts)
    (begin : ∀ piece ∈ pieces, Heads beginsItem piece)
    (behind : List Lexeme) :
    Reads (repeatWhile (goesOn .rightBrace) (Grammar.listed .rightBrace item)) (style.items pieces)
      parts (.ofKind .rightBrace :: behind) := by
  induction each with
  | nil => exact repeatItems_nil ends behind
  | @cons piece part pieces parts reads each inductionHypothesis =>
      have begins := begin piece List.mem_cons_self
      cases each with
      | nil =>
          have last : Reads (Grammar.listed .rightBrace item) (piece ++ style.closing) [part]
              (.ofKind .rightBrace :: behind) := by
            rcases regular.closing with closing | closing <;> rw [closing]
            · exact listed_closing (reads _ ⟨_, _, rfl, rfl⟩) rfl
            · exact listed (reads _ ⟨_, _, rfl, by simp [endsItem, regular.separator]⟩)
                regular.separator
          have items : style.items [piece] = piece ++ style.closing ++ [] := by
            simp [ItemStyle.items, ItemStyle.afterItem, regular.opening]
          rw [items]
          refine last.andThen (repeatItems_nil ends behind) fun cursor coming _ => ?_
          rw [List.append_assoc] at coming
          exact repeatItems_eq ends begins coming
      | @cons second _ rest _ _ _ =>
          have later := inductionHypothesis fun piece member =>
            begin piece (List.mem_cons_of_mem _ member)
          have first : Reads (Grammar.listed .rightBrace item) (piece ++ [style.separator]) [part]
              (style.items (second :: rest) ++ .ofKind .rightBrace :: behind) :=
            listed (reads _ ⟨_, _, rfl, by simp [endsItem, regular.separator]⟩) regular.separator
          have items : style.items (piece :: second :: rest) =
              piece ++ [style.separator] ++ style.items (second :: rest) := by
            simp [ItemStyle.items, ItemStyle.afterItem, regular.opening]
          rw [items]
          refine first.andThen later fun cursor coming _ => ?_
          rw [List.append_assoc] at coming
          exact repeatItems_eq ends begins coming

/-- The items between braces are read up to the closing one. -/
theorem Reads.items
    {style : ItemStyle}
    (regular : style.Regular)
    {pieces : List (List Lexeme)}
    {parts : List Part}
    (each : ReadsEach item (endsItem (some .rightBrace)) pieces parts)
    (begin : ∀ piece ∈ pieces, Heads beginsItem piece)
    (fault : SyntaxFault)
    (behind : List Lexeme) :
    Reads (Grammar.items .rightBrace fault item)
      (style.items pieces ++ [.ofKind .rightBrace]) parts behind := by
  have repeated := repeatItems ends regular each begin behind
  have heads : Heads (fun kind => !kind.isTerminator)
      (style.items pieces ++ ([.ofKind .rightBrace] ++ behind)) := by
    cases pieces with
    | nil => exact ⟨_, _, rfl, rfl⟩
    | cons piece rest =>
        obtain ⟨first, others, rfl, isFirst⟩ := begin piece List.mem_cons_self
        refine ⟨first, _, by simp only [ItemStyle.items, regular.opening]; rfl, ?_⟩
        simp only [beginsItem, endsItem, Bool.not_or, Bool.and_eq_true] at isFirst
        exact isFirst.1
  have begun := skipTerminators heads (by simp)
  have all := (begun.append repeated).append (expect (.ofKind .rightBrace) fault)
  exact all.alike (by simp [Lexeme.parts, Lexeme.ofKind, Kind.isRead])

end ItemLists

end Grammar

end Implementers.Syntax
