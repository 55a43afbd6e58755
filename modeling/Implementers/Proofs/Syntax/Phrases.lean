import Implementers.Proofs.Syntax.Passing
import Implementers.Proofs.Syntax.Lossless
import Mathlib.Computability.Language
import Mathlib.Order.CompletePartialOrder

namespace Implementers.Syntax

/-!
# The grammar as productions

What stands below a node of a syntax tree, apart from trivia, is a phrase.  The grammar says for each
kind of node which phrases are allowed, and it derives a tree whose nodes all have allowed phrases
below them.  None is allowed below a node that stands for source text that was passed over.

A run of the parser notes a fault, or gives a phrase.  Runs are put together as productions are: the
phrases are a product where one step follows another, a sum where the run branches, and a star where
it loops.
-/

open Computability

/-- What stands below a node: a token or another node, told by its kind. -/
inductive Letter where
  | token (kind : Kind)
  | node (kind : Kind)
  deriving Repr, DecidableEq

/-- Whether a letter is a token that separates others. -/
def Letter.isTrivia : Letter → Bool
  | .token kind => kind.isTrivia
  | .node _ => false

/-- A set of phrases, which are made of letters. -/
abbrev Phrases :=
  Language Letter

namespace Phrases

/-- A token of a kind. -/
def token
    (kind : Kind) :
    Phrases :=
  {[.token kind]}

/-- A node of a kind. -/
def node
    (kind : Kind) :
    Phrases :=
  {[.node kind]}

/-- A type expression. -/
def type : Phrases :=
  {phrase | ∃ kind, kind.isTypeExpression = true ∧ phrase = [.node kind]}

/-- Any run of tokens. -/
def tokens : Phrases :=
  {phrase | ∀ letter ∈ phrase, ∃ kind, letter = .token kind}

/-- A phrase that may be left out. -/
def optional
    (phrases : Phrases) :
    Phrases :=
  1 + phrases

/-- A semicolon, or a line break that stands for one. -/
def ending : Phrases :=
  token .semicolon + token .newline

/-- Items, each with its ending, and the bracket that closes them. -/
def items
    (closing : Kind)
    (item : Phrases) :
    Phrases :=
  ending∗ * (item * optional ending)∗ * token closing

/-- One item, or several ones between parentheses. -/
def grouped
    (item : Phrases) :
    Phrases :=
  token .leftParen * items .rightParen item + item

theorem one_le_tokens :
    1 ≤ tokens := by
  rintro _ rfl
  exact nofun

/-- Several runs of tokens are one. -/
theorem kstar_tokens_le :
    tokens∗ ≤ tokens := by
  rintro _ ⟨runs, rfl, areTokens⟩ letter member
  obtain ⟨run, inRuns, inRun⟩ := List.mem_flatten.mp member
  exact areTokens run inRuns letter inRun

/-- The parameters and the results of a function. -/
def signature : Phrases :=
  node .paramList * optional (node .result)

/-- A term of a set of types. -/
def term : Phrases :=
  optional (token .tilde) * type

end Phrases

open Phrases in
/-- What the grammar allows below a node. -/
def production : Kind → Phrases
  | .sourceFile =>
      ending∗ * (node .packageClause * optional ending) *
        (ending + (node .importDecl + node .typeDecl + node .funcDecl + node .valueDecl) *
          optional ending)∗
  | .packageClause => token .packageKeyword * node .name
  | .importDecl => token .importKeyword * grouped (node .importSpec)
  | .importSpec => (node .name + optional (token .dot)) * token .string
  | .typeDecl => token .typeKeyword * grouped (node .typeSpec)
  | .typeSpec => node .name * optional (node .typeParams) * optional (token .equals) * type
  | .funcDecl =>
      token .funcKeyword * optional (node .receiver) *
        (node .name * optional (node .typeParams) * signature * optional (node .block))
  | .receiver => node .paramList
  | .paramList =>
      token .leftParen * ((node .param * token .comma)∗ * optional (node .param)) *
        token .rightParen
  | .param => optional (node .name) * optional (token .ellipsis) * type
  | .result => node .paramList + type
  | .name => token .ident
  | .typeName =>
      token .ident * optional (token .dot * token .ident) * optional (node .typeArgs)
  | .typeArgs =>
      token .leftBracket * ((type * token .comma)∗ * optional type) * token .rightBracket
  | .pointerType => token .star * type
  | .sliceType => token .leftBracket * token .rightBracket * type
  | .arrayType => token .leftBracket * node .arrayLength * token .rightBracket * type
  | .mapType => token .mapKeyword * token .leftBracket * type * token .rightBracket * type
  | .chanType =>
      (token .arrow * token .chanKeyword + token .chanKeyword * optional (token .arrow)) * type
  | .funcType => token .funcKeyword * signature
  | .structType => token .structKeyword * (token .leftBrace * items .rightBrace (node .fieldDecl))
  | .fieldDecl =>
      (token .star * node .typeName +
        (node .typeName + node .name * (token .comma * node .name)∗ * type)) *
        optional (token .string)
  | .interfaceType =>
      token .interfaceKeyword * (token .leftBrace *
        items .rightBrace (node .methodSpec + (node .embeddedElem + node .typeSetElem)))
  | .methodSpec => node .name * signature
  | .embeddedElem => type
  | .typeSetElem => (term * token .pipe)∗ * optional term
  | .parenType => token .leftParen * type * token .rightParen
  | .arrayLength | .typeParams | .block | .valueDecl => tokens
  | _ => 0

namespace Tree

/-- What a tree is below the node around it. -/
def letter : Tree → Letter
  | .leaf token => .token token.kind
  | .node kind _ _ => .node kind

/-- The phrase that neighbouring trees make, which trivia does not count for. -/
def phrase
    (trees : List Tree) :
    List Letter :=
  (trees.map letter).filter fun letter => !letter.isTrivia

@[simp] theorem phrase_append
    (front back : List Tree) :
    phrase (front ++ back) = phrase front ++ phrase back := by
  simp [phrase]

/-- A tree that the grammar derives. -/
inductive IsDerived : Tree → Prop where
  | leaf
      (token : Token) :
      IsDerived (.leaf token)
  | node
      {kind : Kind}
      {span : Span}
      {children : List Tree}
      (allowed : phrase children ∈ production kind)
      (inside : ∀ child ∈ children, child.IsDerived) :
      IsDerived (.node kind span children)

end Tree

namespace Cursor

theorem sees_of_peek?
    {cursor : Cursor}
    {kind : Kind}
    (peeked : cursor.peek? 0 = some kind) :
    cursor.sees kind = true :=
  beq_iff_eq.mpr peeked

/-- Opening a node takes no significant token. -/
theorem sees_openNode
    {cursor : Cursor}
    {kind : Kind}
    (seen : cursor.sees kind = true)
    (opened : Kind) :
    (cursor.openNode opened).sees kind = true := by
  rwa [sees, peek?_openNode]

/-- Behind a token comes what is ahead of it. -/
theorem peek?_bump
    (cursor : Cursor)
    (index : Nat) :
    cursor.bump.peek? index = cursor.peek? (index + 1) := by
  rw [peek?, peek?, rest_bump, ahead_succ]

/-- A run that notes a fault, or adds trees that the grammar derives and that make a phrase. -/
inductive Gives
    (phrases : Phrases)
    (base cursor : Cursor) :
    Prop where
  | fault
      (noted : base.errors.size < cursor.errors.size) :
      Gives phrases base cursor
  | clean
      {trees : List Tree}
      (errors : cursor.errors = base.errors)
      (parents : cursor.parents = base.parents)
      (built : cursor.built.toList = base.built.toList ++ trees)
      (derived : ∀ tree ∈ trees, tree.IsDerived)
      (isPhrase : Tree.phrase trees ∈ phrases) :
      Gives phrases base cursor

namespace Gives

variable
  {phrases others : Phrases}
  {base middle cursor : Cursor}

/-- No fault is forgotten. -/
theorem errors_le
    (gives : Gives phrases base cursor) :
    base.errors.size ≤ cursor.errors.size := by
  cases gives with
  | fault noted => exact Nat.le_of_lt noted
  | clean errors => rw [errors]

theorem mono
    (gives : Gives phrases base cursor)
    (more : phrases ≤ others) :
    Gives others base cursor := by
  cases gives with
  | fault noted => exact .fault noted
  | clean errors parents built derived isPhrase =>
      exact .clean errors parents built derived (more isPhrase)

/-- Two runs in a row give a phrase of the one and then a phrase of the other. -/
theorem trans
    (first : Gives phrases base middle)
    (second : Gives others middle cursor) :
    Gives (phrases * others) base cursor := by
  cases first with
  | fault noted => exact .fault (Nat.lt_of_lt_of_le noted second.errors_le)
  | clean errors parents built derived isPhrase =>
      cases second with
      | fault noted => exact .fault (by rwa [errors] at noted)
      | @clean behind errorsNext parentsNext builtNext derivedNext isPhraseNext =>
          refine .clean (errorsNext.trans errors) (parentsNext.trans parents)
            (by rw [builtNext, built, List.append_assoc])
            (List.forall_mem_append.mpr ⟨derived, derivedNext⟩) ?_
          rw [Tree.phrase_append]
          exact Language.append_mem_mul isPhrase isPhraseNext

theorem nothing
    (cursor : Cursor) :
    Gives 1 cursor cursor :=
  .clean rfl rfl (List.append_nil _).symm nofun (Language.nil_mem_one)

/-- A fault stands for any phrase. -/
theorem report
    (cursor : Cursor)
    (fault : SyntaxFault) :
    Gives phrases cursor (cursor.report fault) :=
  .fault (by simp [Cursor.report])

/-- A run that gives no phrase notes a fault, and so it does whatever follows. -/
theorem of_zero
    (gives : Gives 0 base cursor) :
    Gives phrases base cursor :=
  gives.mono bot_le

/-- A fault is not undone by what follows. -/
theorem zero_trans
    (first : Gives 0 base middle)
    (second : Gives others middle cursor) :
    Gives phrases base cursor :=
  (zero_mul others ▸ first.trans second).of_zero

/-- A fault counts, whatever came before. -/
theorem trans_zero
    (first : Gives others base middle)
    (second : Gives 0 middle cursor) :
    Gives phrases base cursor :=
  (mul_zero others ▸ first.trans second).of_zero

theorem left
    (gives : Gives phrases base cursor) :
    Gives (phrases + others) base cursor :=
  gives.mono le_self_add

theorem right
    (gives : Gives others base cursor) :
    Gives (phrases + others) base cursor :=
  gives.mono le_add_self

theorem absent
    (cursor : Cursor) :
    Gives phrases.optional cursor cursor :=
  (nothing cursor).left

theorem present
    (gives : Gives phrases base cursor) :
    Gives phrases.optional base cursor :=
  gives.right

/-- A step that is taken under a condition. -/
theorem when
    {condition : Prop}
    [Decidable condition]
    (takes : condition → Gives phrases base cursor) :
    Gives phrases.optional base (if condition then cursor else base) := by
  split
  · next holds => exact (takes holds).present
  · exact absent base

/-- Tokens that are taken one by one give the phrase that they make. -/
theorem past
    {tokens rest : List Token}
    (isPhrase : Tree.phrase (tokens.map .leaf) ∈ phrases) :
    Gives phrases cursor (cursor.past tokens rest) := by
  refine .clean rfl rfl (by simp [Cursor.past]) (fun tree member => ?_) isPhrase
  obtain ⟨token, _, rfl⟩ := List.mem_map.mp member
  exact .leaf token

/-- Trivia gives nothing. -/
theorem skipTrivia
    (cursor : Cursor) :
    Gives 1 cursor cursor.skipTrivia := by
  refine @past _ cursor (cursor.rest.takeWhile isTrivia) _ ?_
  refine (Language.mem_one _).mpr (List.filter_eq_nil_iff.mpr fun letter member => ?_)
  simp only [List.map_map, List.mem_map] at member
  obtain ⟨token, trivia, rfl⟩ := member
  have isTrivial := List.all_eq_true.mp List.all_takeWhile token trivia
  simpa [Tree.letter, Letter.isTrivia, isTrivia] using isTrivial

/-- A token that comes next is taken. -/
theorem bump
    {kind : Kind}
    (seen : cursor.sees kind = true) :
    Gives (.token kind) cursor cursor.bump := by
  obtain ⟨token, rest, next, isKind⟩ :
      ∃ token rest, cursor.skipTrivia.rest = token :: rest ∧ token.kind = kind := by
    simp only [sees, peek?, ahead_zero, beq_iff_eq, Option.map_eq_some_iff] at seen
    obtain ⟨token, isHead, isKind⟩ := seen
    obtain ⟨rest, next⟩ := List.head?_eq_some_iff.mp isHead
    exact ⟨token, rest, next, isKind⟩
  have significant : token.kind.isTrivia = false := by
    have notTrivia := List.head?_dropWhile_not isTrivia cursor.rest
    rw [show cursor.rest.dropWhile isTrivia = token :: rest from next] at notTrivia
    exact notTrivia
  have isPhrase : Tree.phrase ([token].map .leaf) = [.token kind] := by
    simp [Tree.phrase, Tree.letter, Letter.isTrivia, significant, ← isKind]
  rw [bump_eq_past_skipTrivia next, ← one_mul (Phrases.token kind)]
  exact (skipTrivia cursor).trans (past (isPhrase ▸ Set.mem_singleton _))

/-- Whatever comes next, a token is taken, if there is one. -/
theorem bump_tokens
    (cursor : Cursor) :
    Gives .tokens cursor cursor.bump := by
  cases seen : cursor.peek? 0 with
  | none =>
      have none : cursor.skipTrivia.rest = [] := by
        simpa [rest_skipTrivia_eq_nil_iff, atEnd] using seen
      have bumped : cursor.bump = cursor.skipTrivia := by simp only [Cursor.bump, none]
      refine bumped ▸ (skipTrivia cursor).mono fun phrase isEmpty => ?_
      obtain rfl := (Language.mem_one phrase).mp isEmpty
      exact List.forall_mem_nil _
  | some kind =>
      have seen : cursor.sees kind = true := sees_of_peek? seen
      refine (bump seen).mono fun phrase isToken => ?_
      obtain rfl := Set.mem_singleton_iff.mp isToken
      exact List.forall_mem_singleton.mpr ⟨kind, rfl⟩

theorem eat
    (kind : Kind)
    (cursor : Cursor) :
    Gives (.optional (.token kind)) cursor (cursor.eat kind) :=
  when bump

theorem expect
    (kind : Kind)
    (fault : SyntaxFault)
    (cursor : Cursor) :
    Gives (.token kind) cursor (cursor.expect kind fault) := by
  unfold Cursor.expect
  split
  · next seen => exact bump seen
  · exact report cursor fault

/-! ### Nodes -/

/-- The trees added since a node was opened go below it if its production allows them. -/
theorem closeNode
    {kind : Kind}
    (inside : Gives (production kind) (base.openAt base.mark kind) middle) :
    Gives (.node kind) base middle.closeNode := by
  cases inside with
  | fault noted => exact .fault (by rwa [errors_closeNode])
  | clean errors parents built derived isPhrase =>
      rw [closeNode_eq parents rfl built]
      refine .clean errors rfl Array.toList_push ?_ (Set.mem_singleton _)
      exact List.forall_mem_singleton.mpr (.node isPhrase derived)

theorem node
    {kind : Kind}
    {rule : Rule}
    (inside : Gives (production kind) (cursor.openNode kind) (rule (cursor.openNode kind))) :
    Gives (.node kind) cursor (cursor.node kind rule) := by
  rw [← one_mul (Phrases.node kind)]
  exact (skipTrivia cursor).trans (closeNode inside)

/-- A node that is opened behind its content. -/
theorem wrapped
    {kind : Kind}
    (inside : Gives (production kind) base middle) :
    Gives (.node kind) base (middle.openAt base.mark kind).closeNode := by
  refine closeNode ?_
  cases inside with
  | fault noted => exact .fault noted
  | clean errors parents built derived isPhrase =>
      exact .clean errors (congrArg (List.cons _) parents) built derived isPhrase

/-! ### Loops -/

/-- What a turn gives before another turn, and what it gives at the end of the loop. -/
inductive Turn
    (again last : Phrases)
    (cursor : Cursor) :
    Cursor.Turn σ → Prop where
  | again
      {state : σ}
      {behind : Cursor}
      (gives : Gives again cursor behind) :
      Turn again last cursor (.again state behind)
  | done
      {state : σ}
      {behind : Cursor}
      (gives : Gives last cursor behind) :
      Turn again last cursor (.done state behind)

/-- A loop repeats what its turns give, and ends with what the last one gives. -/
theorem turns
    {turn : σ → Cursor → Cursor.Turn σ}
    {again last : Phrases}
    (mayStop : 1 ≤ last)
    (takes : ∀ state cursor, Turn again last cursor (turn state cursor))
    (count : Nat) :
    ∀ state cursor, Gives (again∗ * last) cursor (Cursor.turns turn count state cursor).2 := by
  induction count with
  | zero =>
      intro state cursor
      refine (nothing cursor).mono ?_
      rw [← one_mul (1 : Phrases)]
      exact mul_le_mul' one_le_kstar mayStop
  | succ count inductionHypothesis =>
      intro state cursor
      have step := takes state cursor
      simp only [Cursor.turns]
      generalize turn state cursor = taken at step
      cases step with
      | again gives =>
          refine (gives.trans (inductionHypothesis _ _)).mono ?_
          rw [← mul_assoc]
          exact mul_le_mul' mul_kstar_le_kstar le_rfl
      | done gives =>
          rw [← one_mul last] at gives
          exact gives.mono (mul_le_mul' one_le_kstar le_rfl)

theorem loop
    {turn : σ → Cursor → Cursor.Turn σ}
    {again last : Phrases}
    (mayStop : 1 ≤ last)
    (takes : ∀ state cursor, Turn again last cursor (turn state cursor))
    (state : σ)
    (cursor : Cursor) :
    Gives (again∗ * last) cursor (Cursor.loop turn state cursor).2 :=
  turns mayStop takes _ state cursor

theorem repeatWhile
    {condition : Cursor → Bool}
    {rule : Rule}
    (takes : ∀ cursor, condition cursor = true → Gives phrases cursor (rule cursor))
    (cursor : Cursor) :
    Gives phrases∗ cursor (cursor.repeatWhile condition rule) := by
  rw [← mul_one phrases∗]
  refine loop le_rfl (fun _ cursor => ?_) () cursor
  unfold whileTurn
  split
  · next holds => exact .again (takes cursor holds)
  · exact .done (nothing cursor)

/-- Tokens taken as long as a condition holds are tokens. -/
theorem repeatWhile_tokens
    {condition : Cursor → Bool}
    {rule : Rule}
    (takes : ∀ cursor, Gives .tokens cursor (rule cursor))
    (cursor : Cursor) :
    Gives .tokens cursor (cursor.repeatWhile condition rule) :=
  (repeatWhile (fun cursor _ => takes cursor) cursor).mono Phrases.kstar_tokens_le

/-- A recovery notes a fault. -/
theorem recover
    (fault : SyntaxFault)
    (stops : Kind → Bool)
    (cursor : Cursor) :
    Gives phrases cursor (cursor.recover fault stops) := by
  have taken (opened : Cursor) :
      Gives .tokens opened
        (if opened.seesAny stops then opened.bump
        else opened.repeatWhile (passesOver stops) Cursor.bump) := by
    split
    · exact bump_tokens opened
    · exact repeatWhile_tokens bump_tokens opened
  refine .fault ?_
  rw [Cursor.recover, Cursor.node, errors_closeNode]
  calc
    cursor.errors.size < (cursor.report fault).errors.size := by simp [Cursor.report]
    _ ≤ _ := (taken ((cursor.report fault).openNode .error)).errors_le

theorem loop_tokens
    {turn : σ → Cursor → Cursor.Turn σ}
    (takes : ∀ state cursor, Turn .tokens .tokens cursor (turn state cursor))
    (state : σ)
    (cursor : Cursor) :
    Gives .tokens cursor (Cursor.loop turn state cursor).2 :=
  (loop Phrases.one_le_tokens takes state cursor).mono
    (kstar_mul_le_kstar.trans Phrases.kstar_tokens_le)

/-- A balanced run of brackets is made of tokens. -/
theorem bumpBalanced
    (cursor : Cursor) :
    Gives .tokens cursor cursor.bumpBalanced := by
  have turn (opening closing : Kind) (depth : Nat) (cursor : Cursor) :
      Turn .tokens .tokens cursor (balancedTurn opening closing depth cursor) := by
    unfold balancedTurn
    split
    · exact .done (report cursor _)
    · split
      · exact .again (bump_tokens cursor)
      · split
        · split
          · exact .done (bump_tokens cursor)
          · exact .again (bump_tokens cursor)
        · exact .again (bump_tokens cursor)
  unfold Cursor.bumpBalanced
  split
  · exact bump_tokens cursor
  · split
    · exact bump_tokens cursor
    · exact loop_tokens (turn _ _) 0 cursor

end Gives

end Cursor

end Implementers.Syntax
