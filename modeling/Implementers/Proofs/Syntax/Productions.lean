import Implementers.Proofs.Syntax.Phrases
import Implementers.Proofs.Syntax.TypeRules

namespace Implementers.Syntax

/-!
# The trees of texts without faults

Every rule of the parser notes a fault, or gives a phrase that the production of its construct
allows.  So the tree of a text that parses without a fault is derived by the grammar, down to its
tokens.
-/

open Computability

namespace Grammar

open Cursor hiding node
open Phrases (token node type optional ending)

theorem gives_bump_ending
    {cursor : Cursor}
    (seen : cursor.seesAny Kind.isTerminator = true) :
    Gives ending cursor cursor.bump := by
  obtain ⟨kind, peeked, ends⟩ := Option.any_eq_true _ _ |>.mp seen
  have taken : Gives (token kind) cursor cursor.bump := .bump (sees_of_peek? peeked)
  cases kind with
  | semicolon => exact taken.left
  | newline => exact taken.right
  | _ => cases ends

theorem gives_skipTerminators
    (cursor : Cursor) :
    Gives ending∗ cursor (skipTerminators cursor) :=
  .repeatWhile (fun _ seen => gives_bump_ending seen) cursor

theorem gives_terminator
    (closing : Option Kind)
    (cursor : Cursor) :
    Gives (optional ending) cursor (terminator closing cursor) := by
  unfold terminator
  split
  · next seen => exact (gives_bump_ending seen).present
  · split
    · exact .absent cursor
    · exact (Gives.recover _ _ cursor).zero_trans (.when gives_bump_ending)

theorem gives_name
    (cursor : Cursor) :
    Gives (node .name) cursor (name cursor) := by
  unfold name
  split
  · next seen => exact .node (.bump (sees_openNode seen _))
  · exact .report cursor _

theorem gives_items
    {phrases : Phrases}
    {item : Rule}
    (closing : Kind)
    (fault : SyntaxFault)
    (takes : ∀ cursor, Gives phrases cursor (item cursor))
    (cursor : Cursor) :
    Gives (.items closing phrases) cursor (Grammar.items closing fault item cursor) :=
  have listed (cursor : Cursor) :
      Gives (phrases * optional ending) cursor (listed closing item cursor) :=
    (takes cursor).trans (gives_terminator _ _)
  ((gives_skipTerminators cursor).trans (.repeatWhile (fun cursor _ => listed cursor) _)).trans
    (.expect closing fault _)

/-- A comma behind an entry is followed by another turn. -/
theorem turn_comma
    {phrases : Phrases}
    {cursor taken : Cursor}
    (gives : Gives phrases cursor taken) :
    Gives.Turn (phrases * token .comma) (optional phrases) cursor (commaTurn taken) := by
  unfold commaTurn
  split
  · next seen => exact .again (gives.trans (.bump seen))
  · exact .done gives.present

theorem gives_closeParams
    (taken : Cursor) :
    Gives (token .rightParen) taken (closeParams taken) := by
  unfold closeParams
  split
  · next seen => exact .bump seen
  · exact (Gives.recover _ _ _).zero_trans (.eat .rightParen _)

theorem gives_qualification
    (first : Cursor) :
    Gives (optional (token .dot * token .ident)) first (qualification first) :=
  .when fun seen => (Gives.bump seen).trans (.expect _ _ _)

theorem gives_chanMarks
    {opened : Cursor}
    (seen : opened.sees .chanKeyword = true ∨ opened.sees .arrow = true) :
    Gives (token .arrow * token .chanKeyword + token .chanKeyword * optional (token .arrow)) opened
      (chanMarks opened) := by
  unfold chanMarks
  split
  · next arrow => exact .left ((Gives.bump arrow).trans (.expect _ _ _))
  · next other =>
      have keyword := seen.resolve_right other
      exact .right ((Gives.bump keyword).trans (.eat _ _))

theorem gives_braces
    {phrases : Phrases}
    {item : Rule}
    (takes : ∀ cursor, Gives phrases cursor (item cursor))
    (taken : Cursor) :
    Gives (token .leftBrace * .items .rightBrace phrases) taken (braces item taken) := by
  unfold braces
  split
  · next seen => exact (Gives.bump seen).trans (gives_items _ _ takes _)
  · exact .report taken _

theorem gives_moreNames
    (cursor : Cursor) :
    Gives (token .comma * node .name)∗ cursor (moreNames cursor) :=
  .repeatWhile (fun _ seen => (Gives.bump seen).trans (gives_name _)) cursor

/-- A node of a kind of type expressions is a type expression. -/
theorem gives_type
    {kind : Kind}
    {cursor after : Cursor}
    (isType : kind.isTypeExpression = true)
    (gives : Gives (node kind) cursor after) :
    Gives type cursor after :=
  gives.mono fun _ isNode => ⟨kind, isType, isNode⟩

theorem gives_bracedType
    {kind keyword : Kind}
    {phrases : Phrases}
    {item : Rule}
    {cursor : Cursor}
    (isType : kind.isTypeExpression = true)
    (allows : production kind = token keyword * (token .leftBrace * .items .rightBrace phrases))
    (seen : cursor.sees keyword = true)
    (takes : ∀ cursor, Gives phrases cursor (item cursor)) :
    Gives type cursor (bracedType kind item cursor) :=
  gives_type isType
    (.node (allows ▸ (Gives.bump (sees_openNode seen kind)).trans (gives_braces takes _)))

section TypeExpressions

variable
  {typeRule : Rule}
  (types : ∀ cursor, Gives type cursor (typeRule cursor))
  {cursor : Cursor}

include types

theorem gives_param
    (cursor : Cursor) :
    Gives (node .param) cursor (param typeRule cursor) :=
  .node (((Gives.when fun _ => gives_name _).trans (.eat .ellipsis _)).trans (types _))

theorem gives_paramList
    (seen : cursor.sees .leftParen = true) :
    Gives (node .paramList) cursor (paramList typeRule cursor) := by
  have turn (state : Unit) (cursor : Cursor) :
      Gives.Turn (node .param * token .comma) (optional (node .param)) cursor
        (paramTurn typeRule state cursor) := by
    unfold paramTurn
    split
    · exact .done (.absent cursor)
    · exact turn_comma (gives_param types cursor)
  have entries := Gives.loop le_self_add turn () (cursor.openNode .paramList).bump
  exact .node (((Gives.bump (sees_openNode seen _)).trans entries).trans (gives_closeParams _))

theorem gives_results
    (taken : Cursor) :
    Gives (optional (node .result)) taken (results typeRule taken) := by
  unfold results
  split
  · next seen => exact .present (.node (.left (gives_paramList types (sees_openNode seen _))))
  · split
    · exact .present (.node (.right (types _)))
    · exact .absent taken

theorem gives_signature
    (cursor : Cursor) :
    Gives .signature cursor (signature typeRule cursor) := by
  unfold signature
  split
  · next seen => exact (gives_paramList types seen).trans (gives_results types _)
  · exact .report cursor _

theorem gives_arguments
    (named : Cursor) :
    Gives (optional (node .typeArgs)) named (arguments typeRule named) := by
  have turn (state : Unit) (cursor : Cursor) :
      Gives.Turn (type * token .comma) (optional type) cursor
        (typeArgTurn typeRule state cursor) := by
    unfold typeArgTurn
    split
    · exact .done (.absent cursor)
    · split
      · exact turn_comma (types cursor)
      · exact .done ((types cursor).trans_zero (.recover _ _ _))
  refine .when fun bracket => ?_
  have seen := sees_openNode (Bool.and_eq_true_iff.mp bracket).1 .typeArgs
  have entries := Gives.loop le_self_add turn () (named.openNode .typeArgs).bump
  exact .node (((Gives.bump seen).trans entries).trans (.expect _ _ _))

theorem gives_typeName
    (seen : cursor.sees .ident = true) :
    Gives (node .typeName) cursor (typeName typeRule cursor) :=
  .node (((Gives.bump (sees_openNode seen _)).trans (gives_qualification _)).trans
    (gives_arguments types _))

theorem gives_sliceOrArrayType
    (seen : cursor.sees .leftBracket = true) :
    Gives type cursor (sliceOrArrayType typeRule cursor) := by
  have opens (kind : Kind) := Gives.bump (sees_openNode seen kind)
  unfold sliceOrArrayType
  split
  · next closes =>
      have closes : (cursor.openNode .sliceType).bump.sees .rightBracket = true := by
        rw [sees, peek?_bump, peek?_openNode]
        exact closes
      exact gives_type rfl (.node (((opens _).trans (.bump closes)).trans (types _)))
  · have turn (depth : Nat) (cursor : Cursor) :
        Gives.Turn .tokens .tokens cursor (arrayLengthTurn depth cursor) := by
      unfold arrayLengthTurn
      split
      · exact .done ((Gives.nothing cursor).mono Phrases.one_le_tokens)
      · split
        · exact .done ((Gives.nothing cursor).mono Phrases.one_le_tokens)
        · exact .again (.bump_tokens cursor)
      · exact .again (.bump_tokens cursor)
      · exact .again (.bump_tokens cursor)
    have length (cursor : Cursor) :
        Gives (node .arrayLength) cursor
          (cursor.node .arrayLength fun inner => (loop arrayLengthTurn 0 inner).2) :=
      .node (.loop_tokens turn 0 _)
    exact gives_type rfl
      (.node ((((opens _).trans (length _)).trans (.expect _ _ _)).trans (types _)))

theorem gives_mapType
    (seen : cursor.sees .mapKeyword = true) :
    Gives type cursor (mapType typeRule cursor) :=
  have key := ((Gives.bump (sees_openNode seen .mapType)).trans (.expect _ _ _)).trans (types _)
  gives_type rfl (.node ((key.trans (.expect _ _ _)).trans (types _)))

theorem gives_chanType
    (seen : cursor.sees .chanKeyword = true ∨ cursor.sees .arrow = true) :
    Gives type cursor (chanType typeRule cursor) :=
  have opened := seen.imp (sees_openNode · .chanType) (sees_openNode · .chanType)
  gives_type rfl (.node ((gives_chanMarks opened).trans (types _)))

theorem gives_fieldDecl
    (cursor : Cursor) :
    Gives (node .fieldDecl) cursor (fieldDecl typeRule cursor) := by
  refine .node (Gives.trans ?_ (.eat .string _))
  split
  · next star =>
      refine .left ((Gives.bump star).trans ?_)
      dsimp only
      split
      · next seen => exact gives_typeName types seen
      · exact .report _ _
  · split
    · next seen =>
        split
        · exact .right (.left (gives_typeName types seen))
        · exact .right (.right (((gives_name _).trans (gives_moreNames _)).trans (types _)))
    · exact .recover _ _ _

/-- A term is the last one, or a bar behind it tells that the element is a set of types. -/
theorem termTurn_cases
    (typeSet : Bool)
    (cursor : Cursor) :
    (∃ behind, termTurn typeRule typeSet cursor = .again true behind ∧
        Gives (.term * token .pipe) cursor behind) ∨
      ∃ behind, termTurn typeRule typeSet cursor = .done (typeSet || cursor.sees .tilde) behind ∧
        Gives .term cursor behind ∧ (cursor.sees .tilde = false → Gives type cursor behind) := by
  have term := (Gives.eat .tilde cursor).trans (types (cursor.eat .tilde))
  unfold termTurn
  dsimp only
  split
  · split
    · next bar => exact .inl ⟨_, rfl, term.trans (.bump bar)⟩
    · refine .inr ⟨_, rfl, term, fun untilded => ?_⟩
      rw [eat, if_neg (by simp [untilded])]
      exact types cursor
  · exact .inr ⟨_, rfl, term.trans_zero (.recover _ _ _),
      fun _ => term.trans_zero (.recover _ _ _)⟩

/-- The terms of an interface element are a set of types, or a single type. -/
theorem gives_terms
    (begun : Cursor) :
    Gives (production (if (loop (termTurn typeRule) false begun).1 then .typeSetElem
        else .embeddedElem)) begun (loop (termTurn typeRule) false begun).2 := by
  have turn (typeSet : Bool) (cursor : Cursor) :
      Gives.Turn (.term * token .pipe) (optional .term) cursor
        (termTurn typeRule typeSet cursor) := by
    rcases termTurn_cases types typeSet cursor with
      ⟨behind, taken, gives⟩ | ⟨behind, taken, gives, _⟩
    · exact taken ▸ .again gives
    · exact taken ▸ .done gives.present
  have stays (count : Nat) : ∀ cursor, (turns (termTurn typeRule) count true cursor).1 = true := by
    induction count with
    | zero => exact fun _ => rfl
    | succ count inductionHypothesis =>
        intro cursor
        rcases termTurn_cases types true cursor with ⟨behind, taken, _⟩ | ⟨behind, taken, _⟩
        · simp only [turns, taken, inductionHypothesis]
        · simp only [turns, taken, Bool.true_or]
  have terms := Gives.loop le_self_add turn false begun
  split
  · exact terms
  · next single =>
      simp only [loop, turns] at single ⊢
      rcases termTurn_cases types false begun with
        ⟨behind, taken, _⟩ | ⟨behind, taken, _, isType⟩
      · simp only [taken, stays, not_true_eq_false] at single
      · simp only [taken, Bool.false_or, Bool.not_eq_true] at single ⊢
        exact isType single

theorem gives_interfaceElem
    (cursor : Cursor) :
    Gives (node .methodSpec + (node .embeddedElem + node .typeSetElem)) cursor
      (interfaceElem typeRule cursor) := by
  unfold interfaceElem
  split
  · exact .left (.node ((gives_name _).trans (gives_signature types _)))
  · have element := (Gives.skipTrivia cursor).trans
      (.wrapped (gives_terms types cursor.skipTrivia))
    rw [one_mul] at element
    refine .right (element.mono ?_)
    split
    · exact le_add_self
    · exact le_self_add

theorem gives_typeExpr
    (cursor : Cursor) :
    Gives type cursor (typeExpr typeRule cursor) := by
  unfold typeExpr
  split
  · next seen => exact gives_type rfl (gives_typeName types (sees_of_peek? seen))
  · next seen =>
      exact gives_type rfl
        (.node ((Gives.bump (sees_openNode (sees_of_peek? seen) .pointerType)).trans (types _)))
  · next seen => exact gives_sliceOrArrayType types (sees_of_peek? seen)
  · next seen => exact gives_mapType types (sees_of_peek? seen)
  · next seen => exact gives_chanType types (.inl (sees_of_peek? seen))
  · next seen => exact gives_chanType types (.inr (sees_of_peek? seen))
  · next seen =>
      exact gives_type rfl
        (.node ((Gives.bump (sees_openNode (sees_of_peek? seen) .funcType)).trans
          (gives_signature types _)))
  · next seen =>
      exact gives_bracedType rfl rfl (sees_of_peek? seen) (gives_fieldDecl types)
  · next seen =>
      exact gives_bracedType rfl rfl (sees_of_peek? seen) (gives_interfaceElem types)
  · next seen =>
      have inner := (Gives.bump (sees_openNode (sees_of_peek? seen) .parenType)).trans (types _)
      exact gives_type rfl (.node (inner.trans (.expect _ _ _)))
  · exact .report cursor _

end TypeExpressions

/-- Type expressions of any depth are derived. -/
theorem gives_typeWithin
    (depth : Nat) :
    ∀ cursor, Gives type cursor (typeWithin depth cursor) := by
  induction depth with
  | zero => exact fun cursor => .report cursor _
  | succ depth inductionHypothesis => exact gives_typeExpr inductionHypothesis

/-! ## Declarations -/

theorem gives_packageClause
    {cursor : Cursor}
    (seen : cursor.sees .packageKeyword = true) :
    Gives (node .packageClause * optional ending) cursor (packageClause cursor) := by
  refine (Gives.node ?_).trans (gives_terminator _ _)
  exact (Gives.bump (sees_openNode seen .packageClause)).trans (gives_name _)

theorem gives_importSpec
    (cursor : Cursor) :
    Gives (node .importSpec) cursor (importSpec cursor) := by
  have named (opened : Cursor) :
      Gives (node .name + optional (token .dot)) opened
        (if opened.sees .ident then name opened else eat .dot opened) := by
    split
    · exact .left (gives_name opened)
    · exact .right (.eat .dot opened)
  have path (named : Cursor) :
      Gives (token .string) named
        (if named.sees .string then named.bump
        else named.recover .importPath (endsItem (some .rightParen))) := by
    split
    · next seen => exact .bump seen
    · exact .recover _ _ named
  exact .node ((named _).trans (path _))

theorem gives_typeParams
    (cursor : Cursor) :
    Gives (node .typeParams) cursor (typeParams cursor) :=
  .node (.bumpBalanced _)

theorem gives_groupedDecl
    {kind keyword : Kind}
    {phrases : Phrases}
    {item : Rule}
    {cursor : Cursor}
    (allows : production kind = token keyword * .grouped phrases)
    (seen : cursor.sees keyword = true)
    (takes : ∀ cursor, Gives phrases cursor (item cursor)) :
    Gives (node kind * optional ending) cursor (groupedDecl kind item cursor) := by
  refine (Gives.node ?_).trans (gives_terminator _ _)
  refine allows ▸ (Gives.bump (sees_openNode seen kind)).trans ?_
  dsimp only
  split
  · next group => exact .left ((Gives.bump group).trans (gives_items _ _ takes _))
  · exact .right (takes _)

theorem gives_valueDecl
    (cursor : Cursor) :
    Gives (node .valueDecl * optional ending) cursor (valueDecl cursor) := by
  refine (Gives.node ?_).trans (gives_terminator _ _)
  have values (cursor : Cursor) : Gives .tokens cursor (tokenOrBrackets cursor) := by
    unfold tokenOrBrackets
    split
    · exact .bumpBalanced cursor
    · exact .bump_tokens cursor
  exact ((Gives.bump_tokens _).trans (.repeatWhile (fun cursor _ => values cursor) _)).mono
    (mul_kstar_le_kstar.trans Phrases.kstar_tokens_le)

section Declarations

variable
  {typeRule : Rule}
  (types : ∀ cursor, Gives type cursor (typeRule cursor))
  {cursor : Cursor}

include types

theorem gives_typeSpec
    (cursor : Cursor) :
    Gives (node .typeSpec) cursor (typeSpec typeRule cursor) := by
  refine .node ?_
  split
  · exact (((gives_name _).trans (.when fun _ => gives_typeParams _)).trans
      (.eat .equals _)).trans (types _)
  · exact (gives_name _).trans_zero (.recover _ _ _)

theorem gives_funcDecl
    (seen : cursor.sees .funcKeyword = true) :
    Gives (node .funcDecl * optional ending) cursor (funcDecl typeRule cursor) := by
  refine (Gives.node ?_).trans (gives_terminator _ _)
  have received (taken : Cursor) :
      Gives (optional (node .receiver)) taken
        (if taken.sees .leftParen then taken.node .receiver (paramList typeRule) else taken) :=
    .when fun paren => .node (gives_paramList types (sees_openNode paren _))
  have named (received : Cursor) :
      Gives (node .name * optional (node .typeParams) * .signature * optional (node .block))
        received
        (if received.sees .ident then
          let named := name received
          let signed :=
            signature typeRule (if named.sees .leftBracket then typeParams named else named)
          if signed.sees .leftBrace then signed.node .block bumpBalanced else signed
        else
          (name received).recover .functionName Kind.isTerminator) := by
    split
    · exact (((gives_name _).trans (.when fun _ => gives_typeParams _)).trans
        (gives_signature types _)).trans (.when fun _ => .node (.bumpBalanced _))
    · exact (gives_name _).trans_zero (.recover _ _ _)
  exact ((Gives.bump (sees_openNode seen .funcDecl)).trans (received _)).trans (named _)

theorem gives_declaration
    (cursor : Cursor) :
    Gives
      (ending + (node .importDecl + node .typeDecl + node .funcDecl + node .valueDecl) *
        optional ending)
      cursor (declaration typeRule cursor) := by
  have declared {kind : Kind}
      (isDecl : node kind ≤
        node .importDecl + node .typeDecl + node .funcDecl + node .valueDecl)
      {after : Cursor}
      (gives : Gives (node kind * optional ending) cursor after) :
      Gives
        (ending + (node .importDecl + node .typeDecl + node .funcDecl + node .valueDecl) *
          optional ending)
        cursor after :=
    (gives.mono (mul_le_mul' isDecl le_rfl)).right
  unfold declaration
  split
  · next seen => exact .left (.left (.bump (sees_of_peek? seen)))
  · next seen => exact .left (.right (.bump (sees_of_peek? seen)))
  · next seen =>
      refine declared ?_ (gives_groupedDecl rfl (sees_of_peek? seen) gives_importSpec)
      exact (le_self_add.trans le_self_add).trans le_self_add
  · next seen =>
      refine declared ?_ (gives_groupedDecl rfl (sees_of_peek? seen) (gives_typeSpec types))
      exact (le_add_self.trans le_self_add).trans le_self_add
  · next seen =>
      refine declared ?_ (gives_funcDecl types (sees_of_peek? seen))
      exact le_add_self.trans le_self_add
  · exact declared le_add_self (gives_valueDecl cursor)
  · exact declared le_add_self (gives_valueDecl cursor)
  · exact .recover _ _ cursor

theorem gives_sourceFile
    (cursor : Cursor) :
    Gives (production .sourceFile) cursor (sourceFile typeRule cursor) := by
  have clause (begun : Cursor) :
      Gives (node .packageClause * optional ending) begun
        (if begun.sees .packageKeyword then packageClause begun
        else begun.report .packageClause) := by
    split
    · next seen => exact gives_packageClause seen
    · exact .report begun _
  have whole : Gives (production .sourceFile * 1) cursor (sourceFile typeRule cursor) :=
    (((gives_skipTerminators cursor).trans (clause _)).trans
      (.repeatWhile (fun cursor _ => gives_declaration types cursor) _)).trans (.skipTrivia _)
  rwa [mul_one] at whole

end Declarations

end Grammar

namespace Parse

/-- The tree of a text that parses without a fault is a source file that the grammar derives. -/
theorem isDerived_ofText
    {text : String}
    (clean : (ofText text).errors = []) :
    ∃ span children,
      (ofText text).tree = .node .sourceFile span children ∧ (ofText text).tree.IsDerived := by
  have isEnd : endOf text =
      (Grammar.sourceFile (Grammar.typeWithin ((rootOf text).rest.length + 1))
        (rootOf text)).closeNode := rfl
  have gives := Grammar.gives_sourceFile
    (Grammar.gives_typeWithin ((rootOf text).rest.length + 1)) (rootOf text)
  generalize Grammar.sourceFile _ (rootOf text) = done at isEnd gives
  cases gives with
  | fault noted =>
      have none : done.errors.toList = [] := by
        rw [← Cursor.errors_closeNode, ← isEnd]
        exact clean
      simp [rootOf, startOf, Cursor.openAt, Array.toList_eq_nil_iff.mp none] at noted
  | @clean children _ parents built derived isPhrase =>
      have closed := @Cursor.closeNode_eq done _ _ _ #[] children parents rfl built
      have isTree : (ofText text).tree =
          .node .sourceFile ⟨(startOf text).mark.offset, done.offset⟩ children := by
        simp [ofText, isEnd, closed]
      exact ⟨_, children, isTree, isTree ▸ .node isPhrase derived⟩

end Parse

end Implementers.Syntax
