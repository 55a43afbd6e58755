import Implementers.Syntax.Grammar
import Mathlib.Tactic.ByContra

namespace Implementers.Syntax

/-!
# Facts about every rule of the grammar

The grammar is made of a few steps: look ahead, note a fault, take a token, open and close a node,
and go through a loop.  A relation between the cursors of two runs that these steps keep is kept by
every rule, whatever the rules for type expressions are that the two runs use, as long as those keep
it as well.  Facts about one run are the case where both cursors are the same.

A relation may also speak of the cursor at which the innermost open node began.
-/

namespace Cursor

/-- Trivia does not count ahead. -/
theorem ahead_dropWhile
    (index : Nat)
    (tokens : List Token) :
    ahead index (tokens.dropWhile isTrivia) = ahead index tokens := by
  induction tokens with
  | nil => rfl
  | cons token rest inductionHypothesis =>
      cases trivia : isTrivia token <;> simp [ahead, trivia, inductionHypothesis]

@[simp] theorem peek?_skipTrivia
    (cursor : Cursor)
    (index : Nat) :
    cursor.skipTrivia.peek? index = cursor.peek? index := by
  simp [peek?, skipTrivia, ahead_dropWhile]

@[simp] theorem peek?_openNode
    (cursor : Cursor)
    (kind : Kind)
    (index : Nat) :
    (cursor.openNode kind).peek? index = cursor.peek? index :=
  peek?_skipTrivia cursor index

@[simp] theorem atEnd_openNode
    (cursor : Cursor)
    (kind : Kind) :
    (cursor.openNode kind).atEnd = cursor.atEnd := by
  simp [atEnd]

/-- A significant token that is seen is still to come. -/
theorem atEnd_of_peek?
    {cursor : Cursor}
    {kind : Kind}
    (peeked : cursor.peek? 0 = some kind) :
    cursor.atEnd = false := by
  simp [atEnd, peeked]

theorem atEnd_of_sees
    {cursor : Cursor}
    {kind : Kind}
    (seen : cursor.sees kind) :
    cursor.atEnd = false :=
  atEnd_of_peek? (by simpa [sees] using seen)

theorem atEnd_of_seesAny
    {cursor : Cursor}
    {belongs : Kind → Bool}
    (seen : cursor.seesAny belongs) :
    cursor.atEnd = false := by
  cases peeked : cursor.peek? 0 with
  | none => simp [seesAny, peeked] at seen
  | some kind => exact atEnd_of_peek? peeked

/-- How two runs may be related, given where the innermost open node of the first one began. -/
abbrev Relation := Cursor → Cursor → Cursor → Prop

/-- Two runs stay related when they apply the same step. -/
structure Compatible
    (related : Relation) :
    Prop where
  peek {base left right : Cursor} : related base left right →
    ∀ index, left.peek? index = right.peek? index
  arrayType {base left right : Cursor} : related base left right →
    left.identThenArrayType = right.identThenArrayType
  tokens {base left right : Cursor} : related base left right →
    left.rest.length = right.rest.length
  report {base left right : Cursor} : related base left right →
    ∀ fault, related base (left.report fault) (right.report fault)
  bump {base left right : Cursor} : related base left right →
    related base left.bump right.bump
  skipTrivia {base left right : Cursor} : related base left right →
    related base left.skipTrivia right.skipTrivia
  restart {base left right : Cursor} : related base left right → related left left right
  opened {base left right : Cursor} : related base left right → ∀ kind,
    related (left.openNode kind) (left.openNode kind) (right.openNode kind)
  closed {base left right inner innerRight : Cursor} {kind : Kind} : kind ≠ .sourceFile →
    related base left right → related (left.openNode kind) inner innerRight →
    related base inner.closeNode innerRight.closeNode
  wrapped {base left right inner innerRight : Cursor} {kind : Kind} : kind ≠ .sourceFile →
    related base left right → related left inner innerRight →
    related base (inner.openAt left.mark kind).closeNode
      (innerRight.openAt right.mark kind).closeNode

/-- Two rules keep two runs related. -/
def Respects
    (related : Relation)
    (rule other : Rule) :
    Prop :=
  ∀ ⦃base left right : Cursor⦄, related base left right → related base (rule left) (other right)

/-- Two runs take the same kind of turn and stay related. -/
inductive Turn.Related
    (related : Relation)
    (base : Cursor) :
    Turn σ → Turn σ → Prop where
  | again
      {state : σ}
      {left right : Cursor}
      (keeps : related base left right) :
      Turn.Related related base (.again state left) (.again state right)
  | done
      {state : σ}
      {left right : Cursor}
      (keeps : related base left right) :
      Turn.Related related base (.done state left) (.done state right)

namespace Compatible

variable
  {related : Relation}
  (compatible : Compatible related)

include compatible

theorem sees
    {base left right : Cursor}
    (keeps : related base left right)
    (kind : Kind) :
    left.sees kind = right.sees kind := by
  simp only [Cursor.sees, compatible.peek keeps]

theorem seesAny
    {base left right : Cursor}
    (keeps : related base left right)
    (belongs : Kind → Bool) :
    left.seesAny belongs = right.seesAny belongs := by
  simp only [Cursor.seesAny, compatible.peek keeps]

theorem atEnd
    {base left right : Cursor}
    (keeps : related base left right) :
    left.atEnd = right.atEnd := by
  simp only [Cursor.atEnd, compatible.peek keeps]

theorem eat
    (kind : Kind) :
    Respects related (Cursor.eat kind) (Cursor.eat kind) := by
  intro base left right keeps
  simp only [Cursor.eat, compatible.sees keeps]
  split
  · exact compatible.bump keeps
  · exact keeps

theorem expect
    (kind : Kind)
    (fault : SyntaxFault) :
    Respects related (Cursor.expect kind fault) (Cursor.expect kind fault) := by
  intro base left right keeps
  simp only [Cursor.expect, compatible.sees keeps]
  split
  · exact compatible.bump keeps
  · exact compatible.report keeps fault

/-- Two nodes keep two runs related when what is taken inside of them does. -/
theorem node
    {base left right : Cursor}
    {kind : Kind}
    {rule other : Rule}
    (keeps : related base left right)
    (inner : kind ≠ .sourceFile)
    (inside : related (left.openNode kind) (rule (left.openNode kind))
      (other (right.openNode kind))) :
    related base (left.node kind rule) (right.node kind other) :=
  compatible.closed inner keeps inside

omit compatible in
/-- Two loops keep two runs related when each of their turns does. -/
theorem turns
    {base : Cursor}
    {turn other : σ → Cursor → Turn σ}
    (takes : ∀ state left right, related base left right →
      Turn.Related related base (turn state left) (other state right))
    (count : Nat) :
    ∀ {state : σ} {left right : Cursor}, related base left right →
      (Cursor.turns turn count state left).1 = (Cursor.turns other count state right).1 ∧
        related base (Cursor.turns turn count state left).2
          (Cursor.turns other count state right).2 := by
  induction count with
  | zero => exact fun keeps => ⟨rfl, keeps⟩
  | succ count inductionHypothesis =>
      intro state left right keeps
      have step := takes state left right keeps
      simp only [Cursor.turns]
      generalize turn state left = ours at step
      generalize other state right = theirs at step
      cases step with
      | again keepsNext => exact inductionHypothesis keepsNext
      | done keepsLast => exact ⟨rfl, keepsLast⟩

theorem loop
    {base : Cursor}
    {turn other : σ → Cursor → Turn σ}
    (takes : ∀ state left right, related base left right →
      Turn.Related related base (turn state left) (other state right))
    (state : σ)
    {left right : Cursor}
    (keeps : related base left right) :
    (Cursor.loop turn state left).1 = (Cursor.loop other state right).1 ∧
      related base (Cursor.loop turn state left).2 (Cursor.loop other state right).2 := by
  simp only [Cursor.loop, compatible.tokens keeps]
  exact turns takes _ keeps

omit compatible in
theorem whileTurn
    {base left right : Cursor}
    {condition otherCondition : Cursor → Bool}
    {rule other : Rule}
    (sameCondition : ∀ base left right, related base left right →
      condition left = otherCondition right)
    (takes : Respects related rule other)
    (keeps : related base left right) :
    Turn.Related related base (Cursor.whileTurn condition rule () left)
      (Cursor.whileTurn otherCondition other () right) := by
  simp only [Cursor.whileTurn, sameCondition base left right keeps]
  split
  · exact .again (takes keeps)
  · exact .done keeps

theorem repeatWhile
    {condition otherCondition : Cursor → Bool}
    {rule other : Rule}
    (sameCondition : ∀ base left right, related base left right →
      condition left = otherCondition right)
    (takes : Respects related rule other) :
    Respects related (Cursor.repeatWhile condition rule)
      (Cursor.repeatWhile otherCondition other) :=
  fun _ _ _ keeps =>
    (compatible.loop (fun _ _ _ keeps => whileTurn sameCondition takes keeps) () keeps).2

theorem passesOver
    {base left right : Cursor}
    (keeps : related base left right)
    (stops : Kind → Bool) :
    left.passesOver stops = right.passesOver stops := by
  simp only [Cursor.passesOver, compatible.atEnd keeps, compatible.seesAny keeps]

theorem recover
    (fault : SyntaxFault)
    (stops : Kind → Bool) :
    Respects related (Cursor.recover fault stops) (Cursor.recover fault stops) := by
  intro base left right keeps
  have reported := compatible.report keeps fault
  have isOpen := compatible.opened reported .error
  refine compatible.node reported (by decide) ?_
  simp only [compatible.seesAny isOpen]
  split
  · exact compatible.bump isOpen
  · exact compatible.repeatWhile (fun _ _ _ keeps => compatible.passesOver keeps stops)
      (fun _ _ _ keeps => compatible.bump keeps) isOpen

theorem balancedTurn
    {base left right : Cursor}
    (opening closing : Kind)
    (depth : Nat)
    (keeps : related base left right) :
    Turn.Related related base (Cursor.balancedTurn opening closing depth left)
      (Cursor.balancedTurn opening closing depth right) := by
  simp only [Cursor.balancedTurn, compatible.peek keeps]
  split
  · exact .done (compatible.report keeps _)
  · split
    · exact .again (compatible.bump keeps)
    · split
      · split
        · exact .done (compatible.bump keeps)
        · exact .again (compatible.bump keeps)
      · exact .again (compatible.bump keeps)

theorem bumpBalanced : Respects related Cursor.bumpBalanced Cursor.bumpBalanced := by
  intro base left right keeps
  simp only [Cursor.bumpBalanced, compatible.peek keeps]
  split
  · exact compatible.bump keeps
  · split
    · exact compatible.bump keeps
    · exact (compatible.loop
        (fun depth _ _ keeps => compatible.balancedTurn _ _ depth keeps) 0 keeps).2

end Compatible

/-- One run alone, where every cursor is related to the beginning of the innermost open node. -/
def Alone
    (holds : Cursor → Cursor → Prop) :
    Relation :=
  fun base left right => left = right ∧ holds base left

/-- A relation to the beginning of the innermost open node that every step keeps. -/
structure Invariant
    (holds : Cursor → Cursor → Prop) :
    Prop where
  report {base cursor : Cursor} : holds base cursor → ∀ fault, holds base (cursor.report fault)
  bump {base cursor : Cursor} : holds base cursor → holds base cursor.bump
  skipTrivia {base cursor : Cursor} : holds base cursor → holds base cursor.skipTrivia
  restart {base cursor : Cursor} : holds base cursor → holds cursor cursor
  opened {base cursor : Cursor} : holds base cursor → ∀ kind,
    holds (cursor.openNode kind) (cursor.openNode kind)
  closed {base cursor inner : Cursor} {kind : Kind} : kind ≠ .sourceFile → holds base cursor →
    holds (cursor.openNode kind) inner → holds base inner.closeNode
  wrapped {base cursor inner : Cursor} {kind : Kind} : kind ≠ .sourceFile → holds base cursor →
    holds cursor inner → holds base (inner.openAt cursor.mark kind).closeNode

/-- A rule applied to one cursor twice: the results are the same, and in the relation kept. -/
theorem Respects.alone
    {holds : Cursor → Cursor → Prop}
    {rule other : Rule}
    (respects : Respects (Alone holds) rule other)
    (base cursor : Cursor)
    (keeps : holds base cursor) :
    rule cursor = other cursor ∧ holds base (rule cursor) :=
  respects ⟨rfl, keeps⟩

/-- What every step of one run keeps is kept by two runs that are the same. -/
theorem Invariant.compatible
    {holds : Cursor → Cursor → Prop}
    (invariant : Invariant holds) :
    Compatible (Alone holds) where
  peek := fun ⟨same, _⟩ _ => by rw [same]
  arrayType := fun ⟨same, _⟩ => by rw [same]
  tokens := fun ⟨same, _⟩ => by rw [same]
  report := fun ⟨same, keeps⟩ fault => ⟨by rw [same], invariant.report keeps fault⟩
  bump := fun ⟨same, keeps⟩ => ⟨by rw [same], invariant.bump keeps⟩
  skipTrivia := fun ⟨same, keeps⟩ => ⟨by rw [same], invariant.skipTrivia keeps⟩
  restart := fun ⟨same, keeps⟩ => ⟨same, invariant.restart keeps⟩
  opened := fun ⟨same, keeps⟩ kind => ⟨by rw [same], invariant.opened keeps kind⟩
  closed := fun isInner ⟨_, keeps⟩ ⟨same, within⟩ =>
    ⟨by rw [same], invariant.closed isInner keeps within⟩
  wrapped := fun isInner ⟨same, keeps⟩ ⟨sameInner, within⟩ =>
    ⟨by rw [same, sameInner], invariant.wrapped isInner keeps within⟩

end Cursor

namespace Grammar

open Cursor

section Rules

variable
  {related : Relation}
  (compatible : Compatible related)

include compatible

theorem respects_skipTerminators : Respects related skipTerminators skipTerminators :=
  compatible.repeatWhile (fun _ _ _ keeps => compatible.seesAny keeps _)
    (fun _ _ _ keeps => compatible.bump keeps)

theorem respects_terminator
    (closing : Option Kind) :
    Respects related (terminator closing) (terminator closing) := by
  intro base left right keeps
  have recovered := compatible.recover .terminator (endsItem closing) keeps
  simp only [terminator, compatible.seesAny keeps, compatible.atEnd keeps,
    compatible.seesAny recovered]
  split
  · exact compatible.bump keeps
  · split
    · exact keeps
    · split
      · exact compatible.bump recovered
      · exact recovered

theorem respects_name : Respects related name name := by
  intro base left right keeps
  simp only [name, compatible.sees keeps]
  split
  · exact compatible.node keeps (by decide) (compatible.bump (compatible.opened keeps _))
  · exact compatible.report keeps _

theorem respects_items
    {item other : Rule}
    (takes : Respects related item other)
    (closing : Kind)
    (fault : SyntaxFault) :
    Respects related (items closing fault item) (items closing fault other) := by
  intro base left right keeps
  refine compatible.expect closing fault ?_
  refine compatible.repeatWhile (fun _ _ _ keeps => ?_)
    (fun _ _ _ keeps => respects_terminator compatible _ (takes keeps))
    (respects_skipTerminators compatible keeps)
  simp only [goesOn, compatible.atEnd keeps, compatible.sees keeps]

theorem namesParam_eq
    {base left right : Cursor}
    (keeps : related base left right) :
    namesParam left = namesParam right := by
  simp only [namesParam, compatible.peek keeps, compatible.arrayType keeps]

theorem embedsField_eq
    {base left right : Cursor}
    (keeps : related base left right) :
    embedsField left = embedsField right := by
  simp only [embedsField, compatible.peek keeps, compatible.arrayType keeps]

theorem related_commaTurn
    {base left right : Cursor}
    (keeps : related base left right) :
    Turn.Related related base (commaTurn left) (commaTurn right) := by
  simp only [commaTurn, compatible.sees keeps]
  split
  · exact .again (compatible.bump keeps)
  · exact .done keeps

theorem respects_moreNames : Respects related moreNames moreNames :=
  compatible.repeatWhile (fun _ _ _ keeps => compatible.sees keeps _)
    (fun _ _ _ keeps => respects_name compatible (compatible.bump keeps))

theorem related_arrayLengthTurn
    {base left right : Cursor}
    (depth : Nat)
    (keeps : related base left right) :
    Turn.Related related base (arrayLengthTurn depth left) (arrayLengthTurn depth right) := by
  simp only [arrayLengthTurn, compatible.peek keeps]
  split
  · exact .done keeps
  · split
    · exact .done keeps
    · exact .again (compatible.bump keeps)
  · exact .again (compatible.bump keeps)
  · exact .again (compatible.bump keeps)

variable
  {typeRule otherRule : Rule}
  (types : Respects related typeRule otherRule)

include types

theorem respects_param : Respects related (param typeRule) (param otherRule) := by
  intro base left right keeps
  have isOpen := compatible.opened keeps .param
  refine compatible.node keeps (by decide) (types (compatible.eat .ellipsis ?_))
  simp only [compatible.sees isOpen, namesParam_eq compatible isOpen]
  split
  · exact respects_name compatible isOpen
  · exact isOpen

theorem related_paramTurn
    {base left right : Cursor}
    (keeps : related base left right) :
    Turn.Related related base (paramTurn typeRule () left) (paramTurn otherRule () right) := by
  simp only [paramTurn, compatible.atEnd keeps, compatible.sees keeps]
  split
  · exact .done keeps
  · exact related_commaTurn compatible (respects_param compatible types keeps)

theorem respects_paramList : Respects related (paramList typeRule) (paramList otherRule) := by
  intro base left right keeps
  have taken :=
    (compatible.loop (fun _ _ _ keeps => related_paramTurn compatible types keeps) ()
      (compatible.bump (compatible.opened keeps .paramList))).2
  refine compatible.node keeps (by decide) ?_
  simp only [compatible.sees taken]
  split
  · exact compatible.bump taken
  · exact compatible.eat _ (compatible.recover _ _ taken)

theorem respects_signature : Respects related (signature typeRule) (signature otherRule) := by
  intro base left right keeps
  have taken := respects_paramList compatible types keeps
  simp only [signature, compatible.sees keeps, compatible.sees taken, compatible.seesAny taken]
  split
  · split
    · exact compatible.node taken (by decide)
        (respects_paramList compatible types (compatible.opened taken _))
    · split
      · exact compatible.node taken (by decide) (types (compatible.opened taken _))
      · exact taken
  · exact compatible.report keeps _

theorem related_typeArgTurn
    {base left right : Cursor}
    (keeps : related base left right) :
    Turn.Related related base (typeArgTurn typeRule () left) (typeArgTurn otherRule () right) := by
  simp only [typeArgTurn, compatible.atEnd keeps, compatible.sees keeps, compatible.seesAny keeps]
  split
  · exact .done keeps
  · split
    · exact related_commaTurn compatible (types keeps)
    · exact .done (compatible.recover _ _ (types keeps))

theorem related_termTurn
    {base left right : Cursor}
    (typeSet : Bool)
    (keeps : related base left right) :
    Turn.Related related base (termTurn typeRule typeSet left)
      (termTurn otherRule typeSet right) := by
  have term := compatible.eat .tilde keeps
  have taken := types term
  simp only [termTurn, compatible.sees keeps, compatible.seesAny term, compatible.sees taken]
  split
  · split
    · exact .again (compatible.bump taken)
    · exact .done taken
  · exact .done (compatible.recover _ _ taken)

theorem respects_interfaceElem :
    Respects related (interfaceElem typeRule) (interfaceElem otherRule) := by
  intro base left right keeps
  simp only [interfaceElem, compatible.sees keeps, compatible.peek keeps]
  split
  · exact compatible.node keeps (by decide)
      (respects_signature compatible types (respects_name compatible (compatible.opened keeps _)))
  · have begun := compatible.skipTrivia keeps
    obtain ⟨sameSet, taken⟩ :=
      compatible.loop (fun typeSet _ _ keeps => related_termTurn compatible types typeSet keeps)
        false (compatible.restart begun)
    rw [← sameSet]
    refine compatible.wrapped ?_ begun taken
    split <;> decide

end Rules

/-! ## Type expressions -/

/--
A relation that holds once a token is taken.  Type expressions begin with a token, so the rules
inside of them need to keep the inner relation only, and it holds behind the type expression.
-/
structure Enters
    (outer inner : Relation) :
    Prop where
  weaken {base left right : Cursor} : inner base left right → outer base left right
  bump {base left right : Cursor} : outer base left right → left.atEnd = false →
    inner base left.bump right.bump
  closed {base left right behind behindRight : Cursor} {kind : Kind} : kind ≠ .sourceFile →
    outer base left right → inner (left.openNode kind) behind behindRight →
    inner base behind.closeNode behindRight.closeNode

/-- A compatible relation holds before and after a token is taken. -/
theorem enters_self
    {related : Relation}
    (compatible : Compatible related) :
    Enters related related :=
  ⟨fun keeps => keeps, fun keeps _ => compatible.bump keeps, compatible.closed⟩

/-- A node that begins with a token keeps two runs related when what follows the token does. -/
theorem Enters.node
    {outer inner : Relation}
    (enters : Enters outer inner)
    {base left right : Cursor}
    {kind : Kind}
    {rule other : Rule}
    (keeps : outer base left right)
    (isInner : kind ≠ .sourceFile)
    (within : inner (left.openNode kind) (rule (left.openNode kind))
      (other (right.openNode kind))) :
    inner base (left.node kind rule) (right.node kind other) :=
  enters.closed isInner keeps within

/-- Where no type begins, the rule for type expressions notes a fault. -/
theorem typeExpr_of_not_startsType
    {typeRule : Rule}
    {cursor : Cursor}
    (starts : cursor.seesAny Kind.startsType = false) :
    typeExpr typeRule cursor = cursor.report .typeExpression := by
  unfold typeExpr
  split
  all_goals first
    | rfl
    | next seen => simp [seesAny, seen, Kind.startsType] at starts

section TypeExpressions

variable
  {outer inner : Relation}
  (outside : Compatible outer)
  (inside : Compatible inner)
  (enters : Enters outer inner)
  {typeRule otherRule : Rule}
  (types : Respects inner typeRule otherRule)
  {base left right : Cursor}
  (keeps : outer base left right)
  (present : left.atEnd = false)

section

include outside enters keeps present

/-- Behind the first token of a node the inner relation holds. -/
theorem related_openNode_bump
    (kind : Kind) :
    inner (left.openNode kind) (left.openNode kind).bump (right.openNode kind).bump :=
  enters.bump (outside.opened keeps kind) (by simpa using present)

end

include outside inside enters types keeps present

theorem related_typeName :
    inner base (typeName typeRule left) (typeName otherRule right) := by
  have first := related_openNode_bump outside enters keeps present .typeName
  refine enters.node keeps (by decide) ?_
  dsimp only
  generalize (left.openNode .typeName).bump = ours at first ⊢
  generalize (right.openNode .typeName).bump = theirs at first ⊢
  have named :
      inner (left.openNode .typeName)
        (if ours.sees .dot then expect .ident .identifierAfterDot ours.bump else ours)
        (if theirs.sees .dot then expect .ident .identifierAfterDot theirs.bump else theirs) := by
    simp only [inside.sees first]
    split
    · exact inside.expect _ _ (inside.bump first)
    · exact first
  generalize (if ours.sees .dot then _ else _) = namedOurs at named ⊢
  generalize (if theirs.sees .dot then _ else _) = namedTheirs at named ⊢
  simp only [inside.sees named, inside.peek named]
  split
  · refine inside.node named (by decide) (inside.expect _ _ ?_)
    exact (inside.loop (fun _ _ _ keeps => related_typeArgTurn inside types keeps) ()
      (inside.bump (inside.opened named _))).2
  · exact named

theorem related_sliceOrArrayType :
    inner base (sliceOrArrayType typeRule left) (sliceOrArrayType otherRule right) := by
  have first := related_openNode_bump outside enters keeps present
  simp only [sliceOrArrayType, outside.peek keeps]
  split
  · exact enters.node keeps (by decide) (types (inside.bump (first _)))
  · refine enters.node keeps (by decide) (types (inside.expect _ _ ?_))
    refine inside.node (first _) (by decide) ?_
    exact (inside.loop (fun depth _ _ keeps => related_arrayLengthTurn inside depth keeps) 0
      (inside.opened (first _) _)).2

theorem related_mapType :
    inner base (mapType typeRule left) (mapType otherRule right) := by
  have first := related_openNode_bump outside enters keeps present .mapType
  exact enters.node keeps (by decide)
    (types (inside.expect _ _ (types (inside.expect _ _ first))))

theorem related_chanType :
    inner base (chanType typeRule left) (chanType otherRule right) := by
  have first := related_openNode_bump outside enters keeps present .chanType
  refine enters.node keeps (by decide) (types ?_)
  simp only [outside.sees (outside.opened keeps _)]
  split
  · exact inside.expect _ _ first
  · exact inside.eat _ first

omit types in
theorem related_bracedType
    {kind : Kind}
    {item other : Rule}
    (isInner : kind ≠ .sourceFile)
    (takes : Respects inner item other) :
    inner base (bracedType kind item left) (bracedType kind other right) := by
  have first := related_openNode_bump outside enters keeps present kind
  refine enters.node keeps isInner ?_
  simp only [inside.sees first]
  split
  · exact respects_items inside takes _ _ (inside.bump first)
  · exact inside.report first _

end TypeExpressions

section Fields

variable
  {related : Relation}
  (compatible : Compatible related)
  {typeRule otherRule : Rule}
  (types : Respects related typeRule otherRule)

include compatible types

theorem respects_fieldDecl : Respects related (fieldDecl typeRule) (fieldDecl otherRule) := by
  intro base left right keeps
  have isOpen := compatible.opened keeps .fieldDecl
  have starred := compatible.bump isOpen
  refine compatible.node keeps (by decide) (compatible.eat _ ?_)
  simp only [compatible.sees isOpen, compatible.sees starred, embedsField_eq compatible isOpen]
  split
  · split
    · next seen =>
        rw [← compatible.sees starred] at seen
        exact related_typeName compatible compatible (enters_self compatible) types starred
          (atEnd_of_sees seen)
    · exact compatible.report starred _
  · split
    · next seen =>
        rw [← compatible.sees isOpen] at seen
        split
        · exact related_typeName compatible compatible (enters_self compatible) types isOpen
            (atEnd_of_sees seen)
        · exact types (respects_moreNames compatible (respects_name compatible isOpen))
    · exact compatible.recover _ _ isOpen

end Fields

section TypeExpr

variable
  {outer inner : Relation}
  (outside : Compatible outer)
  (inside : Compatible inner)
  (enters : Enters outer inner)
  {typeRule otherRule : Rule}
  (types : Respects inner typeRule otherRule)

include outside inside enters types

/-- Behind a type expression the inner relation holds when the rules for those inside keep it. -/
theorem related_typeExpr
    {base left right : Cursor}
    (keeps : outer base left right)
    (starts : left.seesAny Kind.startsType) :
    inner base (typeExpr typeRule left) (typeExpr otherRule right) := by
  have present := atEnd_of_seesAny starts
  have first := related_openNode_bump outside enters keeps present
  rw [outside.seesAny keeps] at starts
  simp only [typeExpr, outside.peek keeps]
  split
  · exact related_typeName outside inside enters types keeps present
  · exact enters.node keeps (by decide) (types (first _))
  · exact related_sliceOrArrayType outside inside enters types keeps present
  · exact related_mapType outside inside enters types keeps present
  · exact related_chanType outside inside enters types keeps present
  · exact related_chanType outside inside enters types keeps present
  · exact enters.node keeps (by decide) (respects_signature inside types (first _))
  · exact related_bracedType outside inside enters keeps present (by decide)
      (respects_fieldDecl inside types)
  · exact related_bracedType outside inside enters keeps present (by decide)
      (respects_interfaceElem inside types)
  · exact enters.node keeps (by decide) (inside.expect _ _ (types (first _)))
  · next others =>
      exact absurd starts (by
        cases peeked : right.peek? 0 with
        | none => simp [seesAny, peeked]
        | some kind => cases kind <;> simp_all [seesAny, Kind.startsType])

/-- A type expression keeps two runs related when the rules for those inside of it do. -/
theorem respects_typeExpr : Respects outer (typeExpr typeRule) (typeExpr otherRule) := by
  intro base left right keeps
  cases starts : left.seesAny Kind.startsType with
  | true => exact enters.weaken (related_typeExpr outside inside enters types keeps starts)
  | false =>
      have same := outside.seesAny keeps Kind.startsType
      rw [typeExpr_of_not_startsType starts, typeExpr_of_not_startsType (same ▸ starts)]
      exact outside.report keeps _

end TypeExpr

/-- Type expressions of any depth keep two runs related. -/
theorem respects_typeWithin_self
    {related : Relation}
    (compatible : Compatible related)
    (depth : Nat) :
    Respects related (typeWithin depth) (typeWithin depth) := by
  induction depth with
  | zero => exact fun _ _ _ keeps => compatible.report keeps _
  | succ depth inductionHypothesis =>
      exact respects_typeExpr compatible compatible (enters_self compatible) inductionHypothesis

/-! ## Declarations -/

section Items

variable
  {related : Relation}
  (compatible : Compatible related)

include compatible

theorem respects_packageClause : Respects related packageClause packageClause := by
  intro base left right keeps
  refine respects_terminator compatible none (compatible.node keeps (by decide) ?_)
  exact respects_name compatible (compatible.bump (compatible.opened keeps _))

theorem respects_importSpec : Respects related importSpec importSpec := by
  intro base left right keeps
  have isOpen := compatible.opened keeps .importSpec
  refine compatible.node keeps (by decide) ?_
  dsimp only
  generalize left.openNode .importSpec = ours at isOpen ⊢
  generalize right.openNode .importSpec = theirs at isOpen ⊢
  have named :
      related ours (if ours.sees .ident then name ours else eat .dot ours)
        (if theirs.sees .ident then name theirs else eat .dot theirs) := by
    simp only [compatible.sees isOpen]
    split
    · exact respects_name compatible isOpen
    · exact compatible.eat _ isOpen
  generalize (if ours.sees .ident then _ else _) = namedOurs at named ⊢
  generalize (if theirs.sees .ident then _ else _) = namedTheirs at named ⊢
  simp only [compatible.sees named]
  split
  · exact compatible.bump named
  · exact compatible.recover _ _ named

theorem respects_typeParams : Respects related typeParams typeParams :=
  fun _ _ _ keeps =>
    compatible.node keeps (by decide) (compatible.bumpBalanced (compatible.opened keeps _))

theorem declaresTypeParams_eq
    {base left right : Cursor}
    (keeps : related base left right) :
    declaresTypeParams left = declaresTypeParams right := by
  simp only [declaresTypeParams, compatible.peek keeps]

theorem respects_tokenOrBrackets : Respects related tokenOrBrackets tokenOrBrackets := by
  intro base left right keeps
  simp only [tokenOrBrackets, compatible.seesAny keeps]
  split
  · exact compatible.bumpBalanced keeps
  · exact compatible.bump keeps

variable
  {typeRule otherRule : Rule}
  (types : Respects related typeRule otherRule)

include types

theorem respects_typeSpec : Respects related (typeSpec typeRule) (typeSpec otherRule) := by
  intro base left right keeps
  have isOpen := compatible.opened keeps .typeSpec
  have named := respects_name compatible isOpen
  refine compatible.node keeps (by decide) ?_
  simp only [compatible.sees isOpen, compatible.sees named, declaresTypeParams_eq compatible named]
  split
  · refine types (compatible.eat _ ?_)
    split
    · exact respects_typeParams compatible named
    · exact named
  · exact compatible.recover _ _ named

end Items

section Declarations

variable
  {outer inner : Relation}
  (outside : Compatible outer)
  (inside : Compatible inner)
  (enters : Enters outer inner)
  {base left right : Cursor}
  (keeps : outer base left right)
  (present : left.atEnd = false)

include outside inside enters keeps present

theorem related_groupedDecl
    {kind : Kind}
    {item other : Rule}
    (isInner : kind ≠ .sourceFile)
    (takes : Respects inner item other) :
    inner base (groupedDecl kind item left) (groupedDecl kind other right) := by
  have taken := related_openNode_bump outside enters keeps present kind
  refine respects_terminator inside none (enters.node keeps isInner ?_)
  simp only [inside.sees taken]
  split
  · exact respects_items inside takes _ _ (inside.bump taken)
  · exact takes taken

theorem related_valueDecl : inner base (valueDecl left) (valueDecl right) := by
  have taken := related_openNode_bump outside enters keeps present .valueDecl
  refine respects_terminator inside none (enters.node keeps (by decide) ?_)
  exact inside.repeatWhile (fun _ _ _ keeps => inside.passesOver keeps _)
    (respects_tokenOrBrackets inside) taken

theorem related_funcDecl
    {typeRule otherRule : Rule}
    (types : Respects inner typeRule otherRule) :
    inner base (funcDecl typeRule left) (funcDecl otherRule right) := by
  have taken := related_openNode_bump outside enters keeps present .funcDecl
  refine respects_terminator inside none (enters.node keeps (by decide) ?_)
  dsimp only
  generalize left.openNode .funcDecl = opened at taken ⊢
  generalize opened.bump = ours at taken ⊢
  generalize (right.openNode .funcDecl).bump = theirs at taken ⊢
  have received :
      inner opened
        (if ours.sees .leftParen then ours.node .receiver (paramList typeRule) else ours)
        (if theirs.sees .leftParen then theirs.node .receiver (paramList otherRule)
          else theirs) := by
    simp only [inside.sees taken]
    split
    · exact inside.node taken (by decide)
        (respects_paramList inside types (inside.opened taken _))
    · exact taken
  generalize (if ours.sees .leftParen then _ else _) = ours at received ⊢
  generalize (if theirs.sees .leftParen then _ else _) = theirs at received ⊢
  have named := respects_name inside received
  simp only [inside.sees received]
  split
  · generalize name ours = ours at named ⊢
    generalize name theirs = theirs at named ⊢
    have bracketed :
        inner opened (if ours.sees .leftBracket then typeParams ours else ours)
          (if theirs.sees .leftBracket then typeParams theirs else theirs) := by
      simp only [inside.sees named]
      split
      · exact respects_typeParams inside named
      · exact named
    have signed := respects_signature inside types bracketed
    generalize signature typeRule _ = ours at signed ⊢
    generalize signature otherRule _ = theirs at signed ⊢
    simp only [inside.sees signed]
    split
    · exact inside.node signed (by decide)
        (inside.bumpBalanced (inside.opened signed _))
    · exact signed
  · exact inside.recover _ _ named

end Declarations

section SourceFile

variable
  {related : Relation}
  (compatible : Compatible related)
  {typeRule otherRule : Rule}
  (types : Respects related typeRule otherRule)

include compatible types

theorem respects_declaration :
    Respects related (declaration typeRule) (declaration otherRule) := by
  intro base left right keeps
  have same := compatible.peek keeps 0
  have enters := enters_self compatible
  simp only [declaration, same]
  split
  · exact compatible.bump keeps
  · exact compatible.bump keeps
  · next seen =>
      exact related_groupedDecl compatible compatible enters keeps
        (atEnd_of_peek? (same.trans seen)) (by decide) (respects_importSpec compatible)
  · next seen =>
      exact related_groupedDecl compatible compatible enters keeps
        (atEnd_of_peek? (same.trans seen)) (by decide) (respects_typeSpec compatible types)
  · next seen =>
      exact related_funcDecl compatible compatible enters keeps
        (atEnd_of_peek? (same.trans seen)) types
  · next seen =>
      exact related_valueDecl compatible compatible enters keeps
        (atEnd_of_peek? (same.trans seen))
  · next seen =>
      exact related_valueDecl compatible compatible enters keeps
        (atEnd_of_peek? (same.trans seen))
  · exact compatible.recover _ _ keeps

/-- What stands in a source file keeps two runs related. -/
theorem respects_sourceFile : Respects related (sourceFile typeRule) (sourceFile otherRule) := by
  intro base left right keeps
  have begun := respects_skipTerminators compatible keeps
  refine compatible.skipTrivia (compatible.repeatWhile (fun _ _ _ keeps => ?_)
    (respects_declaration compatible types) ?_)
  · rw [compatible.atEnd keeps]
  · simp only [compatible.sees begun]
    split
    · exact respects_packageClause compatible begun
    · exact compatible.report begun _

end SourceFile

end Grammar

end Implementers.Syntax
