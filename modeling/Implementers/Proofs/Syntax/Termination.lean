import Implementers.Proofs.Syntax.Traversal
import Mathlib.Data.List.Basic

namespace Implementers.Syntax

/-!
# The parser comes to an end

The loops of the parser and its recursion through type expressions are bounded by the number of
tokens.  No bound is ever reached: a turn that asks for another one has taken a token, and a type
expression inside another one begins behind a token of the outer one.
-/

namespace Cursor

/-- How many tokens are still to come. -/
def remaining
    (cursor : Cursor) :
    Nat :=
  cursor.rest.length

theorem ahead_zero
    (tokens : List Token) :
    ahead 0 tokens = tokens.dropWhile isTrivia := by
  induction tokens with
  | nil => rfl
  | cons token rest inductionHypothesis =>
      cases trivia : isTrivia token <;> simp [ahead, trivia, inductionHypothesis]

/-- Only trivia is left where no significant token is. -/
theorem rest_skipTrivia_eq_nil_iff
    {cursor : Cursor} :
    cursor.skipTrivia.rest = [] ↔ cursor.atEnd = true := by
  simp [skipTrivia, atEnd, peek?, ahead_zero]

theorem remaining_skipTrivia_le
    (cursor : Cursor) :
    cursor.skipTrivia.remaining ≤ cursor.remaining :=
  (List.dropWhile_suffix _).length_le

theorem remaining_bump
    (cursor : Cursor) :
    cursor.bump.remaining = cursor.skipTrivia.remaining - 1 := by
  unfold bump
  dsimp only
  split
  · next none => simp [remaining, none]
  · next some => simp [remaining, some]

/-- Where a token is seen, one is taken. -/
theorem remaining_bump_lt
    {cursor : Cursor}
    (present : cursor.atEnd = false) :
    cursor.bump.remaining < cursor.remaining := by
  have some : cursor.skipTrivia.rest ≠ [] := fun none => by
    simp [rest_skipTrivia_eq_nil_iff, present] at none
  have positive := List.length_pos_iff.mpr some
  have fewer := remaining_skipTrivia_le cursor
  rw [remaining_bump]
  unfold remaining at *
  omega

@[simp] theorem remaining_closeNode
    (cursor : Cursor) :
    cursor.closeNode.remaining = cursor.remaining := by
  unfold closeNode
  split <;> rfl

theorem remaining_openNode_le
    (cursor : Cursor)
    (kind : Kind) :
    (cursor.openNode kind).remaining ≤ cursor.remaining :=
  remaining_skipTrivia_le cursor

/-- Two runs that are the same and have put no token back. -/
def Taking : Relation :=
  Alone fun base cursor => cursor.remaining ≤ base.remaining

/-- No step puts a token back. -/
theorem compatible_taking : Compatible Taking := by
  refine Invariant.compatible
    { report := fun keeps _ => keeps
      bump := ?bump
      skipTrivia := fun keeps => Nat.le_trans (remaining_skipTrivia_le _) keeps
      restart := fun _ => Nat.le_refl _
      opened := fun _ _ => Nat.le_refl _
      closed := ?closed
      wrapped := ?wrapped }
  case bump =>
    intro base cursor keeps
    have fewer := remaining_skipTrivia_le cursor
    rw [remaining_bump]
    omega
  case closed =>
    intro base cursor inner kind _ keeps inside
    have fewer := remaining_openNode_le cursor kind
    rw [remaining_closeNode]
    omega
  case wrapped =>
    intro base cursor inner kind _ keeps inside
    rw [remaining_closeNode]
    exact Nat.le_trans inside keeps

theorem remaining_le_of_respects
    {rule : Rule}
    (takes : Respects Taking rule rule)
    (cursor : Cursor) :
    (rule cursor).remaining ≤ cursor.remaining :=
  (takes.alone cursor cursor (Nat.le_refl _)).2

/-- A node takes a token when one is taken inside of it. -/
theorem remaining_node_lt
    {rule : Rule}
    {kind : Kind}
    {cursor : Cursor}
    (inside : (rule (cursor.openNode kind)).remaining < (cursor.openNode kind).remaining) :
    (cursor.node kind rule).remaining < cursor.remaining := by
  have fewer := remaining_openNode_le cursor kind
  rw [node, remaining_closeNode]
  omega

/-! ## Loops -/

/-- Turns taken until one of them asks for no other one; their number has no bound. -/
inductive Loops
    (turn : σ → Cursor → Turn σ) :
    σ → Cursor → σ × Cursor → Prop where
  | done
      {state last : σ}
      {cursor behind : Cursor}
      (ends : turn state cursor = .done last behind) :
      Loops turn state cursor (last, behind)
  | again
      {state next : σ}
      {cursor behind : Cursor}
      {result : σ × Cursor}
      (takes : turn state cursor = .again next behind)
      (later : Loops turn next behind result) :
      Loops turn state cursor result

/-- Wherever a loop begins, it ends by itself, and the bounded loop ends there as well. -/
def Ends
    (turn : σ → Cursor → Turn σ) :
    Prop :=
  ∀ state cursor, Loops turn state cursor (loop turn state cursor)

/-- A turn that asks for another one has taken a token. -/
def Progresses
    (turn : σ → Cursor → Turn σ) :
    Prop :=
  ∀ ⦃state cursor next behind⦄, turn state cursor = .again next behind →
    behind.remaining < cursor.remaining

/-- More turns than there are tokens to come are never needed. -/
theorem Progresses.loops_turns
    {turn : σ → Cursor → Turn σ}
    (progresses : Progresses turn)
    (count : Nat) :
    ∀ {state : σ} {cursor : Cursor}, cursor.remaining < count →
      Loops turn state cursor (turns turn count state cursor) := by
  induction count with
  | zero => exact fun none => absurd none (Nat.not_lt_zero _)
  | succ count inductionHypothesis =>
      intro state cursor enough
      cases step : turn state cursor with
      | done last behind =>
          simp only [turns, step]
          exact .done step
      | again next behind =>
          have fewer := progresses step
          simp only [turns, step]
          exact .again step (inductionHypothesis (by omega))

theorem Progresses.ends
    {turn : σ → Cursor → Turn σ}
    (progresses : Progresses turn) :
    Ends turn :=
  fun _ cursor => progresses.loops_turns (cursor.remaining + 1) (Nat.lt_succ_self _)

theorem progresses_whileTurn
    {condition : Cursor → Bool}
    {rule : Rule}
    (takes : ∀ cursor, condition cursor = true → (rule cursor).remaining < cursor.remaining) :
    Progresses (whileTurn condition rule) := by
  intro state cursor next behind again
  simp only [whileTurn] at again
  split at again
  · next holds =>
      cases again
      exact takes cursor holds
  · cases again

/-- A loop goes on as long as its condition holds, and no longer. -/
theorem Loops.condition_eq_false
    {condition : Cursor → Bool}
    {rule : Rule}
    {state : Unit}
    {cursor : Cursor}
    {result : Unit × Cursor}
    (loops : Loops (whileTurn condition rule) state cursor result) :
    condition result.2 = false := by
  induction loops with
  | done ends =>
      simp only [whileTurn] at ends
      split at ends
      · cases ends
      · next fails =>
          cases ends
          simpa using fails
  | again _ _ inductionHypothesis => exact inductionHypothesis

theorem Ends.condition_eq_false
    {condition : Cursor → Bool}
    {rule : Rule}
    (ends : Ends (whileTurn condition rule))
    (cursor : Cursor) :
    condition (repeatWhile condition rule cursor) = false :=
  (ends () cursor).condition_eq_false

/-- A loop whose first turn takes a token takes a token. -/
theorem remaining_loop_lt
    {turn : σ → Cursor → Turn σ}
    (takes : ∀ base state left right, Taking base left right →
      Turn.Related Taking base (turn state left) (turn state right))
    {state next : σ}
    {cursor behind : Cursor}
    (first : turn state cursor = .again next behind)
    (fewer : behind.remaining < cursor.remaining) :
    (loop turn state cursor).2.remaining < cursor.remaining := by
  have later : (turns turn cursor.rest.length next behind).2.remaining ≤ behind.remaining :=
    (Compatible.turns (takes behind) cursor.rest.length ⟨rfl, Nat.le_refl _⟩).2.2
  simp only [loop, turns, first]
  omega

/-- Recovery takes a token wherever there is one. -/
theorem remaining_recover_lt
    {cursor : Cursor}
    (fault : SyntaxFault)
    (stops : Kind → Bool)
    (present : cursor.atEnd = false) :
    (cursor.recover fault stops).remaining < cursor.remaining := by
  have isOpen : ((cursor.report fault).openNode .error).atEnd = false := by
    rw [atEnd_openNode]
    exact present
  refine @remaining_node_lt _ _ (cursor.report fault) ?_
  generalize (cursor.report fault).openNode .error = opened at isOpen ⊢
  split
  · exact remaining_bump_lt isOpen
  · next passes =>
      have first : whileTurn (passesOver stops) bump () opened = .again () opened.bump := by
        simp [whileTurn, passesOver, isOpen, passes]
      exact remaining_loop_lt (fun _ _ _ _ keeps => Compatible.whileTurn
        (fun _ _ _ keeps => compatible_taking.passesOver keeps stops)
        (fun _ _ _ keeps => compatible_taking.bump keeps) keeps) first (remaining_bump_lt isOpen)

/-- The way to a closing bracket is made of tokens. -/
theorem progresses_balancedTurn
    (opening closing : Kind) :
    Progresses (balancedTurn opening closing) := by
  intro depth cursor next behind again
  cases peeked : cursor.peek? 0 with
  | none => simp [balancedTurn, peeked] at again
  | some kind =>
      have fewer := remaining_bump_lt (atEnd_of_peek? peeked)
      simp only [balancedTurn, peeked] at again
      split at again
      · cases again
        exact fewer
      · split at again
        · split at again
          · cases again
          · cases again
            exact fewer
        · cases again
          exact fewer

theorem remaining_bumpBalanced_lt
    {cursor : Cursor}
    (present : cursor.atEnd = false) :
    cursor.bumpBalanced.remaining < cursor.remaining := by
  have fewer := remaining_bump_lt present
  unfold bumpBalanced
  split
  · exact fewer
  · next opening peeked =>
      split
      · exact fewer
      · next closing _ =>
          have first : balancedTurn opening closing 0 cursor = .again 1 cursor.bump := by
            simp [balancedTurn, peeked]
          exact remaining_loop_lt
            (fun _ depth _ _ keeps => compatible_taking.balancedTurn _ _ depth keeps) first fewer

end Cursor

namespace Grammar

open Cursor

/-! ## The recursion through type expressions -/

/-- A rule for type expressions that is the one it uses for those inside of them. -/
def ClosesTypes
    (typeRule : Rule) :
    Prop :=
  ∀ cursor, typeRule cursor = typeExpr typeRule cursor

/-- Two runs that are the same and have fewer than a number of tokens to come. -/
def Within
    (bound : Nat) :
    Relation :=
  Alone fun _ cursor => cursor.remaining < bound

theorem within_self
    (cursor : Cursor) :
    Within (cursor.remaining + 1) cursor cursor cursor :=
  ⟨rfl, Nat.lt_succ_self _⟩

theorem compatible_within
    (bound : Nat) :
    Compatible (Within bound) := by
  refine Invariant.compatible
    { report := fun keeps _ => keeps
      bump := ?bump
      skipTrivia := fun keeps => Nat.lt_of_le_of_lt (remaining_skipTrivia_le _) keeps
      restart := fun keeps => keeps
      opened := fun keeps _ => Nat.lt_of_le_of_lt (remaining_skipTrivia_le _) keeps
      closed := fun _ _ inside => by rwa [remaining_closeNode]
      wrapped := fun _ _ inside => by rwa [remaining_closeNode] }
  case bump =>
    intro base cursor keeps
    have fewer := remaining_skipTrivia_le cursor
    rw [remaining_bump]
    omega

/-- Behind one token there are fewer to come. -/
theorem enters_within
    (bound : Nat) :
    Enters (Within (bound + 1)) (Within bound) where
  weaken := fun ⟨same, keeps⟩ => ⟨same, Nat.lt_succ_of_lt keeps⟩
  bump := fun ⟨same, keeps⟩ present => by
    have fewer := remaining_bump_lt present
    exact ⟨by rw [same], by omega⟩
  closed := fun _ _ ⟨same, inside⟩ =>
    ⟨by rw [same], Nat.lt_of_le_of_lt (Nat.le_of_eq (remaining_closeNode _)) inside⟩

/-- Rules that agree on fewer tokens make type expressions that agree on one token more. -/
theorem respects_typeExpr_within
    {bound : Nat}
    {typeRule otherRule : Rule}
    (types : Respects (Within bound) typeRule otherRule) :
    Respects (Within (bound + 1)) (typeExpr typeRule) (typeExpr otherRule) :=
  respects_typeExpr (compatible_within _) (compatible_within _) (enters_within bound) types

/--
A type expression asks for those inside of it only where fewer tokens are to come, if the rule for
them puts no token back.
-/
theorem typeExpr_congr
    {typeRule otherRule : Rule}
    {cursor : Cursor}
    (agree : ∀ inner : Cursor, inner.remaining < cursor.remaining →
      typeRule inner = otherRule inner ∧ (typeRule inner).remaining ≤ inner.remaining) :
    typeExpr typeRule cursor = typeExpr otherRule cursor := by
  have types : Respects (Within cursor.remaining) typeRule otherRule := by
    rintro base left right ⟨rfl, fewer⟩
    obtain ⟨same, noneBack⟩ := agree left fewer
    exact ⟨same, Nat.lt_of_le_of_lt noneBack fewer⟩
  exact ((respects_typeExpr_within types).alone cursor cursor (Nat.lt_succ_self _)).1

/-- A rule that closes the circle agrees with the bounded ones wherever the bound is enough. -/
theorem ClosesTypes.respects_typeWithin
    {typeRule : Rule}
    (closes : ClosesTypes typeRule)
    (bound : Nat) :
    ∀ {depth : Nat}, bound ≤ depth → Respects (Within bound) typeRule (typeWithin depth) := by
  induction bound with
  | zero => exact fun _ _ _ _ keeps => absurd keeps.2 (Nat.not_lt_zero _)
  | succ bound inductionHypothesis =>
      intro depth enough base left right keeps
      obtain ⟨smaller, rfl⟩ : ∃ smaller, depth = smaller + 1 := ⟨depth - 1, by omega⟩
      rw [closes left]
      exact respects_typeExpr_within (inductionHypothesis (by omega)) keeps

/-- More depth than there are tokens to come changes nothing. -/
theorem respects_typeWithin
    (bound : Nat) :
    ∀ {depth other : Nat}, bound ≤ depth → bound ≤ other →
      Respects (Within bound) (typeWithin depth) (typeWithin other) := by
  induction bound with
  | zero => exact fun _ _ _ _ _ keeps => absurd keeps.2 (Nat.not_lt_zero _)
  | succ bound inductionHypothesis =>
      intro depth other enough otherEnough
      obtain ⟨smaller, rfl⟩ : ∃ smaller, depth = smaller + 1 := ⟨depth - 1, by omega⟩
      obtain ⟨smallerOther, rfl⟩ : ∃ smaller, other = smaller + 1 := ⟨other - 1, by omega⟩
      exact respects_typeExpr_within (inductionHypothesis (by omega) (by omega))

/-- The rule for type expressions, with a depth for every token to come. -/
def typeRule : Rule :=
  fun cursor => typeWithin (cursor.remaining + 1) cursor

theorem respects_typeWithin_typeRule
    {bound depth : Nat}
    (enough : bound ≤ depth) :
    Respects (Within bound) (typeWithin depth) typeRule := by
  rintro base left right ⟨rfl, fewer⟩
  obtain ⟨same, stays⟩ :=
    (respects_typeWithin (left.remaining + 1) (Nat.le_trans fewer enough) (Nat.le_refl _)).alone
      base left (Nat.lt_succ_self _)
  exact ⟨same, Nat.lt_of_lt_of_le stays fewer⟩

/-- The rule for type expressions uses itself for those inside of them. -/
theorem closesTypes_typeRule : ClosesTypes typeRule := fun cursor =>
  ((respects_typeExpr_within (respects_typeWithin_typeRule (Nat.le_refl _))).alone cursor cursor
    (Nat.lt_succ_self _)).1

/-- There is only one such rule. -/
theorem ClosesTypes.eq_typeRule
    {rule : Rule}
    (closes : ClosesTypes rule) :
    rule = typeRule :=
  funext fun cursor =>
    ((closes.respects_typeWithin _ (Nat.le_refl _)).alone cursor cursor (Nat.lt_succ_self _)).1

/-! ## Every item takes a token -/

/-- Type expressions put no token back. -/
theorem respects_typeRule : Respects Taking typeRule typeRule := by
  rintro base left right ⟨rfl, keeps⟩
  have stays := (respects_typeWithin_typeRule (Nat.le_refl (left.remaining + 1))).alone base left
    (Nat.lt_succ_self _)
  refine ⟨rfl, Nat.le_trans (Nat.le_of_lt_succ ?_) keeps⟩
  exact stays.1 ▸ stays.2

theorem respects_within_of_taking
    {rule : Rule}
    (takes : Respects Taking rule rule)
    (bound : Nat) :
    Respects (Within bound) rule rule := by
  rintro base left right ⟨rfl, fewer⟩
  exact ⟨rfl, Nat.lt_of_le_of_lt (remaining_le_of_respects takes left) fewer⟩

/-- Where a type begins, its first token is taken. -/
theorem remaining_typeRule_lt
    {cursor : Cursor}
    (starts : cursor.seesAny Kind.startsType = true) :
    (typeRule cursor).remaining < cursor.remaining := by
  rw [closesTypes_typeRule cursor]
  exact (related_typeExpr (compatible_within _) (compatible_within _)
    (enters_within cursor.remaining) (respects_within_of_taking respects_typeRule _)
    (within_self cursor) starts).2

theorem remaining_typeName_lt
    {cursor : Cursor}
    (present : cursor.atEnd = false) :
    (typeName typeRule cursor).remaining < cursor.remaining :=
  (related_typeName (compatible_within _) (compatible_within _)
    (enters_within cursor.remaining) (respects_within_of_taking respects_typeRule _)
    (within_self cursor) present).2

theorem remaining_name_lt
    {cursor : Cursor}
    (seen : cursor.sees .ident = true) :
    (name cursor).remaining < cursor.remaining := by
  simp only [name, seen, if_true]
  exact remaining_node_lt (remaining_bump_lt (by simpa using atEnd_of_sees seen))

theorem remaining_eat_lt
    {kind : Kind}
    {cursor : Cursor}
    (seen : cursor.sees kind = true) :
    (eat kind cursor).remaining < cursor.remaining := by
  simp only [eat, seen, if_true]
  exact remaining_bump_lt (atEnd_of_sees seen)

/-- An item that takes a token takes one with its terminator as well. -/
theorem remaining_listed_lt
    {closing : Kind}
    {item : Rule}
    {cursor : Cursor}
    (takes : (item cursor).remaining < cursor.remaining) :
    (listed closing item cursor).remaining < cursor.remaining :=
  Nat.lt_of_le_of_lt
    (remaining_le_of_respects (respects_terminator compatible_taking (some closing)) _) takes

theorem remaining_recover_le
    (cursor : Cursor)
    (fault : SyntaxFault)
    (stops : Kind → Bool) :
    (cursor.recover fault stops).remaining ≤ cursor.remaining :=
  remaining_le_of_respects (compatible_taking.recover fault stops) cursor

theorem remaining_bump_le
    (cursor : Cursor) :
    cursor.bump.remaining ≤ cursor.remaining :=
  remaining_le_of_respects (fun _ _ _ keeps => compatible_taking.bump keeps) cursor

theorem remaining_importSpec_lt
    {cursor : Cursor}
    (present : cursor.atEnd = false) :
    (importSpec cursor).remaining < cursor.remaining := by
  refine remaining_node_lt ?_
  have isOpen : (cursor.openNode .importSpec).atEnd = false := by simpa using present
  dsimp only
  generalize cursor.openNode .importSpec = opened at isOpen ⊢
  have named : (if opened.sees .ident then name opened else eat .dot opened).remaining
        < opened.remaining ∨
      (if opened.sees .ident then name opened else eat .dot opened) = opened := by
    split
    · next seen => exact .inl (remaining_name_lt seen)
    · cases seen : opened.sees .dot with
      | true => exact .inl (remaining_eat_lt seen)
      | false => exact .inr (by simp [eat, seen])
  generalize (if opened.sees .ident then _ else _) = behind at named ⊢
  rcases named with fewer | rfl
  · split
    · exact Nat.lt_of_le_of_lt (remaining_bump_le _) fewer
    · exact Nat.lt_of_le_of_lt (remaining_recover_le _ _ _) fewer
  · split
    · exact remaining_bump_lt isOpen
    · exact remaining_recover_lt _ _ isOpen

theorem remaining_typeSpec_lt
    {cursor : Cursor}
    (present : cursor.atEnd = false) :
    (typeSpec typeRule cursor).remaining < cursor.remaining := by
  refine remaining_node_lt ?_
  have isOpen : (cursor.openNode .typeSpec).atEnd = false := by simpa using present
  dsimp only
  generalize cursor.openNode .typeSpec = opened at isOpen ⊢
  split
  · next seen =>
      have named := remaining_name_lt seen
      generalize name opened = behind at named ⊢
      have params :
          (if behind.sees .leftBracket && declaresTypeParams behind then typeParams behind
            else behind).remaining ≤ behind.remaining := by
        split
        · exact remaining_le_of_respects (respects_typeParams compatible_taking) _
        · exact Nat.le_refl _
      have equals := remaining_le_of_respects (compatible_taking.eat .equals)
        (if behind.sees .leftBracket && declaresTypeParams behind then typeParams behind
          else behind)
      have type := remaining_le_of_respects respects_typeRule (eat .equals
        (if behind.sees .leftBracket && declaresTypeParams behind then typeParams behind
          else behind))
      omega
  · next unseen =>
      have reported : name opened = opened.report .identifier := by simp [name, unseen]
      rw [reported]
      exact @remaining_recover_lt (opened.report .identifier) _ _ isOpen

theorem remaining_fieldDecl_lt
    {cursor : Cursor}
    (present : cursor.atEnd = false) :
    (fieldDecl typeRule cursor).remaining < cursor.remaining := by
  refine remaining_node_lt ?_
  have isOpen : (cursor.openNode .fieldDecl).atEnd = false := by simpa using present
  dsimp only
  generalize cursor.openNode .fieldDecl = opened at isOpen ⊢
  refine Nat.lt_of_le_of_lt (remaining_le_of_respects (compatible_taking.eat .string) _) ?_
  split
  · have starred := remaining_bump_lt isOpen
    split
    · next seen => exact Nat.lt_trans (remaining_typeName_lt (atEnd_of_sees seen)) starred
    · exact starred
  · split
    · next seen =>
        split
        · exact remaining_typeName_lt isOpen
        · have named := remaining_name_lt seen
          have names := remaining_le_of_respects (respects_moreNames compatible_taking)
            (name opened)
          have type := remaining_le_of_respects respects_typeRule (moreNames (name opened))
          omega
    · exact remaining_recover_lt _ _ isOpen

/-- A term that is followed by another one is followed by a token. -/
theorem progresses_termTurn : Progresses (termTurn typeRule) := by
  intro typeSet cursor next behind again
  have tilde := remaining_le_of_respects (compatible_taking.eat .tilde) cursor
  have type := remaining_le_of_respects respects_typeRule (eat .tilde cursor)
  simp only [termTurn] at again
  split at again
  · split at again
    · next pipe =>
        cases again
        have taken := remaining_bump_lt (atEnd_of_sees pipe)
        omega
    · cases again
  · cases again

/-- The last term takes a token or what stands in its place does. -/
theorem remaining_lt_of_termTurn_done
    {typeSet last : Bool}
    {cursor behind : Cursor}
    (present : cursor.atEnd = false)
    (done : termTurn typeRule typeSet cursor = .done last behind) :
    behind.remaining < cursor.remaining := by
  have tilde := remaining_le_of_respects (compatible_taking.eat .tilde) cursor
  simp only [termTurn] at done
  split at done
  · next starts =>
      have type := remaining_typeRule_lt starts
      split at done
      · cases done
      · cases done
        omega
  · next starts =>
      cases done
      have nothing : typeRule (eat .tilde cursor) = (eat .tilde cursor).report .typeExpression := by
        rw [closesTypes_typeRule, typeExpr_of_not_startsType (by simpa using starts)]
      rw [nothing]
      cases seen : cursor.sees .tilde with
      | true =>
          exact Nat.lt_of_le_of_lt (remaining_recover_le _ _ _) (remaining_eat_lt seen)
      | false =>
          have same : eat .tilde cursor = cursor := by simp [eat, seen]
          rw [same]
          exact @remaining_recover_lt (cursor.report .typeExpression) _ _ present

theorem remaining_interfaceElem_lt
    {cursor : Cursor}
    (present : cursor.atEnd = false) :
    (interfaceElem typeRule cursor).remaining < cursor.remaining := by
  unfold interfaceElem
  split
  · next method =>
      refine remaining_node_lt ?_
      have seen : (cursor.openNode .methodSpec).sees .ident = true := by
        simp only [sees, peek?_openNode] at method ⊢
        exact (Bool.and_eq_true_iff.mp method).1
      exact Nat.lt_of_le_of_lt
        (remaining_le_of_respects (respects_signature compatible_taking respects_typeRule) _)
        (remaining_name_lt seen)
  · have begun := remaining_skipTrivia_le cursor
    have isPresent : cursor.skipTrivia.atEnd = false := by simpa [atEnd] using present
    dsimp only
    rw [remaining_closeNode]
    refine Nat.lt_of_lt_of_le ?_ begun
    change (loop (termTurn typeRule) false cursor.skipTrivia).2.remaining < _
    generalize cursor.skipTrivia = here at isPresent ⊢
    cases step : termTurn typeRule false here with
    | again next behind =>
        exact remaining_loop_lt (fun _ typeSet _ _ keeps =>
          related_termTurn compatible_taking respects_typeRule typeSet keeps)
          step (progresses_termTurn step)
    | done last behind =>
        simp only [loop, turns, step]
        exact remaining_lt_of_termTurn_done isPresent step

/-- Every declaration takes a token, and so does what stands in the place of one. -/
theorem remaining_declaration_lt
    {cursor : Cursor}
    (present : cursor.atEnd = false) :
    (declaration typeRule cursor).remaining < cursor.remaining := by
  have here := within_self cursor
  have outside := compatible_within (cursor.remaining + 1)
  have inside := compatible_within cursor.remaining
  have enters := enters_within cursor.remaining
  have types := respects_within_of_taking respects_typeRule cursor.remaining
  unfold declaration
  split
  · exact remaining_bump_lt present
  · exact remaining_bump_lt present
  · exact (related_groupedDecl outside inside enters here present (by decide)
      (respects_importSpec inside)).2
  · exact (related_groupedDecl outside inside enters here present (by decide)
      (respects_typeSpec inside types)).2
  · exact (related_funcDecl outside inside enters here present types).2
  · exact (related_valueDecl outside inside enters here present).2
  · exact (related_valueDecl outside inside enters here present).2
  · exact remaining_recover_lt _ _ present

theorem atEnd_of_goesOn
    {closing : Kind}
    {cursor : Cursor}
    (more : goesOn closing cursor = true) :
    cursor.atEnd = false := by
  simp only [goesOn, Bool.and_eq_true, Bool.not_eq_true'] at more
  exact more.1

theorem atEnd_of_passesOver
    {stops : Kind → Bool}
    {cursor : Cursor}
    (more : cursor.passesOver stops = true) :
    cursor.atEnd = false := by
  simp only [passesOver, Bool.and_eq_true, Bool.not_eq_true'] at more
  exact more.1

theorem progresses_commaTurn
    {rule : Rule}
    {cursor behind : Cursor}
    {next : Unit}
    (takes : Respects Taking rule rule)
    (again : commaTurn (rule cursor) = .again next behind) :
    behind.remaining < cursor.remaining := by
  have taken := remaining_le_of_respects takes cursor
  simp only [commaTurn] at again
  split at again
  · next comma =>
      cases again
      have fewer := remaining_bump_lt (atEnd_of_sees comma)
      omega
  · cases again

theorem progresses_paramTurn : Progresses (paramTurn typeRule) := by
  intro state cursor next behind again
  simp only [paramTurn] at again
  split at again
  · cases again
  · exact progresses_commaTurn (respects_param compatible_taking respects_typeRule) again

theorem progresses_typeArgTurn : Progresses (typeArgTurn typeRule) := by
  intro state cursor next behind again
  simp only [typeArgTurn] at again
  split at again
  · cases again
  · split at again
    · exact progresses_commaTurn respects_typeRule again
    · cases again

theorem progresses_arrayLengthTurn : Progresses arrayLengthTurn := by
  intro depth cursor next behind again
  cases peeked : cursor.peek? 0 with
  | none => simp [arrayLengthTurn, peeked] at again
  | some kind =>
      have fewer := remaining_bump_lt (atEnd_of_peek? peeked)
      simp only [arrayLengthTurn, peeked] at again
      split at again
      · cases again
      · split at again
        · cases again
        · cases again
          exact fewer
      · cases again
        exact fewer
      · cases again
        exact fewer

/--
The parser comes to an end.  A type expression asks for those inside of it only where fewer tokens
are to come, so there is exactly one rule that uses itself for them, and every loop ends by itself
wherever it begins.
-/
structure Terminates : Prop where
  descends : ∀ {rule other : Rule} {cursor : Cursor},
    (∀ inner : Cursor, inner.remaining < cursor.remaining →
      rule inner = other inner ∧ (rule inner).remaining ≤ inner.remaining) →
    typeExpr rule cursor = typeExpr other cursor
  closes : ClosesTypes typeRule
  only : ∀ rule, ClosesTypes rule → rule = typeRule
  terminators : Ends (whileTurn (·.seesAny Kind.isTerminator) bump)
  recovery : ∀ stops, Ends (whileTurn (passesOver stops) bump)
  balanced : ∀ opening closing, Ends (balancedTurn opening closing)
  imports : ∀ closing, Ends (whileTurn (goesOn closing) (listed closing importSpec))
  types : ∀ closing, Ends (whileTurn (goesOn closing) (listed closing (typeSpec typeRule)))
  fields : ∀ closing, Ends (whileTurn (goesOn closing) (listed closing (fieldDecl typeRule)))
  elements : ∀ closing, Ends (whileTurn (goesOn closing) (listed closing (interfaceElem typeRule)))
  params : Ends (paramTurn typeRule)
  typeArgs : Ends (typeArgTurn typeRule)
  arrayLength : Ends arrayLengthTurn
  names : Ends (whileTurn (·.sees .comma) nextName)
  terms : Ends (termTurn typeRule)
  values : Ends (whileTurn (passesOver Kind.isTerminator) tokenOrBrackets)
  declarations : Ends (whileTurn (!·.atEnd) (declaration typeRule))

/-- A list of items ends when every item takes a token. -/
theorem ends_items
    {closing : Kind}
    {item : Rule}
    (takes : ∀ {cursor : Cursor}, cursor.atEnd = false →
      (item cursor).remaining < cursor.remaining) :
    Ends (whileTurn (goesOn closing) (listed closing item)) :=
  (progresses_whileTurn fun _ more => remaining_listed_lt (takes (atEnd_of_goesOn more))).ends

theorem terminates : Terminates where
  descends := typeExpr_congr
  closes := closesTypes_typeRule
  only := fun _ closes => closes.eq_typeRule
  terminators :=
    (progresses_whileTurn fun _ seen => remaining_bump_lt (atEnd_of_seesAny seen)).ends
  recovery := fun _ =>
    (progresses_whileTurn fun _ more => remaining_bump_lt (atEnd_of_passesOver more)).ends
  balanced := fun _ _ => (progresses_balancedTurn _ _).ends
  imports := fun _ => ends_items remaining_importSpec_lt
  types := fun _ => ends_items remaining_typeSpec_lt
  fields := fun _ => ends_items remaining_fieldDecl_lt
  elements := fun _ => ends_items remaining_interfaceElem_lt
  params := progresses_paramTurn.ends
  typeArgs := progresses_typeArgTurn.ends
  arrayLength := progresses_arrayLengthTurn.ends
  names := (progresses_whileTurn fun _ seen => Nat.lt_of_le_of_lt
    (remaining_le_of_respects (respects_name compatible_taking) _)
    (remaining_bump_lt (atEnd_of_sees seen))).ends
  terms := progresses_termTurn.ends
  values := by
    refine (progresses_whileTurn fun cursor more => ?_).ends
    have present := atEnd_of_passesOver more
    unfold tokenOrBrackets
    split
    · exact remaining_bumpBalanced_lt present
    · exact remaining_bump_lt present
  declarations := (progresses_whileTurn fun _ more =>
    remaining_declaration_lt (by simpa using more)).ends

end Grammar

end Implementers.Syntax
