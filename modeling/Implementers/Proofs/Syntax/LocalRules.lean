import Implementers.Proofs.Syntax.Locality

namespace Implementers.Syntax

/-!
# The rules of the grammar are local

Every rule of the grammar keeps two runs parallel that meet different tokens only behind a token
that neither of them has taken.  The proofs follow the rules: they put together what the rules put
together.
-/

open Cursor Grammar

namespace Grammar

/-! ## No token is put back -/

/-- Every step of the parser leaves tokens to come that were to come before. -/
theorem invariant_suffix : Invariant fun base cursor => cursor.rest <:+ base.rest where
  report keeps _ := keeps
  bump keeps := (suffix_bump _).trans keeps
  skipTrivia keeps := (List.dropWhile_suffix _).trans keeps
  restart _ := List.suffix_rfl
  opened _ _ := List.suffix_rfl
  closed _ keeps inside := by
    rw [rest_closeNode]
    exact (inside.trans (List.dropWhile_suffix _)).trans keeps
  wrapped _ keeps inside := by
    rw [rest_closeNode]
    exact inside.trans keeps

/-- Type expressions keep two runs related that have as many tokens to come. -/
theorem respects_typeRule_self
    {related : Relation}
    (compatible : Compatible related) :
    Respects related typeRule typeRule := by
  intro base left right keeps
  rw [typeRule, typeRule, remaining, remaining, compatible.tokens keeps]
  exact respects_typeWithin_self compatible _ keeps

theorem respects_typeRule_suffix :
    Respects (Alone fun base cursor => cursor.rest <:+ base.rest) typeRule typeRule :=
  respects_typeRule_self invariant_suffix.compatible

theorem suffix_of_respects
    {rule : Rule}
    (respects : Respects (Alone fun base cursor => cursor.rest <:+ base.rest) rule rule)
    (cursor : Cursor) :
    (rule cursor).rest <:+ cursor.rest :=
  (respects.alone cursor cursor List.suffix_rfl).2

/-! ## The parts of a source file and of a function -/

/-- What comes in front of the declarations of a source file. -/
def opening
    (cursor : Cursor) :
    Cursor :=
  let begun := skipTerminators cursor
  if begun.sees .packageKeyword then packageClause begun else begun.report .packageClause

theorem sourceFile_eq
    (cursor : Cursor) :
    sourceFile typeRule cursor =
      (repeatWhile (!·.atEnd) (declaration typeRule) (opening cursor)).skipTrivia :=
  rfl

/-- The keyword of a function and its receiver, if it has one. -/
def funcStart
    (opened : Cursor) :
    Cursor :=
  let taken := opened.bump
  if taken.sees .leftParen then taken.node .receiver (paramList typeRule) else taken

/-- The name of a function, its type parameters, its parameters and its results. -/
def funcSignature
    (received : Cursor) :
    Cursor :=
  let named := name received
  signature typeRule (if named.sees .leftBracket then typeParams named else named)

/-- The body of a function, if it has one. -/
def funcBody
    (signed : Cursor) :
    Cursor :=
  if signed.sees .leftBrace then signed.node .block bumpBalanced else signed

section

variable
  {related : Relation}
  (compatible : Compatible related)
  (types : Respects related typeRule typeRule)

include compatible types

theorem respects_funcStart : Respects related funcStart funcStart := by
  intro base left right keeps
  have taken := compatible.bump keeps
  simp only [funcStart, compatible.sees taken]
  split
  · exact compatible.node taken (by decide)
      (respects_paramList compatible types (compatible.opened taken _))
  · exact taken

theorem respects_funcSignature : Respects related funcSignature funcSignature := by
  intro base left right keeps
  have named := respects_name compatible keeps
  refine respects_signature compatible types ?_
  simp only [compatible.sees named]
  split
  · exact respects_typeParams compatible named
  · exact named

end

theorem funcDecl_eq
    (cursor : Cursor) :
    funcDecl typeRule cursor =
      terminator none (cursor.node .funcDecl fun opened =>
        if (funcStart opened).sees .ident then
          funcBody (funcSignature (funcStart opened))
        else
          (name (funcStart opened)).recover .functionName Kind.isTerminator) :=
  rfl

end Grammar

namespace Fork

variable
  {fork : Fork}
  {bound : Nat}
  {guard : Cursor → Prop}

/-! ## What rules ask for -/

namespace Parallel

variable
  {left right : Cursor}
  (parallel : fork.Parallel left right)

include parallel

/-- Whether a bracket opens type parameters is the same both ways. -/
theorem declaresTypeParams :
    (left.sees .leftBracket && Grammar.declaresTypeParams left) =
      (right.sees .leftBracket && Grammar.declaresTypeParams right) := by
  rw [← parallel.sees]
  cases seen : left.sees .leftBracket with
  | false => rfl
  | true =>
      have next := parallel.peek_one seen fork.notOpening
      simp only [Grammar.declaresTypeParams, ← next, Bool.true_and]
      by_cases isIdent : left.peek? 1 = some .ident
      · have behind : left.peek? 2 = right.peek? 2 := by
          refine parallel.peek fun nearer less => ?_
          rcases Nat.le_one_iff_eq_zero_or_eq_one.mp (Nat.le_of_lt_succ less) with rfl | rfl
          · have peeked : left.peek? 0 = some .leftBracket := by simpa [Cursor.sees] using seen
            simpa [peeked] using fork.notOpening.symm
          · simpa [isIdent] using fork.notIdent.symm
        rw [behind]
      · have no : (left.peek? 1 == some .ident) = false := by simpa using isIdent
        rw [no, Bool.false_and, Bool.false_and]

theorem goesOn
    (closing : Kind) :
    Grammar.goesOn closing left = Grammar.goesOn closing right := by
  simp only [Grammar.goesOn, parallel.atEnd, parallel.sees]

end Parallel

/-! ## Names, terminators and lists of items -/

theorem local_skipTerminators : fork.Local bound guard skipTerminators :=
  .repeatWhile terminates.terminators (fun parallel => parallel.seesAny _) .bump

theorem local_terminator
    (closing : Option Kind) :
    fork.Local bound guard (terminator closing) :=
  .ite _ (fun parallel _ => parallel.seesAny _) .bump <|
    .ite _ (fun parallel _ => by rw [parallel.atEnd, parallel.seesAny]) .id <|
      .comp (.recover .terminator (endsItem closing))
        (.ite _ (fun parallel _ => parallel.seesAny _) .bump .id) fun _ => rfl

theorem local_name : fork.Local bound guard name :=
  .ite _ (fun parallel _ => parallel.sees _) (.node _ .bump) (.report .identifier)

theorem local_items
    {item : Rule}
    {closing : Kind}
    (fault : SyntaxFault)
    (ends : Ends (whileTurn (goesOn closing) (listed closing item)))
    (takes : fork.Local bound anywhere item) :
    fork.Local bound guard (items closing fault item) :=
  .comp local_skipTerminators
    (.comp
      (.repeatWhile ends (fun parallel => parallel.goesOn closing)
        (.comp takes (local_terminator (some closing)) fun _ => rfl))
      (.expect closing fault) fun _ => rfl)
    fun _ => rfl

theorem local_typeParams : fork.Local bound guard typeParams :=
  .node _ .bumpBalanced

theorem local_moreNames : fork.Local bound guard moreNames :=
  .repeatWhile terminates.names (fun parallel => parallel.sees _) (.comp .bump local_name fun _ => rfl)

theorem localTurn_comma : fork.LocalTurn bound guard commaTurn :=
  .ite _ (fun parallel => parallel.sees _) (.again () .bump) (.done () .id)

theorem localTurn_arrayLength
    (depth : Nat) :
    fork.LocalTurn bound guard (arrayLengthTurn depth) := by
  refine .byPeek fun kind => ?_
  cases kind with
  | none => exact .congr (fun _ seen => by simp only [arrayLengthTurn, seen]) (.done depth .id)
  | some kind =>
      by_cases closes : kind = .rightBracket
      · cases depth with
        | zero =>
            exact .congr (fun _ seen => by simp only [arrayLengthTurn, seen, closes]) (.done 0 .id)
        | succ depth =>
            exact .congr (fun _ seen => by simp only [arrayLengthTurn, seen, closes])
              (.again depth .bump)
      · by_cases opens : kind = .leftBracket
        · exact .congr (fun _ seen => by simp only [arrayLengthTurn, seen, opens])
            (.again (depth + 1) .bump)
        · exact .congr (fun _ seen => by simp only [arrayLengthTurn, seen]) (.again depth .bump)

/-! ## Runs that find a bracket behind the parting -/

section Overruns

variable
  {behind : List Token}
  {cursor : Cursor}

/-- A token that does not close the length of an array is taken. -/
theorem arrayLengthTurn_eq_again
    {depth deep : Nat}
    {token : Token}
    {rest : List Token}
    (seen : cursor.peek? 0 = some token.kind)
    (stays : depthBehind .leftBracket .rightBracket (depth + 1) (token :: rest) = some deep) :
    ∃ next, arrayLengthTurn depth cursor = .again next cursor.bump ∧
      depthBehind .leftBracket .rightBracket (next + 1) rest = some deep := by
  rw [depthBehind] at stays
  by_cases opens : token.kind = .leftBracket
  · rw [if_pos opens] at stays
    exact ⟨depth + 1, by simp only [arrayLengthTurn, seen, opens], stays⟩
  · rw [if_neg opens] at stays
    by_cases closes : token.kind = .rightBracket
    · rw [if_pos closes] at stays
      cases depth with
      | zero => cases stays
      | succ depth => exact ⟨depth, by simp only [arrayLengthTurn, seen, closes], stays⟩
    · rw [if_neg closes] at stays
      exact ⟨depth, by simp only [arrayLengthTurn, seen], stays⟩

/-- The way to the end of an array length that is left open goes past what follows. -/
theorem arrayLength_overruns
    {depth : Nat}
    {result : Nat × Cursor}
    (loops : Loops arrayLengthTurn depth cursor result) :
    ∀ {before : List Token} {deep : Nat},
      ahead 0 cursor.rest = ahead 0 (before ++ fork.last :: behind) →
      depthBehind .leftBracket .rightBracket (depth + 1) before = some deep →
      ¬fork.last :: behind <:+ result.2.rest := by
  have takes (depth : Nat) (cursor : Cursor) :=
    (@localTurn_arrayLength fork 0 anywhere depth).takes cursor trivial
  -- Whether or not the last token that both ways share is next, the next token is taken.
  have again {depth : Nat} {cursor : Cursor} {before : List Token} {deep : Nat}
      (reads : ahead 0 cursor.rest = ahead 0 (before ++ fork.last :: behind))
      (stays : depthBehind .leftBracket .rightBracket (depth + 1) before = some deep) :
      ∃ next, arrayLengthTurn depth cursor = .again next cursor.bump ∧
        (cursor.bump.rest = behind ∨ ∃ later, cursor.bump.rest = later ++ fork.last :: behind ∧
          depthBehind .leftBracket .rightBracket (next + 1) later = some deep) := by
    obtain ⟨gap, trivia, parts⟩ := exists_gap before
    have passes : depthBehind .leftBracket .rightBracket (depth + 1) gap = some (depth + 1) :=
      depthBehind_of_trivia rfl rfl trivia
    rcases parts with rfl | ⟨token, rest, significant, rfl⟩
    · rw [ahead_of_gap trivia fork.significant] at reads
      have staysBehind :
          depthBehind .leftBracket .rightBracket (depth + 1) [fork.last] = some (depth + 1) :=
        depthBehind_of_plain (by simpa using ⟨fork.notOpening, fork.notClosing⟩)
      obtain ⟨next, turn, _⟩ :=
        arrayLengthTurn_eq_again (by rw [peek?, reads]; rfl) staysBehind
      exact ⟨next, turn, .inl (by rw [rest_bump, reads]; rfl)⟩
    · rw [List.append_assoc, List.cons_append, ahead_of_gap trivia significant] at reads
      rw [depthBehind_append, passes] at stays
      obtain ⟨next, turn, later⟩ :=
        arrayLengthTurn_eq_again (by rw [peek?, reads]; rfl) stays
      exact ⟨next, turn, .inr ⟨rest, by rw [rest_bump, reads]; rfl, later⟩⟩
  induction loops with
  | done ends =>
      intro before deep reads stays
      obtain ⟨next, turn, _⟩ := again reads stays
      cases ends.symm.trans turn
  | again taken later inductionHypothesis =>
      intro before deep reads stays
      obtain ⟨next, turn, passed | ⟨others, reads, stays⟩⟩ := again reads stays
      · cases taken.symm.trans turn
        intro reaches
        have long := (reaches.trans (passed ▸ suffix_loops takes later)).length_le
        exact absurd long (Nat.not_succ_le_self _)
      · cases taken.symm.trans turn
        exact inductionHypothesis (by rw [reads]) stays

/-- No rule puts a token back. -/
theorem suffix_typeRule
    (cursor : Cursor) :
    (typeRule cursor).rest <:+ cursor.rest :=
  suffix_of_respects respects_typeRule_suffix cursor

/-- A type expression that begins with a bracket left open goes past what follows. -/
theorem typeRule_overruns
    {bracket : Token}
    {inner : List Token}
    {deep : Nat}
    (reads : ahead 0 cursor.rest = bracket :: (inner ++ fork.last :: behind))
    (isBracket : bracket.kind = .leftBracket)
    (notEmpty : firstKind? (inner ++ fork.last :: behind) ≠ some .rightBracket)
    (stays : depthBehind .leftBracket .rightBracket 1 inner = some deep) :
    ¬fork.last :: behind <:+ (typeRule cursor).rest := by
  have seen : cursor.peek? 0 = some .leftBracket := by rw [peek?, reads, ← isBracket]; rfl
  have isArray : (cursor.peek? 1 == some .rightBracket) = false := by
    rw [peek?, ahead_succ, reads]
    exact beq_eq_false_iff_ne.mpr notEmpty
  have opened : (cursor.openNode .arrayType).rest = bracket :: (inner ++ fork.last :: behind) := by
    rw [← reads, ahead_zero]
    rfl
  have taken : (cursor.openNode .arrayType).bump.rest = inner ++ fork.last :: behind := by
    have significant : isTrivia bracket = false := by rw [isTrivia, isBracket]; rfl
    rw [rest_bump, opened, ahead_zero, List.dropWhile_cons_of_neg (by simp [significant])]
    rfl
  have overruns := arrayLength_overruns
    (terminates.arrayLength 0 ((cursor.openNode .arrayType).bump.openNode .arrayLength))
    ((ahead_dropWhile 0 _).trans (congrArg (ahead 0) taken)) stays
  intro reaches
  rw [closesTypes_typeRule] at reaches
  simp only [typeExpr, seen, sliceOrArrayType, isArray, Bool.false_eq_true, ↓reduceIte, node,
    rest_closeNode] at reaches
  have expected := (Local.expect .rightBracket (.symbol "]") : fork.Local 0 anywhere _).takes
    ((loop arrayLengthTurn 0 ((cursor.openNode .arrayType).bump.openNode .arrayLength)).2.closeNode)
    trivial
  rw [rest_closeNode] at expected
  exact overruns ((reaches.trans (suffix_typeRule _)).trans expected)

/--
Where looking for the bracket that closes one behind an identifier has different results, this one
is left open up to the parting.
-/
theorem exists_leftOpen
    {before : List Token}
    {left right : Cursor}
    (ours : left.rest = before ++ fork.last :: fork.ours)
    (theirs : right.rest = before ++ fork.last :: fork.theirs)
    (seen : left.sees .ident = true)
    (differ : left.identThenArrayType ≠ right.identThenArrayType) :
    ∃ front bracket inner deep,
      before = front ++ bracket :: inner ∧ bracket.kind = .leftBracket ∧
        depthBehind .leftBracket .rightBracket 1 inner = some deep ∧
        ahead 1 left.rest = bracket :: (inner ++ fork.last :: fork.ours) ∧
        ahead 1 right.rest = bracket :: (inner ++ fork.last :: fork.theirs) ∧
        firstKind? (inner ++ fork.last :: fork.ours) ≠ some .rightBracket ∧
        firstKind? (inner ++ fork.last :: fork.theirs) ≠ some .rightBracket := by
  obtain ⟨gap, trivia, parts⟩ := exists_gap before
  have firstKind (inner : List Token) :
      firstKind? (inner ++ fork.last :: fork.ours) =
        firstKind? (inner ++ fork.last :: fork.theirs) := by
    rw [firstKind?, firstKind?, ahead_append fun _ less => absurd less (Nat.not_lt_zero _)]
  rcases parts with rfl | ⟨ident, later, significant, rfl⟩
  · -- The identifier would be the last token that both ways share.
    rw [Cursor.sees, peek?, ours, ahead_of_gap trivia fork.significant] at seen
    exact absurd (by simpa using seen) fork.notIdent
  · have behind (more : List Token) :
        ahead 1 (gap ++ ident :: later ++ more) = ahead 0 (later ++ more) := by
      rw [ahead_succ, List.append_assoc, List.cons_append, ahead_of_gap trivia significant]
      rfl
    unfold identThenArrayType at differ
    rw [ours, theirs, behind, behind] at differ ⊢
    obtain ⟨gapToo, trivia, parts⟩ := exists_gap later
    rcases parts with rfl | ⟨bracket, inner, significant, rfl⟩
    · simp only [ahead_of_gap trivia fork.significant, fork.notOpening, decide_false,
        Bool.false_and, ne_eq, not_true] at differ
    · simp only [List.append_assoc, List.cons_append, ahead_of_gap trivia significant] at differ ⊢
      by_cases isBracket : bracket.kind = .leftBracket
      · rw [firstKind] at differ
        by_cases isEmpty : firstKind? (inner ++ fork.last :: fork.theirs) = some .rightBracket
        · simp [isEmpty] at differ
        · cases depth : depthBehind .leftBracket .rightBracket 1 inner with
          | none =>
              obtain ⟨after, _, finds⟩ := behindClosing?_of_closed depth
              simp [finds, firstKind] at differ
          | some deep =>
              exact ⟨gap ++ ident :: gapToo, bracket, inner, deep, by simp, isBracket, depth, rfl, rfl,
                firstKind _ ▸ isEmpty, isEmpty⟩
      · simp [isBracket] at differ

/--
Where two runs come to different results looking for a bracket, a run that finds it goes past the
parting when it takes the brackets.
-/
theorem Parallel.overruns
    {left right : Cursor}
    (parallel : fork.Parallel left right)
    (seen : left.sees .ident = true)
    (differ : left.identThenArrayType ≠ right.identThenArrayType) :
    (∀ cursor, ahead 0 cursor.rest = ahead 1 left.rest → ¬fork.Reaches (typeRule cursor)) ∧
      ∀ cursor, ahead 0 cursor.rest = ahead 1 right.rest → ¬fork.ReachesToo (typeRule cursor) := by
  obtain ⟨before, _, ours, theirs⟩ := parallel.rests
  obtain ⟨_, bracket, inner, deep, _, isBracket, depth, behind, behindToo, notEmpty, notEmptyToo⟩ :=
    exists_leftOpen ours theirs seen differ
  rw [behind, behindToo]
  exact ⟨fun cursor reads => typeRule_overruns reads isBracket notEmpty depth,
    fun cursor reads => typeRule_overruns reads isBracket notEmptyToo depth⟩

/--
Two runs that come up to the parting find the same behind an identifier, if they take the brackets
there as the length of an array where these have an end.
-/
theorem Parallel.identThenArrayType
    {left right leftBehind rightBehind : Cursor}
    (parallel : fork.Parallel left right)
    (seen : left.sees .ident = true)
    (meets : fork.Meets leftBehind rightBehind)
    (takesLeft : left.identThenArrayType = true →
      ∃ cursor, ahead 0 cursor.rest = ahead 1 left.rest ∧ leftBehind.rest <:+ (typeRule cursor).rest)
    (takesRight : right.identThenArrayType = true →
      ∃ cursor, ahead 0 cursor.rest = ahead 1 right.rest ∧
        rightBehind.rest <:+ (typeRule cursor).rest) :
    left.identThenArrayType = right.identThenArrayType := by
  by_contra differ
  obtain ⟨overruns, overrunsToo⟩ := parallel.overruns seen differ
  obtain ⟨reaches, alike | reachesToo⟩ := meets
  · obtain ⟨before, suffix, ours, theirs⟩ := parallel.rests
    exact differ (alike suffix ours theirs seen)
  · cases found : left.identThenArrayType with
    | true =>
        obtain ⟨cursor, reads, suffix⟩ := takesLeft found
        exact overruns cursor reads (reaches.trans suffix)
    | false =>
        obtain ⟨cursor, reads, suffix⟩ := takesRight (by simpa [found] using differ)
        exact overrunsToo cursor reads (reachesToo.trans suffix)

/-- Behind a name comes what is ahead of its identifier. -/
theorem ahead_name
    (seen : cursor.sees .ident = true) :
    ahead 0 (name cursor).rest = ahead 1 cursor.rest := by
  have opened : ahead 0 (cursor.openNode .name).rest = ahead 0 cursor.rest :=
    ahead_dropWhile 0 cursor.rest
  rw [name, if_pos seen, node, rest_closeNode, rest_bump, opened, ahead_succ]

/-- An entry of a parameter list behind the test whether it has a name. -/
def entry
    (named : Cursor) :
    Cursor :=
  typeRule (eat .ellipsis named)

/-- Whether an identifier names a parameter is the same for runs that come up to the parting. -/
theorem Parallel.namesParam
    {left right : Cursor}
    (parallel : fork.Parallel left right)
    (meets : fork.Meets
      (if left.sees .ident && Grammar.namesParam left then entry (name left) else entry left)
      (if right.sees .ident && Grammar.namesParam right then entry (name right) else entry right)) :
    (left.sees .ident && Grammar.namesParam left) =
      (right.sees .ident && Grammar.namesParam right) := by
  have sameSeen := parallel.sees .ident
  cases seen : left.sees .ident with
  | false => rw [← sameSeen, seen, Bool.false_and, Bool.false_and]
  | true =>
      have next := parallel.peek_one seen fork.notIdent
      rw [← sameSeen, seen, Bool.true_and, Bool.true_and] at meets ⊢
      by_cases isBracket : left.peek? 1 = some .leftBracket
      · have tests {cursor : Cursor} (isBracket : cursor.peek? 1 = some .leftBracket) :
            Grammar.namesParam cursor = cursor.identThenArrayType := by
          simp only [Grammar.namesParam, isBracket]
        have takes {cursor : Cursor} (seen : cursor.sees .ident = true)
            (isBracket : cursor.peek? 1 = some .leftBracket)
            (found : cursor.identThenArrayType = true) :
            ∃ bracket, ahead 0 bracket.rest = ahead 1 cursor.rest ∧
              (if Grammar.namesParam cursor then entry (name cursor) else entry cursor).rest <:+
                (typeRule bracket).rest := by
          refine ⟨name cursor, ahead_name seen, ?_⟩
          have notEllipsis : (name cursor).sees .ellipsis = false := by
            rw [Cursor.sees, peek?, ahead_name seen]
            exact beq_eq_false_iff_ne.mpr fun isEllipsis => by
              rw [peek?, isEllipsis] at isBracket
              cases isBracket
          rw [if_pos ((tests isBracket).trans found), entry, eat, notEllipsis]
          exact List.suffix_rfl
        rw [tests isBracket, tests (next ▸ isBracket)]
        exact parallel.identThenArrayType seen meets (takes seen isBracket)
          (takes (sameSeen ▸ seen) (next ▸ isBracket))
      · have tests {cursor : Cursor} (same : cursor.peek? 1 = left.peek? 1) :
            Grammar.namesParam cursor = Grammar.namesParam left := by
          simp only [Grammar.namesParam, same]
          split
          · rfl
          · split <;> simp_all
        rw [tests next.symm]

/-- A field declaration behind the test whether its identifier is an embedded field. -/
def fieldType
    (opened : Cursor) :
    Cursor :=
  if Grammar.embedsField opened then typeName typeRule opened
  else typeRule (moreNames (name opened))

/-- Whether an identifier is an embedded field is the same for runs that come up to the parting. -/
theorem Parallel.embedsField
    {left right : Cursor}
    (parallel : fork.Parallel left right)
    (seen : left.sees .ident = true)
    (meets : fork.Meets (fieldType left) (fieldType right)) :
    Grammar.embedsField left = Grammar.embedsField right := by
  have sameSeen := parallel.sees .ident
  have next := parallel.peek_one seen fork.notIdent
  by_cases isBracket : left.peek? 1 = some .leftBracket
  · have tests {cursor : Cursor} (isBracket : cursor.peek? 1 = some .leftBracket) :
        Grammar.embedsField cursor = !cursor.identThenArrayType := by
      simp only [Grammar.embedsField, isBracket]
    have takes {cursor : Cursor} (seen : cursor.sees .ident = true)
        (isBracket : cursor.peek? 1 = some .leftBracket)
        (found : cursor.identThenArrayType = true) :
        ∃ bracket, ahead 0 bracket.rest = ahead 1 cursor.rest ∧
          (fieldType cursor).rest <:+ (typeRule bracket).rest := by
      refine ⟨name cursor, ahead_name seen, ?_⟩
      have notComma : (name cursor).sees .comma = false := by
        rw [Cursor.sees, peek?, ahead_name seen]
        exact beq_eq_false_iff_ne.mpr fun isComma => by
          rw [peek?, isComma] at isBracket
          cases isBracket
      have none : moreNames (name cursor) = name cursor := by
        rw [moreNames, terminates.names.repeatWhile_eq, notComma]
        rfl
      have typed : fieldType cursor = typeRule (name cursor) := by
        rw [fieldType, if_neg (by simp [tests isBracket, found]), none]
      exact typed.symm ▸ List.suffix_rfl
    rw [tests isBracket, tests (next ▸ isBracket)]
    exact congrArg (!·) (parallel.identThenArrayType seen meets (takes seen isBracket)
      (takes (sameSeen ▸ seen) (next ▸ isBracket)))
  · have tests {cursor : Cursor} (same : cursor.peek? 1 = left.peek? 1) :
        Grammar.embedsField cursor = Grammar.embedsField left := by
      simp only [Grammar.embedsField, same]
      split
      · rfl
      · split <;> simp_all
    rw [tests next.symm]

end Overruns

/-! ## Signatures -/

section Types

variable (types : fork.Local bound anywhere typeRule)

include types

theorem local_param : fork.Local bound guard (param typeRule) :=
  have typed {guard : Cursor → Prop} : fork.Local bound guard entry :=
    .comp (.eat .ellipsis) types fun _ => rfl
  .node _ <|
    .congr (fun _ _ => apply_ite entry _ _ _)
      (.iteMeeting _ (fun parallel _ meets => parallel.namesParam meets)
        (.comp local_name typed fun _ => rfl) typed)

theorem local_paramList : fork.Local bound guard (paramList typeRule) :=
  have turn : fork.LocalTurn bound anywhere (paramTurn typeRule ()) :=
    .ite _ (fun parallel => by rw [parallel.atEnd, parallel.sees]) (.done () .id)
      (.comp (local_param types) localTurn_comma fun _ => rfl)
  .node _ <|
    .comp .bump
      (.comp (.loop terminates.params (fun _ => turn) ())
        (.ite _ (fun parallel _ => parallel.sees _) .bump
          (.comp (.recover (.symbol ")") _) (.eat .rightParen) fun _ => rfl))
        fun _ => rfl)
      fun _ => rfl

theorem local_signature : fork.Local bound guard (signature typeRule) :=
  .ite _ (fun parallel _ => parallel.sees _)
    (.comp (local_paramList types)
      (.ite _ (fun parallel _ => parallel.sees _) (.node _ (local_paramList types))
        (.ite _ (fun parallel _ => parallel.seesAny _) (.node _ types) .id))
      fun _ => rfl)
    (.report (.symbol "("))

/-! ## Type expressions -/

theorem local_typeName : fork.Local (bound + 1) guard (typeName typeRule) :=
  have turn : fork.LocalTurn bound anywhere (typeArgTurn typeRule ()) :=
    .ite _ (fun parallel => by rw [parallel.atEnd, parallel.sees]) (.done () .id)
      (.ite _ (fun parallel => parallel.seesAny _) (.comp types localTurn_comma fun _ => rfl)
        (.done () (.comp types (.recover .typeArgument _) fun _ => rfl)))
  have args : fork.Local bound anywhere fun bracket =>
      expect .rightBracket (.symbol "]") (loop (typeArgTurn typeRule) () bracket.bump).2 :=
    .comp .bump
      (.comp (.loop terminates.typeArgs (fun _ => turn) ()) (.expect .rightBracket (.symbol "]"))
        fun _ => rfl)
      fun _ => rfl
  .node _ <|
    .behindBump
      (.comp
        (.ite _ (fun parallel _ => parallel.sees .dot)
          (.comp .bump (.expect .ident .identifierAfterDot) fun _ => rfl) .id)
        (.ite (fun named => named.sees .leftBracket && named.peek? 1 != some .rightBracket)
          (fun parallel _ => by
            rw [← parallel.sees]
            cases seen : Cursor.sees _ .leftBracket with
            | false => rfl
            | true => rw [parallel.peek_one seen fork.notOpening])
          (.node _ args) .id)
        fun _ => rfl)
      fun _ => rfl

theorem local_sliceOrArrayType :
    fork.Local (bound + 1) (fun cursor => guard cursor ∧ cursor.peek? 0 = some .leftBracket)
      (sliceOrArrayType typeRule) :=
  have length : fork.Local bound anywhere
      (node .arrayLength fun inner => (loop arrayLengthTurn 0 inner).2) :=
    .node _ (.loop terminates.arrayLength localTurn_arrayLength 0)
  .ite _
    (fun parallel seen => by
      rw [parallel.peek_one (by simpa [Cursor.sees] using seen.2) fork.notOpening])
    (.node _ (.behindBump (.comp .bump types fun _ => rfl) fun _ => rfl))
    (.node _ (.behindBump
      (.comp length (.comp (.expect .rightBracket (.symbol "]")) types fun _ => rfl) fun _ => rfl)
      fun _ => rfl))

theorem local_mapType : fork.Local (bound + 1) guard (mapType typeRule) :=
  .node _ <|
    .behindBump
      (.comp (.expect .leftBracket (.symbol "["))
        (.comp types (.comp (.expect .rightBracket (.symbol "]")) types fun _ => rfl) fun _ => rfl)
        fun _ => rfl)
      fun _ => rfl

theorem local_chanType : fork.Local (bound + 1) guard (chanType typeRule) :=
  .node _ <|
    .congr (fun _ _ => apply_ite typeRule _ _ _)
      (.ite _ (fun parallel _ => parallel.sees _)
        (.behindBump (.comp (.expect .chanKeyword (.symbol "chan")) types fun _ => rfl)
          fun _ => rfl)
        (.behindBump (.comp (.eat .arrow) types fun _ => rfl) fun _ => rfl))

/-! ## Fields and elements -/

omit types in
theorem local_bracedType
    (kind : Kind)
    {item : Rule}
    (ends : Ends (whileTurn (goesOn .rightBrace) (listed .rightBrace item)))
    (takes : fork.Local bound anywhere item) :
    fork.Local (bound + 1) guard (bracedType kind item) :=
  .node _ <|
    .behindBump
      (.ite _ (fun parallel _ => parallel.sees _)
        (.comp .bump (local_items (.symbol "\x7d") ends takes) fun _ => rfl)
        (.report (.symbol "\x7b")))
      fun _ => rfl

theorem local_fieldDecl : fork.Local bound guard (fieldDecl typeRule) :=
  have embedded {guard : Cursor → Prop} : fork.Local bound guard (typeName typeRule) :=
    (local_typeName types).mono (Nat.le_succ bound)
  .node _ <|
    .comp
      (.ite _ (fun parallel _ => parallel.sees .star)
        (.comp .bump
          (.ite _ (fun parallel _ => parallel.sees .ident) embedded (.report .embeddedTypeName))
          fun _ => rfl)
        (.ite _ (fun parallel _ => parallel.sees .ident)
          (.iteMeeting _ (fun parallel seen meets => parallel.embedsField seen.2 meets) embedded
            (.comp local_name (.comp local_moreNames types fun _ => rfl) fun _ => rfl))
          (.recover .fieldDeclaration (endsItem (some .rightBrace)))))
      (.eat .string) fun _ => rfl

theorem localTurn_term
    (typeSet : Bool) :
    fork.LocalTurn bound guard (termTurn typeRule typeSet) := by
  refine .byPeek fun kind => ?_
  have marked {cursor : Cursor} (seen : cursor.peek? 0 = kind) :
      cursor.sees .tilde = (kind == some .tilde) := by
    rw [Cursor.sees, seen]
  exact .congr (fun _ seen => by simp only [termTurn, marked seen.2])
    (.comp (.eat .tilde)
      (.ite _ (fun parallel => parallel.seesAny Kind.startsType)
        (.comp types
          (.ite _ (fun parallel => parallel.sees .pipe) (.again true .bump)
            (.done (typeSet || kind == some .tilde) .id))
          fun _ => rfl)
        (.done (typeSet || kind == some .tilde)
          (.comp types (.recover .interfaceElement (endsItem (some .rightBrace))) fun _ => rfl)))
      fun _ => rfl)

theorem local_interfaceElem : fork.Local bound guard (interfaceElem typeRule) :=
  .ite (fun cursor => cursor.sees .ident && cursor.peek? 1 == some .leftParen)
    (fun parallel _ => by
      rw [← parallel.sees]
      cases seen : Cursor.sees _ .ident with
      | false => rfl
      | true => rw [parallel.peek_one seen fork.notIdent])
    (.node _ (.comp local_name (local_signature types) fun _ => rfl))
    (.wrapped terminates.terms (localTurn_term types)
      (fun typeSet => if typeSet then .typeSetElem else .embeddedElem) fun _ => rfl)

/-! ## The rule for type expressions -/

theorem local_typeExpr : fork.Local (bound + 1) guard (typeExpr typeRule) := by
  refine .byPeek fun kind => ?_
  cases starts : kind.any Kind.startsType with
  | false =>
      exact .congr
        (fun _ seen => typeExpr_of_not_startsType (by rw [seesAny, seen.2, starts]))
        (.report .typeExpression)
  | true =>
      obtain ⟨kind, rfl, starts⟩ := (Option.any_eq_true _ _).mp starts
      cases kind with
      | ident => exact .congr (fun _ seen => by simp only [typeExpr, seen]) (local_typeName types)
      | star =>
          exact .congr (fun _ seen => by simp only [typeExpr, seen])
            (.node .pointerType (.behindBump types fun _ => rfl))
      | leftBracket =>
          exact .congr (fun _ seen => by simp only [typeExpr, seen]) (local_sliceOrArrayType types)
      | mapKeyword => exact .congr (fun _ seen => by simp only [typeExpr, seen]) (local_mapType types)
      | chanKeyword =>
          exact .congr (fun _ seen => by simp only [typeExpr, seen]) (local_chanType types)
      | arrow => exact .congr (fun _ seen => by simp only [typeExpr, seen]) (local_chanType types)
      | funcKeyword =>
          exact .congr (fun _ seen => by simp only [typeExpr, seen])
            (.node .funcType (.behindBump (local_signature types) fun _ => rfl))
      | structKeyword =>
          exact .congr (fun _ seen => by simp only [typeExpr, seen])
            (local_bracedType .structType (terminates.fields _) (local_fieldDecl types))
      | interfaceKeyword =>
          exact .congr (fun _ seen => by simp only [typeExpr, seen])
            (local_bracedType .interfaceType (terminates.elements _) (local_interfaceElem types))
      | leftParen =>
          exact .congr (fun _ seen => by simp only [typeExpr, seen])
            (.node .parenType (.behindBump
              (.comp types (.expect .rightParen (.symbol ")")) fun _ => rfl) fun _ => rfl))
      | _ => cases starts

end Types

theorem local_typeRule
    (bound : Nat) :
    ∀ {guard : Cursor → Prop}, fork.Local bound guard typeRule := by
  induction bound with
  | zero =>
      intro guard
      exact ⟨fun cursor _ => suffix_typeRule cursor, fun _ none => absurd none (Nat.not_lt_zero _)⟩
  | succ bound inductionHypothesis =>
      intro guard
      exact .congr (fun cursor _ => closesTypes_typeRule cursor) (local_typeExpr inductionHypothesis)

/-! ## Declarations -/

section Declarations

variable (bound)

theorem local_groupedDecl
    (kind : Kind)
    {item : Rule}
    (ends : Ends (whileTurn (goesOn .rightParen) (listed .rightParen item)))
    (takes : fork.Local bound anywhere item) :
    fork.Local bound guard (groupedDecl kind item) :=
  .comp
    (.node kind
      (.comp .bump
        (.ite _ (fun parallel _ => parallel.sees _)
          (.comp .bump (local_items (.symbol ")") ends takes) fun _ => rfl) takes.guarded)
        fun _ => rfl))
    (local_terminator none) fun _ => rfl

theorem local_packageClause : fork.Local bound guard packageClause :=
  .comp (.node .packageClause (.comp .bump local_name fun _ => rfl)) (local_terminator none)
    fun _ => rfl

theorem local_importSpec : fork.Local bound guard importSpec :=
  .node _
    (.comp (.ite _ (fun parallel _ => parallel.sees _) local_name (.eat .dot))
      (.ite _ (fun parallel _ => parallel.sees _) .bump
        (.recover .importPath (endsItem (some .rightParen))))
      fun _ => rfl)

theorem local_typeSpec : fork.Local bound guard (typeSpec typeRule) :=
  .node _
    (.ite _ (fun parallel _ => parallel.sees _)
      (.comp local_name
        (.comp
          (.ite (fun named => named.sees .leftBracket && declaresTypeParams named)
            (fun parallel _ => parallel.declaresTypeParams) local_typeParams .id)
          (.comp (.eat .equals) (local_typeRule bound) fun _ => rfl) fun _ => rfl)
        fun _ => rfl)
      (.comp local_name (.recover .typeName (endsItem (some .rightParen))) fun _ => rfl))

theorem local_funcStart : fork.Local bound guard funcStart :=
  .comp .bump
    (.ite _ (fun parallel _ => parallel.sees _)
      (.node .receiver (local_paramList (local_typeRule bound))) .id)
    fun _ => rfl

theorem local_funcSignature : fork.Local bound guard funcSignature :=
  .comp local_name
    (.comp (.ite _ (fun parallel _ => parallel.sees _) local_typeParams .id)
      (local_signature (local_typeRule bound)) fun _ => rfl)
    fun _ => rfl

theorem local_funcDecl : fork.Local bound guard (funcDecl typeRule) :=
  .comp
    (.node .funcDecl
      (.comp (local_funcStart bound)
        (.ite _ (fun parallel _ => parallel.sees _)
          (.comp (local_funcSignature bound)
            (.ite _ (fun parallel _ => parallel.sees _) (.node .block .bumpBalanced) .id) fun _ => rfl)
          (.comp local_name (.recover .functionName Kind.isTerminator) fun _ => rfl))
        fun _ => rfl))
    (local_terminator none) funcDecl_eq

theorem local_valueDecl : fork.Local bound guard valueDecl :=
  .comp
    (.node .valueDecl
      (.comp .bump
        (.repeatWhile terminates.values (fun parallel => parallel.passesOver _)
          (.ite _ (fun parallel _ => parallel.seesAny _) .bumpBalanced .bump))
        fun _ => rfl))
    (local_terminator none) fun _ => rfl

theorem local_declaration : fork.Local bound guard (declaration typeRule) := by
  refine .byPeek fun kind => ?_
  cases kind with
  | none =>
      exact .congr (fun _ seen => by simp only [declaration, seen])
        (.recover .declaration Kind.isTerminator)
  | some kind =>
      cases kind with
      | semicolon => exact .congr (fun _ seen => by simp only [declaration, seen]) .bump
      | newline => exact .congr (fun _ seen => by simp only [declaration, seen]) .bump
      | importKeyword =>
          exact .congr (fun _ seen => by simp only [declaration, seen])
            (local_groupedDecl bound .importDecl (terminates.imports _) (local_importSpec bound))
      | typeKeyword =>
          exact .congr (fun _ seen => by simp only [declaration, seen])
            (local_groupedDecl bound .typeDecl (terminates.types _) (local_typeSpec bound))
      | funcKeyword =>
          exact .congr (fun _ seen => by simp only [declaration, seen]) (local_funcDecl bound)
      | varKeyword =>
          exact .congr (fun _ seen => by simp only [declaration, seen]) (local_valueDecl bound)
      | constKeyword =>
          exact .congr (fun _ seen => by simp only [declaration, seen]) (local_valueDecl bound)
      | _ =>
          exact .congr (fun _ seen => by simp only [declaration, seen])
            (.recover .declaration Kind.isTerminator)

theorem local_opening : fork.Local bound guard opening :=
  .comp local_skipTerminators
    (.ite _ (fun parallel _ => parallel.sees _) (local_packageClause bound) (.report .packageClause))
    fun _ => rfl

end Declarations

end Fork

end Implementers.Syntax
