import Implementers.Proofs.Syntax.Recognition

namespace Implementers.Syntax.Cursor

/-!
# Passing over brackets

The search for the bracket that closes an open one, the way to the end of an array length and the
way over a balanced run of brackets all count how many brackets are open.  Some tokens in front of
others either close the last open bracket, so that the others do not matter, or leave a number of
brackets open with which the others are met.
-/

variable
  {opening closing : Kind}
  {depth : Nat}

/-- How many brackets are open behind tokens, unless the last open one is closed among them. -/
def depthBehind
    (opening closing : Kind) :
    Nat → List Token → Option Nat
  | depth, [] => some depth
  | depth, token :: rest =>
      if token.kind = opening then
        depthBehind opening closing (depth + 1) rest
      else if token.kind = closing then
        if depth ≤ 1 then none else depthBehind opening closing (depth - 1) rest
      else
        depthBehind opening closing depth rest

/-- Whether tokens close the brackets that they open, and no other ones. -/
def Balances
    (opening closing : Kind)
    (tokens : List Token) :
    Prop :=
  depthBehind opening closing 1 tokens = some 1

instance (tokens : List Token) : Decidable (Balances opening closing tokens) :=
  inferInstanceAs (Decidable (depthBehind opening closing 1 tokens = some 1))

theorem depthBehind_append
    (front back : List Token) :
    depthBehind opening closing depth (front ++ back) =
      (depthBehind opening closing depth front).bind fun behind =>
        depthBehind opening closing behind back := by
  fun_induction depthBehind opening closing depth front with
  | case1 depth => rfl
  | case2 depth token rest opens inductionHypothesis =>
      rw [List.cons_append, depthBehind, if_pos opens, inductionHypothesis]
  | case3 depth token rest notOpening closes last =>
      rw [List.cons_append, depthBehind, if_neg notOpening, if_pos closes, if_pos last]
      rfl
  | case4 depth token rest notOpening closes deep inductionHypothesis =>
      rw [List.cons_append, depthBehind, if_neg notOpening, if_pos closes, if_neg deep,
        inductionHypothesis]
  | case5 depth token rest notOpening notClosing inductionHypothesis =>
      rw [List.cons_append, depthBehind, if_neg notOpening, if_neg notClosing, inductionHypothesis]

/-- Tokens that are none of the brackets do not count. -/
theorem depthBehind_of_plain
    {tokens : List Token}
    (plain : ∀ token ∈ tokens, token.kind ≠ opening ∧ token.kind ≠ closing) :
    depthBehind opening closing depth tokens = some depth := by
  induction tokens with
  | nil => rfl
  | cons token rest inductionHypothesis =>
      obtain ⟨⟨notOpening, notClosing⟩, others⟩ := List.forall_mem_cons.mp plain
      rw [depthBehind, if_neg notOpening, if_neg notClosing]
      exact inductionHypothesis others

/-- Trivia does not count. -/
theorem depthBehind_of_trivia
    {gap : List Token}
    (opens : opening.isTrivia = false)
    (closes : closing.isTrivia = false)
    (trivia : ∀ token ∈ gap, isTrivia token = true) :
    depthBehind opening closing depth gap = some depth := by
  refine depthBehind_of_plain fun token member => ?_
  have isGap := trivia token member
  constructor <;> rintro rfl <;> simp_all [isTrivia]

section Search

variable
  {front back : List Token}

/-- The search ends among tokens that close the last open bracket. -/
theorem behindClosing?_of_closed
    (closed : depthBehind opening closing depth front = none) :
    ∃ after, after <:+ front ∧
      ∀ back, behindClosing? opening closing depth (front ++ back) = some (after ++ back) := by
  fun_induction depthBehind opening closing depth front with
  | case1 => cases closed
  | case2 depth token rest opens inductionHypothesis =>
      obtain ⟨after, suffix, finds⟩ := inductionHypothesis closed
      refine ⟨after, suffix.trans (List.suffix_cons token rest), fun back => ?_⟩
      rw [List.cons_append, behindClosing?, if_pos opens, finds]
  | case3 depth token rest notOpening closes last =>
      refine ⟨rest, List.suffix_cons token rest, fun back => ?_⟩
      rw [List.cons_append, behindClosing?, if_neg notOpening, if_pos closes, if_pos last]
  | case4 depth token rest notOpening closes deep inductionHypothesis =>
      obtain ⟨after, suffix, finds⟩ := inductionHypothesis closed
      refine ⟨after, suffix.trans (List.suffix_cons token rest), fun back => ?_⟩
      rw [List.cons_append, behindClosing?, if_neg notOpening, if_pos closes, if_neg deep, finds]
  | case5 depth token rest notOpening notClosing inductionHypothesis =>
      obtain ⟨after, suffix, finds⟩ := inductionHypothesis closed
      refine ⟨after, suffix.trans (List.suffix_cons token rest), fun back => ?_⟩
      rw [List.cons_append, behindClosing?, if_neg notOpening, if_neg notClosing, finds]

end Search

/-! ## Taking bare tokens -/

/-- Taking a token puts none back. -/
theorem suffix_bump
    (cursor : Cursor) :
    cursor.bump.rest <:+ cursor.rest := by
  have skipped : cursor.skipTrivia.rest <:+ cursor.rest := List.dropWhile_suffix _
  unfold Cursor.bump
  dsimp only
  split
  · exact skipped
  · next token rest next => exact (next ▸ List.suffix_cons token rest).trans skipped

/-- Closing a node takes no token. -/
theorem rest_closeNode
    (cursor : Cursor) :
    cursor.closeNode.rest = cursor.rest := by
  unfold Cursor.closeNode
  split <;> rfl

/-- Closing a node notes no fault. -/
theorem errors_closeNode
    (cursor : Cursor) :
    cursor.closeNode.errors = cursor.errors := by
  unfold Cursor.closeNode
  split <;> rfl

/-- The cursor behind tokens that are taken one by one. -/
def past
    (cursor : Cursor)
    (tokens rest : List Token) :
    Cursor :=
  { cursor with rest, built := cursor.built ++ tokens.map Tree.leaf }

theorem past_past
    (cursor : Cursor)
    (front back behind rest : List Token) :
    (cursor.past front behind).past back rest = cursor.past (front ++ back) rest := by
  have built :
      cursor.built ++ front.map Tree.leaf ++ back.map Tree.leaf =
        cursor.built ++ (front ++ back).map Tree.leaf :=
    Array.toList_inj.mp (by simp)
  simp only [past, built]

theorem past_nil
    {cursor : Cursor}
    {rest : List Token}
    (reads : cursor.rest = rest) :
    cursor.past [] rest = cursor := by
  simp [past, ← reads]

/-- A token behind the trivia is taken. -/
theorem bump_eq_past_skipTrivia
    {cursor : Cursor}
    {token : Token}
    {rest : List Token}
    (next : cursor.skipTrivia.rest = token :: rest) :
    cursor.bump = cursor.skipTrivia.past [token] rest := by
  have built :
      cursor.skipTrivia.built.push (.leaf token) =
        cursor.skipTrivia.built ++ [token].map Tree.leaf :=
    Array.toList_inj.mp (by simp)
  simp only [bump, next, past, built]

theorem rest_bump
    (cursor : Cursor) :
    cursor.bump.rest = (ahead 0 cursor.rest).tail := by
  rw [ahead_zero]
  unfold bump
  dsimp only
  split
  · next none => rw [none]; exact (congrArg List.tail none).symm
  · next some => exact (congrArg List.tail some).symm

/-- What lies ahead of a token is ahead at one index more in front of it. -/
theorem ahead_succ
    (index : Nat)
    (tokens : List Token) :
    ahead (index + 1) tokens = ahead index (ahead 0 tokens).tail := by
  induction tokens with
  | nil => cases index <;> rfl
  | cons token rest inductionHypothesis =>
      cases trivia : isTrivia token <;> simp [ahead, trivia, inductionHypothesis]

/-- Tokens begin with trivia, and a significant one follows unless there are no others. -/
theorem exists_gap
    (tokens : List Token) :
    ∃ gap, (∀ token ∈ gap, isTrivia token = true) ∧
      (tokens = gap ∨ ∃ token rest, isTrivia token = false ∧ tokens = gap ++ token :: rest) := by
  refine ⟨tokens.takeWhile isTrivia, List.all_eq_true.mp List.all_takeWhile, ?_⟩
  have parts : tokens.takeWhile isTrivia ++ tokens.dropWhile isTrivia = tokens :=
    List.takeWhile_append_dropWhile
  cases others : tokens.dropWhile isTrivia with
  | nil => exact .inl (by rw [others, List.append_nil] at parts; exact parts.symm)
  | cons token rest =>
      have significant := List.head?_dropWhile_not isTrivia tokens
      rw [others] at significant parts
      exact .inr ⟨token, rest, significant, parts.symm⟩

section Bump

variable
  {cursor : Cursor}
  {gap rest : List Token}
  {token : Token}

/-- What lies ahead begins behind the trivia. -/
theorem ahead_of_gap
    (trivia : ∀ token ∈ gap, isTrivia token = true)
    (significant : isTrivia token = false) :
    ahead 0 (gap ++ token :: rest) = token :: rest := by
  rw [ahead_zero, List.dropWhile_append_of_pos trivia,
    List.dropWhile_cons_of_neg (by simp [significant])]

/-- A token is taken with the trivia before it. -/
theorem bump_eq_past
    (reads : cursor.rest = gap ++ token :: rest)
    (trivia : ∀ token ∈ gap, isTrivia token = true)
    (significant : isTrivia token = false) :
    cursor.bump = cursor.past (gap ++ [token]) rest := by
  have dropped : cursor.rest.dropWhile isTrivia = token :: rest := by
    rw [← ahead_zero, reads, ahead_of_gap trivia significant]
  have taken : cursor.rest.takeWhile isTrivia = gap := by
    rw [reads, List.takeWhile_append_of_pos trivia, List.takeWhile_cons_of_neg (by simp [significant]),
      List.append_nil]
  have built :
      (cursor.built ++ gap.map Tree.leaf).push (.leaf token) =
        cursor.built ++ (gap ++ [token]).map Tree.leaf :=
    Array.toList_inj.mp (by simp)
  simp only [bump, skipTrivia, dropped, taken, past, built]

theorem peek?_zero_of_gap
    (reads : cursor.rest = gap ++ token :: rest)
    (trivia : ∀ token ∈ gap, isTrivia token = true)
    (significant : isTrivia token = false) :
    cursor.peek? 0 = some token.kind := by
  rw [peek?, reads, ahead_of_gap trivia significant]
  rfl

end Bump

/-! ## Runs of balanced brackets -/

/-- The way to the bracket that closes the open ones takes all tokens up to there. -/
theorem loop_balanced
    (different : closing ≠ opening)
    (opens : opening.isTrivia = false)
    (closes : closing.isTrivia = false)
    {rest : List Token}
    {last : Token}
    (isLast : last.kind = closing) :
    ∀ {tokens : List Token} {depth : Nat} {gap : List Token} {cursor : Cursor},
      cursor.rest = gap ++ (tokens ++ last :: rest) →
      (∀ token ∈ gap, isTrivia token = true) →
      depthBehind opening closing depth tokens = some 1 →
      loop (balancedTurn opening closing) depth cursor =
        (0, cursor.past (gap ++ (tokens ++ [last])) rest)
  | [], depth, gap, cursor, reads, trivia, balances => by
      cases balances
      have significant : isTrivia last = false := by rw [isTrivia, isLast, closes]
      have seen := peek?_zero_of_gap reads trivia significant
      have turn : balancedTurn opening closing 1 cursor = .done 0 cursor.bump := by
        simp only [balancedTurn, seen, isLast, if_neg different, if_true, Nat.le_refl]
      rw [(Grammar.terminates.balanced opening closing).loop_eq, turn,
        bump_eq_past reads trivia significant]
      rfl
  | token :: tokens, depth, gap, cursor, reads, trivia, balances => by
      cases isGap : isTrivia token with
      | true =>
          have notOpening : token.kind ≠ opening := by
            rintro rfl
            simp [isTrivia, opens] at isGap
          have notClosing : token.kind ≠ closing := by
            rintro rfl
            simp [isTrivia, closes] at isGap
          rw [depthBehind, if_neg notOpening, if_neg notClosing] at balances
          have wider : ∀ other ∈ gap ++ [token], isTrivia other = true := by
            simpa [or_imp, forall_and, isGap] using trivia
          have taken := loop_balanced different opens closes isLast
            (by simpa using reads) wider balances
          rw [taken]
          simp
      | false =>
          have seen := peek?_zero_of_gap reads trivia isGap
          have bumped : cursor.bump = cursor.past (gap ++ [token]) (tokens ++ last :: rest) :=
            bump_eq_past reads trivia isGap
          have goesOn {depth : Nat} (balances : depthBehind opening closing depth tokens = some 1) :
              loop (balancedTurn opening closing) depth cursor.bump =
                (0, cursor.past (gap ++ (token :: tokens ++ [last])) rest) := by
            have reads :
                (cursor.past (gap ++ [token]) (tokens ++ last :: rest)).rest =
                  [] ++ (tokens ++ last :: rest) :=
              rfl
            rw [bumped, loop_balanced different opens closes isLast reads (List.forall_mem_nil _)
              balances, past_past]
            simp
          rw [(Grammar.terminates.balanced opening closing).loop_eq]
          rw [depthBehind] at balances
          by_cases isOpening : token.kind = opening
          · rw [if_pos isOpening] at balances
            simp only [balancedTurn, seen, if_pos isOpening, goesOn balances]
          · rw [if_neg isOpening] at balances
            by_cases isClosing : token.kind = closing
            · rw [if_pos isClosing] at balances
              by_cases isDeep : depth ≤ 1
              · rw [if_pos isDeep] at balances
                cases balances
              · rw [if_neg isDeep] at balances
                simp only [balancedTurn, seen, if_neg isOpening, if_pos isClosing, if_neg isDeep,
                  goesOn balances]
            · rw [if_neg isClosing] at balances
              simp only [balancedTurn, seen, if_neg isOpening, if_neg isClosing, goesOn balances]

/-- The brackets of a pair are different, and they are no trivia and end no statement. -/
theorem bracket_facts
    (pair : opening.closing? = some closing) :
    closing ≠ opening ∧ opening.isTrivia = false ∧ closing.isTrivia = false ∧
      opening.isTerminator = false := by
  cases opening <;> cases pair <;> decide

/-- A balanced run of brackets is taken as a whole. -/
theorem bumpBalanced_eq
    {cursor : Cursor}
    {gap inner rest : List Token}
    {first last : Token}
    (reads : cursor.rest = gap ++ first :: (inner ++ last :: rest))
    (trivia : ∀ token ∈ gap, isTrivia token = true)
    (pair : first.kind.closing? = some last.kind)
    (balances : Balances first.kind last.kind inner) :
    cursor.bumpBalanced = cursor.past (gap ++ (first :: inner ++ [last])) rest := by
  obtain ⟨different, opens, closes, _⟩ := bracket_facts pair
  have seen := peek?_zero_of_gap reads trivia opens
  have run : depthBehind first.kind last.kind 0 (first :: inner) = some 1 := by
    rwa [depthBehind, if_pos rfl]
  simp only [bumpBalanced, seen, pair]
  rw [loop_balanced different opens closes rfl (by simpa using reads) trivia run]

end Implementers.Syntax.Cursor

namespace Implementers.Syntax

/-! ## Properly nested brackets -/

/-- Whether a token opens or closes something. -/
def Kind.isBracket : Kind → Bool
  | .leftParen | .rightParen | .leftBracket | .rightBracket | .leftBrace | .rightBrace => true
  | _ => false

theorem Kind.closing?_of_plain
    {kind : Kind}
    (notBracket : kind.isBracket = false) :
    kind.closing? = none := by
  cases kind <;> first | rfl | cases notBracket

/-- Tokens whose brackets match, where those outside of all brackets are of a class. -/
inductive Nested : (Kind → Bool) → List Token → Prop where
  | nil
      {admits : Kind → Bool} :
      Nested admits []
  | plain
      {admits : Kind → Bool}
      {token : Token}
      {rest : List Token}
      (admitted : admits token.kind = true)
      (notBracket : token.kind.isBracket = false)
      (nested : Nested admits rest) :
      Nested admits (token :: rest)
  | brackets
      {admits : Kind → Bool}
      {first last : Token}
      {inner rest : List Token}
      (pair : first.kind.closing? = some last.kind)
      (within : Nested (fun _ => true) inner)
      (nested : Nested admits rest) :
      Nested admits (first :: (inner ++ last :: rest))

namespace Nested

open Cursor

variable
  {opening closing : Kind}
  {admits : Kind → Bool}
  {tokens : List Token}

/-- A token that is no bracket is none of a pair. -/
theorem plain_facts
    {kind : Kind}
    (pair : opening.closing? = some closing)
    (notBracket : kind.isBracket = false) :
    kind ≠ opening ∧ kind ≠ closing := by
  constructor <;> rintro rfl
  · cases kind <;> cases pair <;> cases notBracket
  · cases opening <;> cases pair <;> cases notBracket

/-- The brackets of two pairs are the same, or none of them is one of the other pair. -/
theorem pair_cases
    {first last : Kind}
    (pair : opening.closing? = some closing)
    (other : first.closing? = some last) :
    first = opening ∧ last = closing ∨
      (first ≠ opening ∧ first ≠ closing ∧ last ≠ opening ∧ last ≠ closing) := by
  cases opening <;> cases pair <;> cases first <;> cases other <;> decide

/-- Tokens whose brackets match leave as many brackets of a kind open as there are around them. -/
theorem depthBehind_eq
    (pair : opening.closing? = some closing)
    (nested : Nested admits tokens) :
    ∀ {depth : Nat}, 0 < depth → depthBehind opening closing depth tokens = some depth := by
  induction nested with
  | nil => exact fun _ => rfl
  | plain _ notBracket _ inductionHypothesis =>
      intro depth isOpen
      obtain ⟨notOpening, notClosing⟩ := plain_facts pair notBracket
      rw [depthBehind, if_neg notOpening, if_neg notClosing, inductionHypothesis isOpen]
  | brackets others _ _ withinHypothesis inductionHypothesis =>
      intro depth isOpen
      rcases pair_cases pair others with ⟨isOpening, isClosing⟩ | ⟨first, firstToo, last, lastToo⟩
      · have different := (bracket_facts pair).1
        have deep : ¬depth + 1 ≤ 1 := by omega
        rw [depthBehind, if_pos isOpening, depthBehind_append,
          withinHypothesis (Nat.succ_pos depth), Option.bind_some, depthBehind,
          if_neg (isClosing ▸ different), if_pos isClosing, if_neg deep]
        exact inductionHypothesis isOpen
      · rw [depthBehind, if_neg first, if_neg firstToo, depthBehind_append,
          withinHypothesis isOpen, Option.bind_some, depthBehind, if_neg last, if_neg lastToo,
          inductionHypothesis isOpen]

theorem balances
    (pair : opening.closing? = some closing)
    (nested : Nested admits tokens) :
    Balances opening closing tokens :=
  nested.depthBehind_eq pair Nat.one_pos

end Nested

namespace Cursor

open Grammar

/--
Tokens with properly nested brackets and without a terminator outside of them are taken up to the
trivia in front of a terminator.
-/
theorem repeatWhile_nested
    {admits : Kind → Bool}
    {tokens behind : List Token}
    {kind : Kind}
    (nested : Nested admits tokens)
    (admitted : ∀ kind, admits kind = true → kind.isTerminator = false)
    (next : firstKind? behind = some kind)
    (terminates : kind.isTerminator = true) :
    ∀ {gap : List Token} {cursor : Cursor},
      cursor.rest = gap ++ (tokens ++ behind) →
      (∀ token ∈ gap, isTrivia token = true) →
      ∃ taken left, gap ++ tokens = taken ++ left ∧ (∀ token ∈ left, isTrivia token = true) ∧
        repeatWhile (passesOver Kind.isTerminator) tokenOrBrackets cursor =
          cursor.past taken (left ++ behind) := by
  have turn {cursor : Cursor} {token : Token} (seen : cursor.peek? 0 = some token.kind)
      (notTerminator : token.kind.isTerminator = false) :
      repeatWhile (passesOver Kind.isTerminator) tokenOrBrackets cursor =
        repeatWhile (passesOver Kind.isTerminator) tokenOrBrackets (tokenOrBrackets cursor) := by
    rw [Grammar.terminates.values.repeatWhile_eq, if_pos]
    simp [passesOver, atEnd, seesAny, seen, notTerminator]
  induction nested with
  | nil =>
      intro gap cursor reads trivia
      refine ⟨[], gap, by simp, trivia, ?_⟩
      have seen : cursor.peek? 0 = some kind := by
        rw [peek?, reads, List.nil_append, ahead_zero, List.dropWhile_append_of_pos trivia,
          ← ahead_zero]
        exact next
      rw [Grammar.terminates.values.repeatWhile_eq, if_neg, past_nil (by simpa using reads)]
      simp [passesOver, seesAny, seen, terminates]
  | @plain _ token rest isAdmitted notBracket _ inductionHypothesis =>
      intro gap cursor reads trivia
      rw [List.cons_append] at reads
      cases isGap : isTrivia token with
      | true =>
          have wider : ∀ other ∈ gap ++ [token], isTrivia other = true := by
            simpa [or_imp, forall_and, isGap] using trivia
          obtain ⟨taken, left, parts, trailing, ends⟩ :=
            inductionHypothesis admitted (by simpa using reads) wider
          exact ⟨taken, left, by simpa using parts, trailing, ends⟩
      | false =>
          have seen := peek?_zero_of_gap reads trivia isGap
          have taken : tokenOrBrackets cursor = cursor.past (gap ++ [token]) (rest ++ behind) := by
            rw [← bump_eq_past reads trivia isGap]
            simp [tokenOrBrackets, seesAny, seen, Kind.closing?_of_plain notBracket]
          obtain ⟨later, left, parts, trailing, ends⟩ :=
            @inductionHypothesis admitted [] (cursor.past (gap ++ [token]) (rest ++ behind)) rfl
              (List.forall_mem_nil _)
          refine ⟨gap ++ [token] ++ later, left, ?_, trailing, ?_⟩
          · simpa using parts
          · rw [turn seen (admitted _ isAdmitted), taken, ends, past_past]
  | @brackets _ first last inner rest pair within _ _ inductionHypothesis =>
      intro gap cursor reads trivia
      obtain ⟨_, opens, _, notTerminator⟩ := bracket_facts pair
      rw [List.cons_append, List.append_assoc, List.cons_append] at reads
      have seen := peek?_zero_of_gap reads trivia opens
      have taken :
          tokenOrBrackets cursor =
            cursor.past (gap ++ (first :: inner ++ [last])) (rest ++ behind) := by
        rw [← bumpBalanced_eq reads trivia pair (within.balances pair)]
        simp [tokenOrBrackets, seesAny, seen, pair]
      obtain ⟨later, left, parts, trailing, ends⟩ :=
        @inductionHypothesis admitted []
          (cursor.past (gap ++ (first :: inner ++ [last])) (rest ++ behind)) rfl
          (List.forall_mem_nil _)
      refine ⟨gap ++ (first :: inner ++ [last]) ++ later, left, ?_, trailing, ?_⟩
      · simpa using parts
      · rw [turn seen notTerminator, taken, ends, past_past]

end Cursor

end Implementers.Syntax
