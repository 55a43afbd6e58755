import Implementers.Proofs.Syntax.Passing
import Mathlib.Data.List.TakeWhile

namespace Implementers.Syntax

/-!
# Rules do not see what stands far ahead

A token stream may go on in two ways behind one of its tokens.  As long as a run stays in front of
the place where the ways part, it does not matter which way the stream goes: the other run builds
the same trees and finds the same faults.  Only the search for the bracket that closes one behind an
identifier looks arbitrarily far ahead.  Either this search has the same outcome both ways, or the
run that finds the bracket behind the parting takes all tokens up to there; so it is enough that
both runs stay in front.

The rules of the grammar are local in this sense because they are put together from local ones.
-/

open Cursor

/-- Two ways in which the tokens of a text may go on behind the same token. -/
structure Fork where
  front : List Token
  last : Token
  ours : List Token
  theirs : List Token
  /-- How long the source is the other way. -/
  theirLength : Nat
  significant : isTrivia last = false
  notIdent : last.kind ≠ .ident
  notOpening : last.kind ≠ .leftBracket
  notClosing : last.kind ≠ .rightBracket

/-- The cursor behind a turn. -/
def Cursor.Turn.cursor : Turn σ → Cursor
  | .again _ behind => behind
  | .done _ behind => behind

namespace Fork

variable (fork : Fork)

/-- Whether the last token that both ways share is still to come. -/
def Reaches
    (cursor : Cursor) :
    Prop :=
  fork.last :: fork.ours <:+ cursor.rest

/-- Whether the last token that both ways share is still to come the other way. -/
def ReachesToo
    (cursor : Cursor) :
    Prop :=
  fork.last :: fork.theirs <:+ cursor.rest

/-- Whether the search for the bracket that closes one behind an identifier ends alike both ways. -/
def LooksAlike : Prop :=
  ∀ ⦃before : List Token⦄ ⦃left right : Cursor⦄, before <:+ fork.front →
    left.rest = before ++ fork.last :: fork.ours →
    right.rest = before ++ fork.last :: fork.theirs →
    left.sees .ident = true → left.identThenArrayType = right.identThenArrayType

/-- Whether two runs come up to the parting; the other one may do so for looking ahead alike. -/
def Meets
    (left right : Cursor) :
    Prop :=
  fork.Reaches left ∧ (fork.LooksAlike ∨ fork.ReachesToo right)

/-- Two runs in front of the place where the ways part, which differ in what lies behind it only. -/
structure Parallel
    (left right : Cursor) :
    Prop where
  rests : ∃ before, before <:+ fork.front ∧ left.rest = before ++ fork.last :: fork.ours ∧
    right.rest = before ++ fork.last :: fork.theirs
  built : right.built = left.built
  parents : right.parents = left.parents
  errors : right.errors = left.errors
  length : right.sourceLength = fork.theirLength

/--
A rule that, where a guard holds, keeps two runs parallel that come up to the parting behind it.
-/
structure Local
    (bound : Nat)
    (guard : Cursor → Prop)
    (rule : Rule) :
    Prop where
  takes : ∀ cursor, guard cursor → (rule cursor).rest <:+ cursor.rest
  keeps :
    ∀ {left right}, fork.Parallel left right → left.remaining < bound → guard left →
      guard right → fork.Meets (rule left) (rule right) → fork.Parallel (rule left) (rule right)

/-- A turn that keeps two runs parallel in the same way. -/
structure LocalTurn
    (bound : Nat)
    (guard : Cursor → Prop)
    (turn : Cursor → Turn σ) :
    Prop where
  takes : ∀ cursor, guard cursor → (turn cursor).cursor.rest <:+ cursor.rest
  keeps :
    ∀ {base left right}, fork.Parallel left right → left.remaining < bound → guard left →
      guard right → fork.Meets (turn left).cursor (turn right).cursor →
      Turn.Related (fun _ left right => fork.Parallel left right) base (turn left) (turn right)

variable {fork}

/-- Runs that come up to the parting have been in front of it before. -/
theorem Meets.before
    {left right leftBehind rightBehind : Cursor}
    (meets : fork.Meets leftBehind rightBehind)
    (suffixLeft : leftBehind.rest <:+ left.rest)
    (suffixRight : rightBehind.rest <:+ right.rest) :
    fork.Meets left right :=
  ⟨meets.1.trans suffixLeft, meets.2.imp_right fun reaches => reaches.trans suffixRight⟩

/-! ## Looking ahead -/

/-- A token ahead is the same both ways if it is not behind the last one that the ways share. -/
theorem ahead_append
    {index : Nat} :
    ∀ {before : List Token},
      (∀ nearer < index,
        (ahead nearer (before ++ fork.last :: fork.ours)).head?.map Token.kind ≠
          some fork.last.kind) →
      (ahead index (before ++ fork.last :: fork.ours)).head? =
        (ahead index (before ++ fork.last :: fork.theirs)).head?
  | [], inFront => by
      cases index with
      | zero => simp [ahead, fork.significant]
      | succ index => exact absurd (by simp [ahead, fork.significant]) (inFront 0 index.succ_pos)
  | token :: before, inFront => by
      cases trivia : isTrivia token with
      | true =>
          simp only [List.cons_append, ahead, trivia, ↓reduceIte] at inFront ⊢
          exact ahead_append inFront
      | false =>
          cases index with
          | zero => simp [ahead, trivia]
          | succ index =>
              have later : ∀ nearer < index,
                  (ahead nearer (before ++ fork.last :: fork.ours)).head?.map Token.kind ≠
                    some fork.last.kind := by
                intro nearer less
                simpa [ahead, trivia] using inFront (nearer + 1) (Nat.succ_lt_succ less)
              simpa [ahead, trivia] using ahead_append later

namespace Parallel

variable
  {left right : Cursor}
  (parallel : fork.Parallel left right)

include parallel

/-- A token ahead is seen both ways if no nearer one is like the last one that the ways share. -/
theorem peek
    {index : Nat}
    (inFront : ∀ nearer < index, left.peek? nearer ≠ some fork.last.kind) :
    left.peek? index = right.peek? index := by
  obtain ⟨before, _, ours, theirs⟩ := parallel.rests
  simp only [peek?, ours] at inFront
  simp only [peek?, ours, theirs, ahead_append inFront]

theorem peek_zero : left.peek? 0 = right.peek? 0 :=
  parallel.peek fun _ less => absurd less (Nat.not_lt_zero _)

theorem sees
    (kind : Kind) :
    left.sees kind = right.sees kind := by
  simp only [Cursor.sees, parallel.peek_zero]

theorem seesAny
    (belongs : Kind → Bool) :
    left.seesAny belongs = right.seesAny belongs := by
  simp only [Cursor.seesAny, parallel.peek_zero]

theorem atEnd : left.atEnd = right.atEnd := by
  simp only [Cursor.atEnd, parallel.peek_zero]

theorem passesOver
    (stops : Kind → Bool) :
    left.passesOver stops = right.passesOver stops := by
  simp only [Cursor.passesOver, parallel.atEnd, parallel.seesAny]

/-- The token behind one that is not the last shared one is seen both ways. -/
theorem peek_one
    {kind : Kind}
    (seen : left.sees kind = true)
    (notLast : fork.last.kind ≠ kind) :
    left.peek? 1 = right.peek? 1 := by
  refine parallel.peek fun nearer less => ?_
  obtain rfl : nearer = 0 := Nat.lt_one_iff.mp less
  have peeked : left.peek? 0 = some kind := by simpa [Cursor.sees] using seen
  simpa [peeked] using notLast.symm

/-- The last token that the ways share is still to come. -/
theorem present : left.atEnd = false := by
  obtain ⟨before, _, ours, _⟩ := parallel.rests
  have some : (ahead 0 left.rest) ≠ [] := by
    rw [ahead_zero, ours]
    intro none
    have trivia := List.dropWhile_eq_nil_iff.mp none fork.last (by simp)
    simp [fork.significant] at trivia
  cases ahead : ahead 0 left.rest with
  | nil => exact absurd ahead some
  | cons token rest => simp [Cursor.atEnd, peek?, ahead]

theorem offset : left.offset = right.offset := by
  obtain ⟨before, _, ours, theirs⟩ := parallel.rests
  cases before <;> simp [Cursor.offset, ours, theirs]

theorem mark : left.mark = right.mark := by
  simp only [Cursor.mark, parallel.offset, parallel.built]

theorem faultSpan : left.faultSpan = right.faultSpan := by
  obtain ⟨before, _, ours, theirs⟩ := parallel.rests
  have same : (ahead 0 left.rest).head? = (ahead 0 right.rest).head? := by
    rw [ours, theirs]
    exact ahead_append fun _ less => absurd less (Nat.not_lt_zero _)
  have present := parallel.present
  simp only [Cursor.atEnd, peek?] at present
  unfold Cursor.faultSpan
  cases oursAhead : ahead 0 left.rest with
  | nil => simp [oursAhead] at present
  | cons token rest =>
      rw [oursAhead, List.head?_cons] at same
      obtain ⟨later, theirsAhead⟩ := List.head?_eq_some_iff.mp same.symm
      rw [theirsAhead]

theorem report
    (fault : SyntaxFault) :
    fork.Parallel (left.report fault) (right.report fault) where
  rests := parallel.rests
  built := parallel.built
  parents := parallel.parents
  errors := by simp only [Cursor.report, parallel.errors, parallel.faultSpan]
  length := parallel.length

theorem skipTrivia : fork.Parallel left.skipTrivia right.skipTrivia := by
  obtain ⟨before, suffix, ours, theirs⟩ := parallel.rests
  have drops (behind : List Token) :
      (before ++ fork.last :: behind).dropWhile isTrivia =
        before.dropWhile isTrivia ++ fork.last :: behind := by
    rw [List.dropWhile_append]
    split
    · next none => simp [List.isEmpty_iff.mp none, fork.significant]
    · rfl
  have takes (behind : List Token) :
      (before ++ fork.last :: behind).takeWhile isTrivia = before.takeWhile isTrivia := by
    rw [List.takeWhile_append]
    split
    · next all =>
        have whole := (List.takeWhile_prefix (l := before) isTrivia).eq_of_length all
        simp [fork.significant, whole]
    · rfl
  refine
    { rests := ⟨before.dropWhile isTrivia, (List.dropWhile_suffix _).trans suffix, ?_, ?_⟩
      built := ?_
      parents := parallel.parents
      errors := parallel.errors
      length := parallel.length }
  · simp only [Cursor.skipTrivia, ours, drops]
  · simp only [Cursor.skipTrivia, theirs, drops]
  · simp only [Cursor.skipTrivia, ours, theirs, takes, parallel.built]

theorem bump
    (reaches : fork.Reaches left.bump) :
    fork.Parallel left.bump right.bump := by
  obtain skipped := parallel.skipTrivia
  obtain ⟨before, suffix, ours, theirs⟩ := skipped.rests
  cases before with
  | nil =>
      -- The run would have gone past the last shared token.
      have behind : left.bump.rest = fork.ours := by simp [Cursor.bump, ours]
      have long := reaches.length_le
      rw [behind] at long
      exact absurd long (Nat.not_succ_le_self _)
  | cons token before =>
      refine
        { rests := ⟨before, (List.suffix_cons _ _).trans suffix, ?_, ?_⟩
          built := ?_
          parents := ?_
          errors := ?_
          length := ?_ } <;> simp only [Cursor.bump, ours, theirs, List.cons_append]
      · rw [skipped.built]
      · exact skipped.parents
      · exact skipped.errors
      · exact skipped.length

theorem openAt
    (mark : Mark)
    (kind : Kind) :
    fork.Parallel (left.openAt mark kind) (right.openAt mark kind) where
  rests := parallel.rests
  built := parallel.built
  parents := by simp only [Cursor.openAt, parallel.parents]
  errors := parallel.errors
  length := parallel.length

theorem openNode
    (kind : Kind) :
    fork.Parallel (left.openNode kind) (right.openNode kind) := by
  have skipped := parallel.skipTrivia
  simp only [Cursor.openNode, ← skipped.mark]
  exact skipped.openAt _ _

theorem closeNode : fork.Parallel left.closeNode right.closeNode := by
  have offset := parallel.offset
  unfold Cursor.closeNode
  rw [parallel.parents]
  split
  · exact parallel
  · exact
      { rests := parallel.rests
        built := by simp only [parallel.built, offset]
        parents := rfl
        errors := parallel.errors
        length := parallel.length }

end Parallel

/-! ## Putting local rules together -/

/-- Closing a node takes no token. -/
theorem Meets.ofClosed
    {left right : Cursor}
    (meets : fork.Meets left.closeNode right.closeNode) :
    fork.Meets left right :=
  meets.before (by simp [rest_closeNode]) (by simp [rest_closeNode])

/-- The guard that holds everywhere. -/
abbrev anywhere
    (_ : Cursor) :
    Prop :=
  True

namespace Local

variable
  {bound : Nat}
  {guard : Cursor → Prop}
  {f g : Rule}

/-- Two runs that come up to the parting behind a rule do so in front of it. -/
theorem before
    (isLocal : fork.Local bound guard f)
    {left right : Cursor}
    (guarded : guard left)
    (guardedRight : guard right)
    (meets : fork.Meets (f left) (f right)) :
    fork.Meets left right :=
  meets.before (isLocal.takes left guarded) (isLocal.takes right guardedRight)

theorem remaining_le
    (isLocal : fork.Local bound guard f)
    {cursor : Cursor}
    (guarded : guard cursor) :
    (f cursor).remaining ≤ cursor.remaining :=
  (isLocal.takes cursor guarded).length_le

/-- A rule that does the same as a local one where the guard holds. -/
theorem congr
    (same : ∀ cursor, guard cursor → f cursor = g cursor)
    (isLocal : fork.Local bound guard g) :
    fork.Local bound guard f where
  takes cursor guarded := by
    rw [same cursor guarded]
    exact isLocal.takes cursor guarded
  keeps {left right} parallel fewer guarded guardedRight meets := by
    rw [same left guarded, same right guardedRight] at meets ⊢
    exact isLocal.keeps parallel fewer guarded guardedRight meets

theorem guarded
    (isLocal : fork.Local bound anywhere f) :
    fork.Local bound guard f where
  takes cursor _ := isLocal.takes cursor trivial
  keeps parallel fewer _ _ := isLocal.keeps parallel fewer trivial trivial

theorem mono
    {smaller : Nat}
    (isLocal : fork.Local bound guard f)
    (fewer : smaller ≤ bound) :
    fork.Local smaller guard f where
  takes := isLocal.takes
  keeps parallel less := isLocal.keeps parallel (Nat.lt_of_lt_of_le less fewer)

/-- A rule that is local whatever the next significant token is. -/
theorem byPeek
    (each : ∀ kind, fork.Local bound (fun cursor => guard cursor ∧ cursor.peek? 0 = kind) f) :
    fork.Local bound guard f where
  takes cursor guarded := (each _).takes cursor ⟨guarded, rfl⟩
  keeps parallel fewer guarded guardedRight meets :=
    (each _).keeps parallel fewer ⟨guarded, rfl⟩ ⟨guardedRight, parallel.peek_zero.symm⟩ meets

protected theorem id : fork.Local bound guard fun cursor => cursor where
  takes _ _ := List.suffix_rfl
  keeps parallel _ _ _ _ := parallel

theorem comp
    (first : fork.Local bound guard f)
    (second : fork.Local bound anywhere g)
    {rule : Rule}
    (both : ∀ cursor, rule cursor = g (f cursor)) :
    fork.Local bound guard rule where
  takes cursor guarded := by
    rw [both]
    exact (second.takes _ trivial).trans (first.takes cursor guarded)
  keeps parallel fewer guarded guardedRight meets := by
    rw [both, both] at meets ⊢
    exact second.keeps
      (first.keeps parallel fewer guarded guardedRight (second.before trivial trivial meets))
      (Nat.lt_of_le_of_lt (first.remaining_le guarded) fewer) trivial trivial meets

/-- A choice that two runs make alike, given that they come up to the parting behind it. -/
theorem iteMeeting
    (condition : Cursor → Bool)
    (same : ∀ {left right}, fork.Parallel left right → guard left →
      fork.Meets (if condition left then f left else g left)
        (if condition right then f right else g right) →
      condition left = condition right)
    (yes : fork.Local bound (fun cursor => guard cursor ∧ condition cursor = true) f)
    (no : fork.Local bound (fun cursor => guard cursor ∧ condition cursor = false) g) :
    fork.Local bound guard fun cursor => if condition cursor then f cursor else g cursor where
  takes cursor guarded := by
    cases holds : condition cursor with
    | true => exact yes.takes cursor ⟨guarded, holds⟩
    | false => exact no.takes cursor ⟨guarded, holds⟩
  keeps {left right} parallel fewer guarded guardedRight meets := by
    have alike := same parallel guarded meets
    cases holds : condition left with
    | true =>
        rw [holds] at alike
        simp only [holds, ← alike, ↓reduceIte] at meets ⊢
        exact yes.keeps parallel fewer ⟨guarded, holds⟩ ⟨guardedRight, alike.symm⟩ meets
    | false =>
        rw [holds] at alike
        simp only [holds, ← alike, Bool.false_eq_true, ↓reduceIte] at meets ⊢
        exact no.keeps parallel fewer ⟨guarded, holds⟩ ⟨guardedRight, alike.symm⟩ meets

theorem ite
    (condition : Cursor → Bool)
    (same : ∀ {left right}, fork.Parallel left right → guard left →
      condition left = condition right)
    (yes : fork.Local bound (fun cursor => guard cursor ∧ condition cursor = true) f)
    (no : fork.Local bound (fun cursor => guard cursor ∧ condition cursor = false) g) :
    fork.Local bound guard fun cursor => if condition cursor then f cursor else g cursor :=
  .iteMeeting condition (fun parallel guarded _ => same parallel guarded) yes no

theorem report
    (fault : SyntaxFault) :
    fork.Local bound guard (Cursor.report · fault) where
  takes _ _ := List.suffix_rfl
  keeps parallel _ _ _ _ := parallel.report fault

theorem bump : fork.Local bound guard Cursor.bump where
  takes cursor _ := suffix_bump cursor
  keeps parallel _ _ _ meets := parallel.bump meets.1

/-- Behind a token there are fewer to come. -/
theorem behindBump
    (behind : fork.Local bound anywhere f)
    {rule : Rule}
    (both : ∀ cursor, rule cursor = f cursor.bump) :
    fork.Local (bound + 1) guard rule where
  takes cursor _ := by
    rw [both]
    exact (behind.takes _ trivial).trans (suffix_bump cursor)
  keeps parallel fewer _ _ meets := by
    have taken := remaining_bump_lt parallel.present
    rw [both, both] at meets ⊢
    exact behind.keeps (parallel.bump (behind.before trivial trivial meets).1) (by omega) trivial
      trivial meets

theorem eat
    (kind : Kind) :
    fork.Local bound guard (Cursor.eat kind) :=
  .ite _ (fun parallel _ => parallel.sees kind) .bump .id

theorem expect
    (kind : Kind)
    (fault : SyntaxFault) :
    fork.Local bound guard (Cursor.expect kind fault) :=
  .ite _ (fun parallel _ => parallel.sees kind) .bump (.report fault)

theorem node
    (kind : Kind)
    (inside : fork.Local bound anywhere f) :
    fork.Local bound guard (Cursor.node kind f) where
  takes cursor _ := by
    rw [Cursor.node, rest_closeNode]
    exact (inside.takes _ trivial).trans (List.dropWhile_suffix _)
  keeps {left right} parallel fewer _ _ meets :=
    (inside.keeps (parallel.openNode kind)
      (Nat.lt_of_le_of_lt (remaining_openNode_le left kind) fewer) trivial trivial
      meets.ofClosed).closeNode

end Local

/-! ## Turns and loops -/

namespace LocalTurn

variable
  {bound : Nat}
  {guard : Cursor → Prop}
  {f : Rule}
  {turn other : Cursor → Turn σ}

theorem done
    (state : σ)
    (takes : fork.Local bound guard f) :
    fork.LocalTurn bound guard fun cursor => Turn.done state (f cursor) where
  takes := takes.takes
  keeps parallel fewer guarded guardedRight meets :=
    .done (takes.keeps parallel fewer guarded guardedRight meets)

theorem again
    (state : σ)
    (takes : fork.Local bound guard f) :
    fork.LocalTurn bound guard fun cursor => Turn.again state (f cursor) where
  takes := takes.takes
  keeps parallel fewer guarded guardedRight meets :=
    .again (takes.keeps parallel fewer guarded guardedRight meets)

/-- A turn that does the same as a local one where the guard holds. -/
theorem congr
    (same : ∀ cursor, guard cursor → turn cursor = other cursor)
    (isLocal : fork.LocalTurn bound guard other) :
    fork.LocalTurn bound guard turn where
  takes cursor guarded := by
    rw [same cursor guarded]
    exact isLocal.takes cursor guarded
  keeps {_ left right} parallel fewer guarded guardedRight meets := by
    rw [same left guarded, same right guardedRight] at meets ⊢
    exact isLocal.keeps parallel fewer guarded guardedRight meets

/-- A turn that is local whatever the next significant token is. -/
theorem byPeek
    (each : ∀ kind,
      fork.LocalTurn bound (fun cursor => guard cursor ∧ cursor.peek? 0 = kind) turn) :
    fork.LocalTurn bound guard turn where
  takes cursor guarded := (each _).takes cursor ⟨guarded, rfl⟩
  keeps parallel fewer guarded guardedRight meets :=
    (each _).keeps parallel fewer ⟨guarded, rfl⟩ ⟨guardedRight, parallel.peek_zero.symm⟩ meets

theorem comp
    (first : fork.Local bound guard f)
    (second : fork.LocalTurn bound anywhere turn)
    (both : ∀ cursor, other cursor = turn (f cursor)) :
    fork.LocalTurn bound guard other where
  takes cursor guarded := by
    rw [both]
    exact (second.takes _ trivial).trans (first.takes cursor guarded)
  keeps parallel fewer guarded guardedRight meets := by
    rw [both, both] at meets ⊢
    exact second.keeps
      (first.keeps parallel fewer guarded guardedRight
        (meets.before (second.takes _ trivial) (second.takes _ trivial)))
      (Nat.lt_of_le_of_lt (first.remaining_le guarded) fewer) trivial trivial meets

theorem ite
    (condition : Cursor → Bool)
    (same : ∀ {left right}, fork.Parallel left right → condition left = condition right)
    (yes : fork.LocalTurn bound anywhere turn)
    (no : fork.LocalTurn bound anywhere other) :
    fork.LocalTurn bound guard fun cursor =>
      if condition cursor then turn cursor else other cursor where
  takes cursor _ := by
    split
    · exact yes.takes cursor trivial
    · exact no.takes cursor trivial
  keeps {_ left right} parallel fewer _ _ meets := by
    rw [← same parallel] at meets ⊢
    cases holds : condition left with
    | true =>
        simp only [holds, ↓reduceIte] at meets ⊢
        exact yes.keeps parallel fewer trivial trivial meets
    | false =>
        simp only [holds, Bool.false_eq_true, ↓reduceIte] at meets ⊢
        exact no.keeps parallel fewer trivial trivial meets

end LocalTurn

section Loops

variable
  {bound : Nat}
  {guard : Cursor → Prop}
  {turn : σ → Cursor → Turn σ}

/-- A loop of turns that put no token back puts none back. -/
theorem suffix_loops
    (takes : ∀ state cursor, (turn state cursor).cursor.rest <:+ cursor.rest)
    {state : σ}
    {cursor : Cursor}
    {result : σ × Cursor}
    (loops : Loops turn state cursor result) :
    result.2.rest <:+ cursor.rest := by
  induction loops with
  | @done state _ cursor _ ends =>
      have taken := takes state cursor
      rwa [ends] at taken
  | @again state _ cursor _ _ again _ inductionHypothesis =>
      have taken := takes state cursor
      rw [again] at taken
      exact inductionHypothesis.trans taken

/-- What a loop leaves is left behind its first turn. -/
theorem suffix_turn
    (takes : ∀ state cursor, (turn state cursor).cursor.rest <:+ cursor.rest)
    {state : σ}
    {cursor : Cursor}
    {result : σ × Cursor}
    (loops : Loops turn state cursor result) :
    result.2.rest <:+ (turn state cursor).cursor.rest := by
  cases loops with
  | done ends =>
      rw [ends]
      exact List.suffix_rfl
  | again again later =>
      rw [again]
      exact suffix_loops takes later

/-- Loops of local turns stay parallel. -/
theorem parallel_loops
    (each : ∀ state, fork.LocalTurn bound anywhere (turn state))
    {state : σ}
    {left : Cursor}
    {result : σ × Cursor}
    (loops : Loops turn state left result) :
    ∀ {right : Cursor} {other : σ × Cursor}, Loops turn state right other →
      fork.Parallel left right → left.remaining < bound → fork.Meets result.2 other.2 →
      other.1 = result.1 ∧ fork.Parallel result.2 other.2 := by
  have takes (state : σ) (cursor : Cursor) := (each state).takes cursor trivial
  have steps {state : σ} {left right : Cursor} {result other : σ × Cursor}
      (loops : Loops turn state left result) (others : Loops turn state right other)
      (parallel : fork.Parallel left right) (fewer : left.remaining < bound)
      (meets : fork.Meets result.2 other.2) :=
    @LocalTurn.keeps _ _ _ _ _ (each state) left left right parallel fewer trivial trivial
      (meets.before (suffix_turn takes loops) (suffix_turn takes others))
  induction loops with
  | done ends =>
      intro right other others parallel fewer meets
      have step := steps (.done ends) others parallel fewer meets
      rw [ends] at step
      generalize stepped : turn _ right = taken at step
      cases step with
      | done keeps =>
          cases others.unique (.done stepped)
          exact ⟨rfl, keeps⟩
  | @again state _ left _ _ again later inductionHypothesis =>
      intro right other others parallel fewer meets
      have step := steps (.again again later) others parallel fewer meets
      have taken := (takes state left).length_le
      rw [again] at step taken
      generalize stepped : turn _ right = outcome at step
      cases step with
      | again keeps =>
          cases others with
          | done ends => cases stepped.symm.trans ends
          | again alsoAgain alsoLater =>
              cases stepped.symm.trans alsoAgain
              exact inductionHypothesis alsoLater keeps (Nat.lt_of_le_of_lt taken fewer) meets

section

variable
  (ends : Ends turn)
  (each : ∀ state, fork.LocalTurn bound anywhere (turn state))

include ends each

theorem Local.loop
    (state : σ) :
    fork.Local bound guard fun cursor => (Cursor.loop turn state cursor).2 where
  takes cursor _ :=
    suffix_loops (fun state cursor => (each state).takes cursor trivial) (ends state cursor)
  keeps {left right} parallel fewer _ _ meets :=
    (parallel_loops each (ends state left) (ends state right) parallel fewer meets).2

/-- A node that is opened behind a loop, where the loop began. -/
theorem Local.wrapped
    {state : σ}
    (kind : σ → Kind)
    {rule : Rule}
    (both : ∀ cursor, rule cursor =
      ((Cursor.loop turn state cursor.skipTrivia).2.openAt cursor.skipTrivia.mark
        (kind (Cursor.loop turn state cursor.skipTrivia).1)).closeNode) :
    fork.Local bound guard rule where
  takes cursor _ := by
    rw [both, rest_closeNode]
    exact (suffix_loops (fun state cursor => (each state).takes cursor trivial)
      (ends state cursor.skipTrivia)).trans (List.dropWhile_suffix _)
  keeps {left right} parallel fewer _ _ meets := by
    rw [both, both] at meets ⊢
    have skipped := parallel.skipTrivia
    obtain ⟨sameState, behind⟩ := parallel_loops each (ends state left.skipTrivia)
      (ends state right.skipTrivia) skipped
      (Nat.lt_of_le_of_lt (remaining_skipTrivia_le left) fewer) meets.ofClosed
    rw [sameState, ← skipped.mark]
    exact (behind.openAt _ _).closeNode

end

theorem Local.repeatWhile
    {condition : Cursor → Bool}
    {f : Rule}
    (ends : Ends (whileTurn condition f))
    (same : ∀ {left right}, fork.Parallel left right → condition left = condition right)
    (takes : fork.Local bound anywhere f) :
    fork.Local bound guard (Cursor.repeatWhile condition f) :=
  .loop ends (fun _ => .ite _ same (.again () takes) (.done () .id)) ()

theorem Local.recover
    (fault : SyntaxFault)
    (stops : Kind → Bool) :
    fork.Local bound guard (Cursor.recover fault stops) :=
  .comp (.report fault)
    (.node _ <| .ite _ (fun parallel _ => parallel.seesAny stops) .bump <|
      .repeatWhile (Grammar.terminates.recovery stops) (fun parallel => parallel.passesOver stops)
        .bump)
    fun _ => rfl

theorem LocalTurn.balanced
    (opening closing : Kind)
    (depth : Nat) :
    fork.LocalTurn bound guard (balancedTurn opening closing depth) := by
  refine .byPeek fun kind => ?_
  cases kind with
  | none =>
      exact .congr (fun _ seen => by simp only [balancedTurn, seen])
        (.done depth (.report (.closing opening)))
  | some kind =>
      by_cases opens : kind = opening
      · exact .congr (fun _ seen => by simp only [balancedTurn, seen, opens, if_true])
          (.again (depth + 1) .bump)
      · have turns {cursor : Cursor} (seen : cursor.peek? 0 = some kind) :
            balancedTurn opening closing depth cursor =
              if kind = closing then
                if depth ≤ 1 then .done 0 cursor.bump else .again (depth - 1) cursor.bump
              else
                .again depth cursor.bump := by
          simp only [balancedTurn, seen, if_neg opens]
        by_cases closes : kind = closing
        · by_cases last : depth ≤ 1
          · exact .congr (fun _ seen => by simp only [turns, seen, if_pos closes, if_pos last])
              (.done 0 .bump)
          · exact .congr (fun _ seen => by simp only [turns, seen, if_pos closes, if_neg last])
              (.again (depth - 1) .bump)
        · exact .congr (fun _ seen => by simp only [turns, seen, if_neg closes])
            (.again depth .bump)

theorem Local.bumpBalanced : fork.Local bound guard Cursor.bumpBalanced := by
  refine .byPeek fun kind => ?_
  cases kind with
  | none => exact .congr (fun _ seen => by simp only [Cursor.bumpBalanced, seen]) .bump
  | some opening =>
      cases closes : opening.closing? with
      | none =>
          exact .congr (fun _ seen => by simp only [Cursor.bumpBalanced, seen, closes]) .bump
      | some closing =>
          exact .congr (fun _ seen => by simp only [Cursor.bumpBalanced, seen, closes])
            (.loop (Grammar.terminates.balanced opening closing) (.balanced opening closing) 0)

end Loops

end Fork

end Implementers.Syntax
