import Implementers.Proofs.Syntax.Displacement
import Implementers.Proofs.Syntax.Passing

namespace Implementers.Syntax

/-!
# Runs over source text that stands elsewhere

Two runs that meet the same tokens, the other one at shifted offsets, look ahead alike and take the
same steps.  What they build is read alike up to the shift, whatever each of them has built before,
and they find the same faults.
-/

open Cursor

namespace Cursor

/-! ## Looking ahead -/

section Ahead

variable
  (shift : Nat → Nat)
  (tokens : List Token)

theorem isTrivia_shifted :
    isTrivia ∘ Token.shifted shift = isTrivia :=
  rfl

theorem ahead_shifted
    (index : Nat) :
    ahead index (tokens.map (Token.shifted shift)) =
      (ahead index tokens).map (Token.shifted shift) := by
  induction tokens generalizing index with
  | nil => cases index <;> rfl
  | cons token rest inductionHypothesis =>
      have sameTrivia : isTrivia (token.shifted shift) = isTrivia token := rfl
      cases trivia : isTrivia token with
      | true => simpa [ahead, sameTrivia, trivia] using inductionHypothesis index
      | false =>
          cases index with
          | zero => simp [ahead, sameTrivia, trivia]
          | succ index => simpa [ahead, sameTrivia, trivia] using inductionHypothesis index

theorem firstKind?_shifted :
    firstKind? (tokens.map (Token.shifted shift)) = firstKind? tokens := by
  rw [firstKind?, ahead_shifted, List.head?_map, Option.map_map]
  rfl

theorem behindClosing?_shifted
    (opening closing : Kind)
    (depth : Nat) :
    behindClosing? opening closing depth (tokens.map (Token.shifted shift)) =
      (behindClosing? opening closing depth tokens).map (List.map (Token.shifted shift)) := by
  induction tokens generalizing depth with
  | nil => rfl
  | cons token rest inductionHypothesis =>
      simp only [List.map_cons, behindClosing?, Token.shifted_kind, inductionHypothesis]
      split_ifs <;> rfl

end Ahead

/-! ## Steps -/

/-- A node that is open in two runs, in the other one at a shifted offset. -/
structure SameOpen
    (shift : Nat → Nat)
    (count countRight : Nat)
    (ours theirs : OpenNode) :
    Prop where
  kind : theirs.kind = ours.kind
  place :
    ours.kind ≠ .sourceFile →
      theirs.mark.offset = shift ours.mark.offset ∧
        ∃ more, ours.mark.count = count + more ∧ theirs.mark.count = countRight + more

/--
Two runs that meet the same tokens at shifted offsets.  What they had built before may differ; what
they build is read alike.
-/
structure Abreast
    (shift : Nat → Nat)
    (front frontRight : List Tree)
    (base left right : Cursor) :
    Prop where
  rest : right.rest = left.rest.map (Token.shifted shift)
  rigid : ∀ token ∈ left.rest, token.Rigid shift
  length : right.sourceLength = shift left.sourceLength
  faults : right.errors.toList.map SyntaxError.fault = left.errors.toList.map SyntaxError.fault
  parents : left.parents = base.parents
  nodes :
    List.Forall₂ (SameOpen shift front.length frontRight.length) left.parents right.parents
  built :
    ∃ trees treesRight : List Tree,
      left.built.toList = front ++ trees ∧ right.built.toList = frontRight ++ treesRight ∧
        treesRight.map Tree.part = (trees.map Tree.part).map (Part.shifted shift) ∧
        Part.Rigid shift (trees.map Tree.part)

namespace Abreast

variable
  {shift : Nat → Nat}
  {front frontRight : List Tree}
  {base left right : Cursor}

section

variable (abreast : Abreast shift front frontRight base left right)

include abreast

theorem peek
    (index : Nat) :
    left.peek? index = right.peek? index := by
  rw [peek?, peek?, abreast.rest, ahead_shifted, List.head?_map, Option.map_map]
  rfl

theorem identThenArrayType : left.identThenArrayType = right.identThenArrayType := by
  unfold Cursor.identThenArrayType
  rw [abreast.rest, ahead_shifted]
  cases ahead 1 left.rest with
  | nil => rfl
  | cons bracket behind =>
      simp only [List.map_cons, Token.shifted_kind, firstKind?_shifted, behindClosing?_shifted]
      cases behindClosing? .leftBracket .rightBracket 1 behind with
      | none => rfl
      | some after =>
          simp only [Option.map_some, firstKind?_shifted]
          rfl

theorem offset : right.offset = shift left.offset := by
  unfold Cursor.offset
  rw [abreast.rest]
  cases left.rest with
  | nil => exact abreast.length
  | cons token rest => rfl

theorem report
    (fault : SyntaxFault) :
    Abreast shift front frontRight base (left.report fault) (right.report fault) :=
  { abreast with
    faults := by simp only [Cursor.report, Array.toList_push, List.map_append, abreast.faults]; rfl }

/-- Bare tokens are taken by both runs. -/
theorem past
    {tokens rest : List Token}
    (reads : left.rest = tokens ++ rest) :
    Abreast shift front frontRight base (left.past tokens rest)
      (right.past (tokens.map (Token.shifted shift)) (rest.map (Token.shifted shift))) := by
  obtain ⟨trees, treesRight, built, builtRight, alike, rigid⟩ := abreast.built
  have whole := abreast.rigid
  rw [reads, List.forall_mem_append] at whole
  refine
    { rest := rfl
      rigid := whole.2
      length := abreast.length
      faults := abreast.faults
      parents := abreast.parents
      nodes := abreast.nodes
      built := ⟨trees ++ tokens.map .leaf,
        treesRight ++ (tokens.map (Token.shifted shift)).map .leaf, ?_, ?_, ?_, ?_⟩ }
  · simp [Cursor.past, built]
  · simp [Cursor.past, builtRight]
  · simp [alike, Tree.part, Part.shifted]
  · intro token member
    rw [List.map_append, List.mem_append] at member
    rcases member with before | taken
    · exact rigid token before
    · obtain ⟨_, isLeaf, isToken⟩ := List.mem_map.mp taken
      obtain ⟨leaf, isTaken, rfl⟩ := List.mem_map.mp isLeaf
      cases isToken
      exact whole.1 _ isTaken

theorem skipTrivia :
    Abreast shift front frontRight base left.skipTrivia right.skipTrivia := by
  have parts : left.rest = left.rest.takeWhile isTrivia ++ left.rest.dropWhile isTrivia :=
    List.takeWhile_append_dropWhile.symm
  have taken := abreast.past parts
  have whole :
      right.skipTrivia = right.past (right.rest.takeWhile isTrivia) (right.rest.dropWhile isTrivia) :=
    rfl
  rw [whole, abreast.rest, List.takeWhile_map, List.dropWhile_map, isTrivia_shifted]
  exact taken

theorem bump : Abreast shift front frontRight base left.bump right.bump := by
  have skipped := abreast.skipTrivia
  have rest := skipped.rest
  cases next : left.skipTrivia.rest with
  | nil =>
      rw [next] at rest
      have none : left.bump = left.skipTrivia := by simp only [Cursor.bump, next]
      have noneRight : right.bump = right.skipTrivia := by simp only [Cursor.bump, rest, List.map_nil]
      rw [none, noneRight]
      exact skipped
  | cons token behind =>
      rw [next] at rest
      rw [bump_eq_past_skipTrivia next, bump_eq_past_skipTrivia rest]
      exact skipped.past next

theorem openAt
    {mark markRight : Mark}
    (offset : markRight.offset = shift mark.offset)
    (count : ∃ more, mark.count = front.length + more ∧ markRight.count = frontRight.length + more)
    (kind : Kind) :
    Abreast shift front frontRight (left.openAt mark kind) (left.openAt mark kind)
      (right.openAt markRight kind) :=
  { abreast with
    parents := rfl
    nodes := .cons ⟨rfl, fun _ => ⟨offset, count⟩⟩ abreast.nodes }

theorem mark :
    right.mark.offset = shift left.mark.offset ∧
      ∃ more, left.mark.count = front.length + more ∧
        right.mark.count = frontRight.length + more := by
  obtain ⟨trees, treesRight, built, builtRight, alike, _⟩ := abreast.built
  refine ⟨abreast.offset, trees.length, ?_, ?_⟩
  · rw [Cursor.mark, ← Array.length_toList, built, List.length_append]
  · have same : treesRight.length = trees.length := by
      simpa using congrArg List.length alike
    rw [Cursor.mark, ← Array.length_toList, builtRight, List.length_append, same]

theorem openNode
    (kind : Kind) :
    Abreast shift front frontRight (left.openNode kind) (left.openNode kind)
      (right.openNode kind) := by
  have skipped := abreast.skipTrivia
  exact skipped.openAt skipped.mark.1 skipped.mark.2 kind

end

/-- The trees built since a node was opened go below it, whatever has been built before. -/
theorem built_closeNode
    {cursor : Cursor}
    {kind : Kind}
    {mark : Mark}
    {outer : List OpenNode}
    {front trees : List Tree}
    {more : Nat}
    (parents : cursor.parents = ⟨kind, mark⟩ :: outer)
    (count : mark.count = front.length + more)
    (built : cursor.built.toList = front ++ trees) :
    cursor.closeNode.built.toList =
      front ++ (trees.take more ++ [.node kind ⟨mark.offset, cursor.offset⟩ (trees.drop more)]) := by
  have children : (cursor.built.extract mark.count).toList = trees.drop more := by
    rw [Array.toList_extract, built, List.extract_eq_take_drop, ← Array.length_toList, built, count,
      List.drop_length_add_append, List.take_of_length_le]
    simp only [List.length_append, List.length_drop]
    omega
  have kept : (cursor.built.take mark.count).toList = front ++ trees.take more := by
    rw [Array.take_eq_extract, Array.toList_extract, built, count, List.extract_eq_take_drop,
      List.drop_zero, Nat.sub_zero, List.take_length_add_append]
  simp only [Cursor.closeNode, parents, Array.toList_push, children, kept, List.append_assoc]

theorem parents_closeNode
    {cursor : Cursor}
    {opened : OpenNode}
    {outer : List OpenNode}
    (parents : cursor.parents = opened :: outer) :
    cursor.closeNode.parents = outer := by
  simp only [Cursor.closeNode, parents]

/-- The innermost open node of both runs is closed. -/
theorem closeNode
    {outerBase : Cursor}
    {kind : Kind}
    {mark : Mark}
    (abreast : Abreast shift front frontRight base left right)
    (isInner : kind ≠ .sourceFile)
    (parents : base.parents = ⟨kind, mark⟩ :: outerBase.parents) :
    Abreast shift front frontRight outerBase left.closeNode right.closeNode := by
  obtain ⟨trees, treesRight, built, builtRight, alike, rigid⟩ := abreast.built
  have nodes := abreast.nodes
  have isOpen := abreast.parents.trans parents
  rw [isOpen] at nodes
  generalize openRight : right.parents = parentsRight at nodes
  cases nodes with
  | @cons _ opened _ outerRight same around =>
      obtain ⟨offset, more, count, countRight⟩ := same.place isInner
      obtain ⟨kindRight, markRight⟩ := opened
      obtain rfl : kindRight = kind := same.kind
      have closed := built_closeNode isOpen count built
      have closedRight := built_closeNode openRight countRight builtRight
      have unchanged (cursor : Cursor) :
          cursor.closeNode.errors = cursor.errors ∧
            cursor.closeNode.sourceLength = cursor.sourceLength := by
        unfold Cursor.closeNode
        split <;> exact ⟨rfl, rfl⟩
      have inside : Part.Rigid shift ((trees.map Tree.part).drop more) :=
        fun token member => rigid token (List.drop_subset _ _ member)
      refine
        { rest := by rw [rest_closeNode, rest_closeNode, abreast.rest]
          rigid := by rw [rest_closeNode]; exact abreast.rigid
          length := by rw [(unchanged _).2, (unchanged _).2, abreast.length]
          faults := by rw [(unchanged _).1, (unchanged _).1, abreast.faults]
          parents := parents_closeNode isOpen
          nodes := by rwa [parents_closeNode isOpen, parents_closeNode openRight]
          built := ⟨_, _, closed, closedRight, ?_, ?_⟩ }
      · simp only [List.map_append, List.map_take, List.map_cons, List.map_nil, alike, Tree.part,
          Tree.forestParts_eq_map, List.map_drop]
        have span : (⟨markRight.offset, right.offset⟩ : Span) =
            Span.shifted shift ⟨mark.offset, left.offset⟩ := by
          rw [Span.shifted, offset, abreast.offset]
        rw [span, ← List.map_drop, Read.node_shifted inside]
      · intro token member
        obtain ⟨tree, isTree, isToken⟩ := List.mem_map.mp member
        rcases List.mem_append.mp isTree with taken | isNode
        · exact rigid token
            (isToken ▸ List.mem_map_of_mem (List.take_subset more trees taken))
        · obtain rfl := List.mem_singleton.mp isNode
          exact absurd isToken (Tree.part_node_ne_token _ _ _)

/-- Runs that are abreast stay abreast when they apply the same step. -/
theorem compatible : Compatible (Abreast shift front frontRight) where
  peek abreast := abreast.peek
  arrayType abreast := abreast.identThenArrayType
  tokens abreast := by rw [abreast.rest, List.length_map]
  report abreast := abreast.report
  bump abreast := abreast.bump
  skipTrivia abreast := abreast.skipTrivia
  restart abreast := { abreast with parents := rfl }
  opened abreast := abreast.openNode
  closed isInner abreast inside :=
    inside.closeNode isInner (by rw [← abreast.parents]; rfl)
  wrapped isInner abreast inside :=
    have opened := inside.openAt abreast.mark.1 abreast.mark.2 _
    opened.closeNode isInner (by rw [← abreast.parents]; exact congrArg _ inside.parents)

end Abreast

end Cursor

end Implementers.Syntax
