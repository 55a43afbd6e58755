import Implementers.Proofs.Syntax.Tokens
import Implementers.Proofs.Syntax.Termination
import Implementers.Syntax.Parse

namespace Implementers.Syntax

/-!
# Parsing loses nothing

Whatever a rule of the grammar does, the trees that it builds hold exactly the tokens that it takes,
every node covers exactly the source of its tokens, and the nodes that it opens are closed again.
At the end of a text all tokens are taken and the root alone is left to close.
-/

namespace Tree

@[simp] theorem forestTokens_append
    (front back : List Tree) :
    forestTokens (front ++ back) = forestTokens front ++ forestTokens back := by
  induction front with
  | nil => rfl
  | cons tree rest inductionHypothesis => simp [forestTokens, inductionHypothesis]

@[simp] theorem forestTokens_leaves
    (tokens : List Token) :
    forestTokens (tokens.map .leaf) = tokens := by
  induction tokens with
  | nil => rfl
  | cons token rest inductionHypothesis =>
      simp [forestTokens, Tree.tokens, inductionHypothesis]

mutual

/--
Whether a tree is part of a source file from an offset on: its tokens and nodes begin where the ones
before them stop, its nodes cover the source of their tokens, and none of them is a root.
-/
def Inside
    (start : Nat) :
    Tree → Prop
  | .leaf token => token.offset = start
  | .node kind span children =>
      kind ≠ .sourceFile ∧ span = ⟨start, start + Token.width (forestTokens children)⟩ ∧
        ForestInside start children

/-- Whether neighbouring trees are part of a source file from an offset on. -/
def ForestInside
    (start : Nat) :
    List Tree → Prop
  | [] => True
  | tree :: rest => tree.Inside start ∧ ForestInside (start + Token.width tree.tokens) rest

end

theorem forestInside_append
    {start : Nat}
    {front back : List Tree} :
    ForestInside start (front ++ back) ↔
      ForestInside start front ∧ ForestInside (start + Token.width (forestTokens front)) back := by
  induction front generalizing start with
  | nil => simp [ForestInside, forestTokens]
  | cons tree rest inductionHypothesis =>
      simp [ForestInside, forestTokens, inductionHypothesis, and_assoc, Nat.add_assoc]

theorem forestInside_leaves
    {start : Nat}
    {tokens : List Token}
    (contiguous : Token.Contiguous start tokens) :
    ForestInside start (tokens.map .leaf) := by
  induction tokens generalizing start with
  | nil => trivial
  | cons token rest inductionHypothesis =>
      obtain ⟨rfl, later⟩ := contiguous
      refine ⟨rfl, ?_⟩
      simpa [Tree.tokens, Token.stop] using inductionHypothesis later

end Tree

namespace Cursor

open Syntax.Tree

/-- Whether the tokens to come stand side by side up to the end of the source. -/
def Placed
    (cursor : Cursor) :
    Prop :=
  Token.Contiguous cursor.offset cursor.rest ∧
    cursor.offset + Token.width cursor.rest = cursor.sourceLength

/--
What is built between two cursors holds the tokens taken between them, each where it stands in the
source.
-/
structure Takes
    (base cursor : Cursor) :
    Prop where
  placed : base.Placed
  length : cursor.sourceLength = base.sourceLength
  trees : ∃ trees : List Tree,
    cursor.built.toList = base.built.toList ++ trees ∧
    base.rest = forestTokens trees ++ cursor.rest ∧
    ForestInside base.offset trees

/-- A run from one cursor to another that leaves the same nodes open. -/
structure Advances
    (base cursor : Cursor) :
    Prop extends Takes base cursor where
  parents : cursor.parents = base.parents

/-- Behind the tokens in front the others stand side by side. -/
theorem Placed.behind
    {base cursor : Cursor}
    {taken : List Token}
    (placed : base.Placed)
    (rest : base.rest = taken ++ cursor.rest)
    (length : cursor.sourceLength = base.sourceLength) :
    cursor.offset = base.offset + Token.width taken ∧ cursor.Placed := by
  obtain ⟨contiguous, reaches⟩ := placed
  rw [rest, Token.contiguous_append] at contiguous
  rw [rest, Token.width_append, ← Nat.add_assoc, ← length] at reaches
  have offset : cursor.offset = base.offset + Token.width taken := by
    unfold Cursor.offset
    split
    · next none =>
        rw [none, Token.width_nil, Nat.add_zero] at reaches
        exact reaches.symm
    · next token later some =>
        have first := contiguous.2
        rw [some] at first
        exact first.1
  exact ⟨offset, by rw [offset]; exact contiguous.2, by rw [offset]; exact reaches⟩

/-- The tokens to come behind a run stand side by side up to the end of the source. -/
theorem Advances.behind
    {base cursor : Cursor}
    (advances : Advances base cursor) :
    cursor.Placed := by
  obtain ⟨_, _, rest, _⟩ := advances.trees
  exact (advances.placed.behind rest advances.length).2

theorem Placed.advances_self
    {cursor : Cursor}
    (placed : cursor.Placed) :
    Advances cursor cursor where
  placed := placed
  length := rfl
  parents := rfl
  trees := ⟨[], by simp, by simp [forestTokens], trivial⟩

/-- Runs behind one another are a run. -/
theorem Advances.trans
    {base middle cursor : Cursor}
    (first : Advances base middle)
    (second : Advances middle cursor) :
    Advances base cursor := by
  obtain ⟨front, frontBuilt, frontRest, frontInside⟩ := first.trees
  obtain ⟨back, backBuilt, backRest, backInside⟩ := second.trees
  have offset := (first.placed.behind frontRest first.length).1
  refine
    { placed := first.placed
      length := second.length.trans first.length
      parents := second.parents.trans first.parents
      trees := ⟨front ++ back, ?built, ?rest, ?inside⟩ }
  case built => rw [backBuilt, frontBuilt, List.append_assoc]
  case rest => rw [frontRest, backRest, forestTokens_append, List.append_assoc]
  case inside => exact forestInside_append.mpr ⟨frontInside, offset ▸ backInside⟩

/-- Taking bare tokens is a run. -/
theorem Placed.advances_leaves
    {base cursor : Cursor}
    (placed : base.Placed)
    (length : cursor.sourceLength = base.sourceLength)
    (parents : cursor.parents = base.parents)
    (tokens : List Token)
    (built : cursor.built.toList = base.built.toList ++ tokens.map .leaf)
    (rest : base.rest = tokens ++ cursor.rest) :
    Advances base cursor := by
  have contiguous := placed.1
  rw [rest, Token.contiguous_append] at contiguous
  exact
    { placed, length, parents
      trees := ⟨tokens.map .leaf, built, by simpa using rest, forestInside_leaves contiguous.1⟩ }

theorem Placed.advances_skipTrivia
    {cursor : Cursor}
    (placed : cursor.Placed) :
    Advances cursor cursor.skipTrivia :=
  placed.advances_leaves rfl rfl (cursor.rest.takeWhile isTrivia) (by simp [skipTrivia])
    List.takeWhile_append_dropWhile.symm

theorem Placed.advances_bump
    {cursor : Cursor}
    (placed : cursor.Placed) :
    Advances cursor cursor.bump := by
  have skipped := placed.advances_skipTrivia
  unfold bump
  dsimp only
  split
  · exact skipped
  · next token rest next =>
      exact skipped.trans (skipped.behind.advances_leaves rfl rfl [token] (by simp) next)

/-- The trees built since a node was opened go below it when it is closed. -/
theorem closeNode_eq
    {cursor : Cursor}
    {kind : Kind}
    {mark : Mark}
    {outer : List OpenNode}
    {before : Array Tree}
    {trees : List Tree}
    (parents : cursor.parents = ⟨kind, mark⟩ :: outer)
    (count : mark.count = before.size)
    (built : cursor.built.toList = before.toList ++ trees) :
    cursor.closeNode =
      { cursor with
        built := before.push (.node kind ⟨mark.offset, cursor.offset⟩ trees)
        parents := outer } := by
  have children : (cursor.built.extract mark.count).toList = trees := by
    rw [Array.toList_extract, built, List.extract_eq_take_drop, ← Array.length_toList, built, count]
    simp
  have kept : cursor.built.take mark.count = before := by
    apply Array.toList_inj.mp
    rw [Array.take_eq_extract, Array.toList_extract, built, count, ← Array.length_toList]
    simp
  rw [closeNode, parents]
  simp only [children, kept]

/--
Closing a node puts the trees built since its opening below it, and leaves the nodes around it open.
-/
theorem Takes.advances_closeNode
    {base cursor : Cursor}
    {kind : Kind}
    (takes : Takes base cursor)
    (isInner : kind ≠ .sourceFile)
    (parents : cursor.parents = ⟨kind, base.mark⟩ :: base.parents) :
    Advances base cursor.closeNode := by
  obtain ⟨trees, built, rest, inside⟩ := takes.trees
  have offset := (takes.placed.behind rest takes.length).1
  rw [closeNode_eq parents rfl built]
  refine
    { placed := takes.placed
      length := takes.length
      parents := rfl
      trees := ⟨[.node kind ⟨base.mark.offset, cursor.offset⟩ trees], ?built, ?rest, ?inside⟩ }
  case built => exact Array.toList_push
  case rest => simpa [forestTokens, Tree.tokens] using rest
  case inside => exact ⟨⟨isInner, by rw [offset]; rfl, inside⟩, trivial⟩

/-- Every step of the parser advances. -/
theorem invariant_advances : Invariant Advances where
  report keeps _ := ⟨⟨keeps.placed, keeps.length, keeps.trees⟩, keeps.parents⟩
  bump keeps := keeps.trans keeps.behind.advances_bump
  skipTrivia keeps := keeps.trans keeps.behind.advances_skipTrivia
  restart keeps := keeps.behind.advances_self
  opened keeps _ := Placed.advances_self keeps.behind.advances_skipTrivia.behind
  closed isInner keeps inside :=
    have skipped := keeps.behind.advances_skipTrivia
    (keeps.trans skipped).trans
      (Takes.advances_closeNode ⟨inside.placed, inside.length, inside.trees⟩ isInner inside.parents)
  wrapped isInner keeps inside :=
    keeps.trans (Takes.advances_closeNode ⟨inside.placed, inside.length, inside.trees⟩ isInner
      (congrArg _ inside.parents))

end Cursor

namespace Grammar

open Cursor

/-- Type expressions advance. -/
theorem respects_typeRule_advances : Respects (Alone Advances) typeRule typeRule := by
  rintro base left right ⟨rfl, keeps⟩
  have compatible := invariant_advances.compatible
  exact ⟨rfl, ((respects_typeWithin_self compatible _).alone base left keeps).2⟩

/-- Behind the declarations of a source file no token is left. -/
theorem rest_sourceFile
    (cursor : Cursor) :
    (sourceFile typeRule cursor).rest = [] := by
  refine rest_skipTrivia_eq_nil_iff.mpr ?_
  simpa only [Bool.not_eq_false'] using terminates.declarations.condition_eq_false _

end Grammar

namespace Parse

open Cursor Grammar Syntax.Tree

/-- The depth of type expressions that the parser allows is enough. -/
theorem endOf_eq
    (text : String) :
    endOf text = (sourceFile typeRule (rootOf text)).closeNode := by
  have enough := respects_typeWithin_typeRule (Nat.le_refl ((rootOf text).remaining + 1))
  have same := (respects_sourceFile (compatible_within _) enough).alone (rootOf text) (rootOf text)
    (Nat.lt_succ_self _)
  exact congrArg closeNode same.1

/-- The offset at the beginning of a text. -/
theorem offset_rootOf
    (text : String) :
    (rootOf text).offset = 0 := by
  have tokens : (rootOf text).rest = Token.ofSource text := rfl
  have contiguous := Token.contiguous_ofSource text
  have texts := Token.flatMap_text_ofSource text
  rw [← tokens] at contiguous texts
  unfold Cursor.offset
  split
  · next none =>
      rw [none] at texts
      exact (congrArg Text.byteLength texts).symm
  · next token rest some =>
      rw [some] at contiguous
      exact contiguous.1

theorem placed_rootOf
    (text : String) :
    (rootOf text).Placed := by
  refine ⟨?_, ?_⟩
  · rw [offset_rootOf]
    exact Token.contiguous_ofSource text
  · rw [offset_rootOf, Nat.zero_add]
    exact congrArg Text.byteLength (Token.flatMap_text_ofSource text)

/-- At the end of a text one tree has been built, a source file with all of its tokens. -/
theorem endOf_facts
    (text : String) :
    ∃ children : List Tree,
      (endOf text).built = #[.node .sourceFile ⟨0, Text.byteLength text.toList⟩ children] ∧
        (endOf text).parents = [] ∧
        forestTokens children = Token.ofSource text ∧
        ForestInside 0 children := by
  have advances :=
    ((respects_sourceFile invariant_advances.compatible respects_typeRule_advances).alone
      (rootOf text) (rootOf text) (placed_rootOf text).advances_self).2
  have rest := rest_sourceFile (rootOf text)
  rw [endOf_eq]
  generalize sourceFile typeRule (rootOf text) = done at advances rest ⊢
  obtain ⟨children, built, tokens, inside⟩ := advances.trees
  have atEnd : done.offset = Text.byteLength text.toList := by
    simp only [Cursor.offset, rest]
    exact advances.length
  have begins := offset_rootOf text
  have closes := closeNode_eq advances.parents rfl built
  rw [rest, List.append_nil] at tokens
  refine ⟨children, ?_, ?_, tokens.symm, begins ▸ inside⟩
  · rw [closes, ← atEnd]
    exact congrArg (fun start => #[Tree.node .sourceFile ⟨start, done.offset⟩ children]) begins
  · rw [closes]
    rfl

/--
Lexing and parsing lose nothing and come to an end on every text.  The tokens are not empty, they
are the text side by side, and each stands behind the bytes of those before it.  The parser's
recursion and its loops end by themselves, and behind them all nodes are closed and one tree is
built: a source file whose leaves are the tokens, where every node covers the source of its tokens.
-/
theorem ofText_lossless
    (text : String) :
    (∀ token ∈ Token.ofSource text, token.text ≠ []) ∧
    (Token.ofSource text).flatMap Token.text = text.toList ∧
    (∀ front token back, Token.ofSource text = front ++ token :: back →
      token.offset = Text.byteLength (front.flatMap Token.text)) ∧
    Terminates ∧
    endOf text = (sourceFile typeRule (rootOf text)).closeNode ∧
    (endOf text).parents = [] ∧
    (endOf text).built = #[(ofText text).tree] ∧
    (∃ children : List Tree,
      (ofText text).tree = .node .sourceFile ⟨0, Text.byteLength text.toList⟩ children ∧
        ForestInside 0 children) ∧
    (ofText text).tree.tokens = Token.ofSource text ∧
    (ofText text).tree.text = text.toList := by
  obtain ⟨children, built, parents, tokens, inside⟩ := endOf_facts text
  have tree :
      (ofText text).tree = .node .sourceFile ⟨0, Text.byteLength text.toList⟩ children := by
    simp [ofText, built]
  have leaves : (ofText text).tree.tokens = Token.ofSource text := by
    rw [tree, Tree.tokens, tokens]
  refine ⟨fun _ => Token.text_ne_nil_of_mem_ofSource, Token.flatMap_text_ofSource text,
    fun front token back place => (Token.contiguous_ofSource text).offset_eq place, terminates,
    endOf_eq text, parents, tree ▸ built, ⟨children, tree, inside⟩, leaves, ?_⟩
  rw [Tree.text, leaves, Token.flatMap_text_ofSource]

end Parse

end Implementers.Syntax
