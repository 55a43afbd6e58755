import Implementers.Proofs.Syntax.Abreast
import Implementers.Proofs.Syntax.Alongside
import Implementers.Proofs.Syntax.Passages
import Mathlib.Data.List.Forall2

namespace Implementers.Syntax

/-!
# Two runs behind the same declaration

Behind the body of a function, or behind a declaration of values, two runs that came there alongside
each other meet the same tokens again.  What they have built declares the same, whatever tokens were
passed over, and from there on they stay abreast up to the end of the source.
-/

open Cursor Grammar

namespace Cursor

/-- What the trees that have been built declare. -/
def declared
    (cursor : Cursor) :
    List Part :=
  (cursor.built.toList.map Tree.part).filter Part.declares

/--
Two runs that have declared the same at shifted offsets and found the same faults, and that meet the
same tokens at shifted offsets.
-/
structure Rejoined
    (shift : Nat → Nat)
    (left right : Cursor) :
    Prop where
  rest : right.rest = left.rest.map (Token.shifted shift)
  rigid : ∀ token ∈ left.rest, token.Rigid shift
  length : right.sourceLength = shift left.sourceLength
  faults : right.errors.toList.map SyntaxError.fault = left.errors.toList.map SyntaxError.fault
  kinds : right.parents.map OpenNode.kind = left.parents.map OpenNode.kind
  root : ∀ opened ∈ left.parents, opened.kind = .sourceFile
  declared : right.declared = left.declared.map (Part.shifted shift)

section Declared

variable
  {shift : Nat → Nat}
  {front frontRight trees treesRight : List Tree}
  {base left right : Cursor}

/-- Runs that are abreast have rejoined if they had declared the same before. -/
theorem Abreast.rejoined
    (abreast : Abreast shift front frontRight base left right)
    (root : ∀ opened ∈ left.parents, opened.kind = .sourceFile)
    (before :
      (frontRight.map Tree.part).filter Part.declares =
        ((front.map Tree.part).filter Part.declares).map (Part.shifted shift)) :
    Rejoined shift left right := by
  obtain ⟨trees, treesRight, built, builtRight, alike, _⟩ := abreast.built
  refine
    { rest := abreast.rest
      rigid := abreast.rigid
      length := abreast.length
      faults := abreast.faults
      kinds := ?_
      root := root
      declared := ?_ }
  · have nodes := abreast.nodes
    generalize left.parents = ours at nodes ⊢
    generalize right.parents = theirs at nodes ⊢
    induction nodes with
    | nil => rfl
    | cons same _ inductionHypothesis =>
        rw [List.map_cons, List.map_cons, same.kind, inductionHypothesis]
  · rw [declared, declared, built, builtRight, List.map_append, List.map_append,
      List.filter_append, List.filter_append, List.map_append, before, alike,
      Part.filter_declares_shifted]

/-- Runs that have rejoined are abreast from there on. -/
theorem Rejoined.abreast
    (rejoined : Rejoined shift left right) :
    Abreast shift left.built.toList right.built.toList left left right where
  rest := rejoined.rest
  rigid := rejoined.rigid
  length := rejoined.length
  faults := rejoined.faults
  parents := rfl
  nodes := by
    have kinds := rejoined.kinds
    have root := rejoined.root
    generalize left.parents = ours at kinds root
    generalize right.parents = theirs at kinds
    induction ours generalizing theirs with
    | nil =>
        obtain rfl := List.map_eq_nil_iff.mp kinds
        exact .nil
    | cons opened outer inductionHypothesis =>
        obtain ⟨openedRight, outerRight, rfl, kind, kinds⟩ := List.map_eq_cons_iff.mp kinds
        obtain ⟨isRoot, root⟩ := List.forall_mem_cons.mp root
        exact .cons ⟨kind, fun notRoot => absurd isRoot notRoot⟩
          (inductionHypothesis root outerRight kinds)
  built := ⟨[], [], (List.append_nil _).symm, (List.append_nil _).symm, rfl, nofun⟩

/-- Runs that have rejoined stay so when they apply the same rule. -/
theorem Rejoined.through
    {rule : Rule}
    (rejoined : Rejoined shift left right)
    (respects : ∀ front frontRight,
      Respects (Abreast shift front frontRight) rule rule) :
    Rejoined shift (rule left) (rule right) := by
  have abreast := respects _ _ rejoined.abreast
  exact abreast.rejoined (abreast.parents ▸ rejoined.root) rejoined.declared

end Declared

/-! ## Runs that declare nothing -/

/-- A run that declares nothing, finds no fault, and leaves the same nodes open. -/
structure Idle
    (base cursor : Cursor) :
    Prop where
  parents : cursor.parents = base.parents
  errors : cursor.errors = base.errors
  length : cursor.sourceLength = base.sourceLength
  declared : cursor.declared = base.declared

namespace Idle

variable {base middle cursor : Cursor}

theorem trans
    (first : Idle base middle)
    (second : Idle middle cursor) :
    Idle base cursor :=
  ⟨second.parents.trans first.parents, second.errors.trans first.errors,
    second.length.trans first.length, second.declared.trans first.declared⟩

/-- Bare tokens declare nothing. -/
theorem past
    (cursor : Cursor)
    (tokens rest : List Token) :
    Idle cursor (cursor.past tokens rest) where
  parents := rfl
  errors := rfl
  length := rfl
  declared := by
    have bare : (tokens.map (Tree.part ∘ Tree.leaf)).filter Part.declares = [] := by
      rw [List.filter_eq_nil_iff]
      intro part member
      obtain ⟨token, _, rfl⟩ := List.mem_map.mp member
      simp [Tree.part, Part.declares]
    simp [Cursor.declared, Cursor.past, bare]

theorem skipTrivia
    (cursor : Cursor) :
    Idle cursor cursor.skipTrivia :=
  past cursor _ _

/-- A node that declares nothing may be built. -/
theorem push
    (cursor : Cursor)
    (rest : List Token)
    {tree : Tree}
    (nothing : tree.part.declares = false) :
    Idle cursor { cursor with rest, built := cursor.built.push tree } where
  parents := rfl
  errors := rfl
  length := rfl
  declared := by simp [Cursor.declared, nothing]

end Idle

/-- Tokens that are taken one by one inside of a node go into this node. -/
theorem node_of_past
    {cursor : Cursor}
    {kind : Kind}
    {rule : Rule}
    {tokens rest : List Token}
    (takes : rule (cursor.openNode kind) = (cursor.openNode kind).past tokens rest) :
    ∃ span trees,
      cursor.node kind rule =
        { cursor with rest, built := cursor.skipTrivia.built.push (.node kind span trees) } := by
  have closes := @closeNode_eq ((cursor.openNode kind).past tokens rest) kind
    cursor.skipTrivia.mark cursor.parents cursor.skipTrivia.built (tokens.map .leaf) rfl rfl
    (by simp [Cursor.past, openNode, openAt])
  exact ⟨_, _, by rw [node, takes, closes]; rfl⟩

/-- A terminator is no trivia. -/
theorem significant_of_terminator
    {token : Token}
    (isEnd : token.kind.isTerminator = true) :
    isTrivia token = false := by
  unfold isTrivia
  cases kind : token.kind <;> rw [kind] at isEnd <;> first | rfl | cases isEnd

/-- Where the next token is a terminator, it stands behind trivia. -/
theorem exists_terminator
    {tokens : List Token}
    (ends : (firstKind? tokens).any Kind.isTerminator = true) :
    ∃ gap token rest, tokens = gap ++ token :: rest ∧ (∀ token ∈ gap, isTrivia token = true) ∧
      token.kind.isTerminator = true := by
  obtain ⟨gap, trivia, rfl | ⟨token, rest, significant, rfl⟩⟩ := exists_gap tokens
  · have nothing : tokens.dropWhile isTrivia = [] := List.dropWhile_eq_nil_iff.mpr trivia
    simp [firstKind?, ahead_zero, nothing] at ends
  · rw [firstKind?, ahead_of_gap trivia significant] at ends
    exact ⟨gap, token, rest, rfl, trivia, ends⟩

/-- Trivia in front does not change which token is next. -/
theorem firstKind?_of_gap
    {gap : List Token}
    (trivia : ∀ token ∈ gap, isTrivia token = true)
    (tokens : List Token) :
    firstKind? (gap ++ tokens) = firstKind? tokens := by
  rw [firstKind?, firstKind?, ahead_zero, ahead_zero, List.dropWhile_append_of_pos trivia]

/-- A terminator is taken with the trivia in front of it. -/
theorem terminator_eq
    {cursor : Cursor}
    {gap rest : List Token}
    {ends : Token}
    (reads : cursor.rest = gap ++ ends :: rest)
    (trivia : ∀ token ∈ gap, isTrivia token = true)
    (isEnd : ends.kind.isTerminator = true) :
    terminator none cursor = cursor.past (gap ++ [ends]) rest := by
  have significant := significant_of_terminator isEnd
  have seen := peek?_zero_of_gap reads trivia significant
  rw [terminator, if_pos (by simp [seesAny, seen, isEnd]), bump_eq_past reads trivia significant]

/--
A run comes behind some tokens with whole declarations, and without declaring anything.
-/
def Idles
    (cursor : Cursor)
    (rest : List Token) :
    Prop :=
  ∃ behind, Passes cursor behind ∧ Idle cursor behind ∧ behind.rest = rest

/-- A terminator in front of a declaration is passed over. -/
theorem idles_of_terminator
    {cursor : Cursor}
    {ends : Token}
    {gap rest : List Token}
    (reads : cursor.rest = gap ++ ends :: rest)
    (trivia : ∀ token ∈ gap, isTrivia token = true)
    (isEnd : ends.kind.isTerminator = true) :
    cursor.Idles rest := by
  have significant := significant_of_terminator isEnd
  have seen := peek?_zero_of_gap reads trivia significant
  have taken : declaration typeRule cursor = cursor.past (gap ++ [ends]) rest := by
    rw [← bump_eq_past reads trivia significant, declaration, seen]
    cases kind : ends.kind <;> rw [kind] at isEnd <;> first | rfl | cases isEnd
  refine ⟨_, .single ⟨by simp [atEnd, seen], taken.symm⟩, Idle.past _ _ _, rfl⟩

/-- A declaration of values takes everything up to its terminator, and declares nothing. -/
theorem idles_of_values
    {cursor : Cursor}
    {last ends : Token}
    {inner gap rest : List Token}
    (values : ComesToValueDecl (Faces (last :: (inner ++ (gap ++ ends :: rest)))) cursor)
    (significant : isTrivia last = false)
    (nested : Nested (fun kind => !kind.isTerminator) inner)
    (trivia : ∀ token ∈ gap, isTrivia token = true)
    (isEnd : ends.kind.isTerminator = true) :
    cursor.Idles rest := by
  have bumped := bump_eq_past
    (show (cursor.openNode .valueDecl).rest = [] ++ last :: _ from values.place) nofun significant
  have next : firstKind? (gap ++ ends :: rest) = some ends.kind := by
    rw [firstKind?, ahead_of_gap trivia (significant_of_terminator isEnd)]
    rfl
  obtain ⟨taken, left, parts, leftTrivia, runs⟩ :=
    repeatWhile_nested nested (by simp) next isEnd
      (show ((cursor.openNode .valueDecl).past ([] ++ [last]) (inner ++ (gap ++ ends :: rest))).rest =
        [] ++ _ from rfl) nofun
  rw [past_past] at runs
  obtain ⟨span, trees, closes⟩ :=
    @node_of_past cursor .valueDecl
      (fun opened => repeatWhile (passesOver Kind.isTerminator) tokenOrBrackets opened.bump)
      _ _ (by rw [bumped, runs])
  have declared := values.declaration_eq
  rw [valueDecl, closes, terminator_eq (List.append_assoc left gap _).symm
    (List.forall_mem_append.mpr ⟨leftTrivia, trivia⟩) isEnd] at declared
  have pushed := Idle.push cursor.skipTrivia (left ++ (gap ++ ends :: rest))
    (show (Tree.node .valueDecl span trees).part.declares = false from rfl)
  exact ⟨_, .single ⟨Comes.present (.inr values), declared.symm⟩,
    ((Idle.skipTrivia cursor).trans pushed).trans (Idle.past _ _ _), rfl⟩

/-- Values up to a terminator are passed over, and a second terminator behind it as well. -/
theorem idles_of_values_terminator
    {cursor : Cursor}
    {last ends endsToo : Token}
    {inner gap gapToo rest : List Token}
    (values : ComesToValueDecl
      (Faces (last :: (inner ++ (gap ++ ends :: (gapToo ++ endsToo :: rest))))) cursor)
    (significant : isTrivia last = false)
    (nested : Nested (fun kind => !kind.isTerminator) inner)
    (trivia : ∀ token ∈ gap, isTrivia token = true)
    (isEnd : ends.kind.isTerminator = true)
    (triviaToo : ∀ token ∈ gapToo, isTrivia token = true)
    (isEndToo : endsToo.kind.isTerminator = true) :
    cursor.Idles rest := by
  obtain ⟨middle, passes, idle, reads⟩ := idles_of_values values significant nested trivia isEnd
  obtain ⟨behind, passesToo, idleToo, rest⟩ := idles_of_terminator reads triviaToo isEndToo
  exact ⟨behind, passes.trans passesToo, idle.trans idleToo, rest⟩

/-- The next significant token is the first one that a cursor faces. -/
theorem Faces.peek
    {cursor : Cursor}
    {token : Token}
    {rest : List Token}
    (faces : cursor.Faces (token :: rest)) :
    cursor.peek? 0 = some token.kind := by
  rw [peek?, ahead_zero]
  exact congrArg (fun tokens => tokens.head?.map Token.kind) faces

theorem Faces.offset
    {cursor : Cursor}
    {token : Token}
    {rest : List Token}
    (faces : cursor.Faces (token :: rest)) :
    cursor.skipTrivia.offset = token.offset := by
  unfold Cursor.offset
  rw [show cursor.skipTrivia.rest = token :: rest from faces]

/-- A run does not go back. -/
theorem Advances.offset_le
    {base cursor : Cursor}
    (advances : Advances base cursor) :
    base.offset ≤ cursor.offset := by
  obtain ⟨trees, built, rest, inside⟩ := advances.trees
  have offset := (advances.placed.behind rest advances.length).1
  omega

/-- The trees of a run stand in front of the place where it is. -/
theorem Advances.stands
    {base cursor : Cursor}
    {holds : Nat → Prop}
    (advances : Advances base cursor)
    (low : ∀ offset ≤ cursor.offset, holds offset) :
    ∃ trees, cursor.built.toList = base.built.toList ++ trees ∧ Tree.ForestStands holds trees := by
  obtain ⟨trees, built, rest, inside⟩ := advances.trees
  have offset := (advances.placed.behind rest advances.length).1
  refine ⟨trees, built, Tree.forestStands_of_inside inside fun place _ below => ?_⟩
  exact low place (by omega)

/-- A function advances from where its node is opened up to its body. -/
theorem Placed.advances_approach
    {cursor : Cursor}
    (placed : cursor.Placed)
    (function : cursor.sees .funcKeyword = true) :
    Advances (cursor.openNode .funcDecl) (approach cursor).skipTrivia := by
  have opened : (cursor.openNode .funcDecl).Placed := placed.advances_skipTrivia.behind
  have approached : Advances (cursor.openNode .funcDecl) (approach cursor) := by
    rw [approach, if_pos function]
    exact ((respects_funcFront invariant_advances.compatible respects_typeRule_advances).alone _ _
      opened.advances_self).2
  exact approached.trans approached.behind.advances_skipTrivia

end Cursor

/-! ## Rejoining -/

namespace Fork

open Cursor

variable
  {fork : Fork}
  {shift : Nat → Nat}
  {base left right : Cursor}

/-- What two runs have in common when they come to the declaration in front of the parting. -/
structure Arrived
    (fork : Fork)
    (shift : Nat → Nat)
    (base left right : Cursor) :
    Prop where
  parallel : fork.Parallel left right
  approached : fork.Parallel (approach left) (approach right)
  advances : Advances base left
  nothing : base.built = #[]
  root : ∀ opened ∈ base.parents, opened.kind = .sourceFile
  fixed : ∀ offset ≤ fork.last.offset, shift offset = offset
  length : fork.theirLength = shift base.sourceLength

namespace Arrived

variable (arrived : fork.Arrived shift base left right)

include arrived

theorem root_left : ∀ opened ∈ left.parents, opened.kind = .sourceFile := by
  rw [arrived.advances.parents]
  exact arrived.root

/-- What has been built in front of the parting is the same at shifted offsets. -/
theorem declared_eq
    {cursor : Cursor}
    (advances : Advances base cursor)
    (before : cursor.offset ≤ fork.last.offset) :
    cursor.declared = cursor.declared.map (Part.shifted shift) := by
  obtain ⟨trees, built, stands⟩ :=
    advances.stands fun offset below => arrived.fixed offset (below.trans before)
  rw [arrived.nothing, List.nil_append] at built
  rw [declared, built, ← Part.filter_declares_shifted, Tree.parts_shifted_of_stands stands]

/-- Two runs that declare nothing until they meet the same tokens have rejoined there. -/
theorem rejoined_of_idles
    {rest : List Token}
    (before : left.offset ≤ fork.last.offset)
    (idles : left.Idles rest)
    (idlesToo : right.Idles (rest.map (Token.shifted shift)))
    (rigid : ∀ token ∈ rest, token.Rigid shift) :
    ∃ leftBehind rightBehind, Passes left leftBehind ∧ Passes right rightBehind ∧
      Rejoined shift leftBehind rightBehind := by
  obtain ⟨leftBehind, passes, idle, rfl⟩ := idles
  obtain ⟨rightBehind, passesToo, idleToo, rest⟩ := idlesToo
  have same : right.declared = left.declared := by
    rw [declared, declared, arrived.parallel.built]
  exact ⟨leftBehind, rightBehind, passes, passesToo,
    { rest := rest
      rigid := rigid
      length := by
        rw [idleToo.length, idle.length, arrived.parallel.length, arrived.length,
          arrived.advances.length]
      faults := by rw [idleToo.errors, idle.errors, arrived.parallel.errors]
      kinds := by rw [idleToo.parents, idle.parents, arrived.parallel.parents]
      root := idle.parents ▸ arrived.root_left
      declared := by
        rw [idleToo.declared, idle.declared, same]
        exact arrived.declared_eq arrived.advances before }⟩

/-- Behind the terminator of values, or a second one, the runs have rejoined. -/
theorem rejoined_of_values
    {inner innerToo back backToo : List Token}
    (values : ComesToValueDecl (Faces (fork.last :: fork.ours)) left)
    (valuesToo : ComesToValueDecl (Faces (fork.last :: fork.theirs)) right)
    (ours : fork.ours = inner ++ back)
    (theirs : fork.theirs = innerToo ++ backToo)
    (nested : Nested (fun kind => !kind.isTerminator) inner)
    (nestedToo : Nested (fun kind => !kind.isTerminator) innerToo)
    (sameText : Token.SameText shift back backToo)
    (ends : (firstKind? back).any Kind.isTerminator = true)
    (endsToo : (firstKind? backToo).any Kind.isTerminator = true)
    (rigid : ∀ token ∈ back, token.Rigid shift) :
    ∃ leftBehind rightBehind, Passes left leftBehind ∧ Passes right rightBehind ∧
      Rejoined shift leftBehind rightBehind := by
  have before : left.offset ≤ fork.last.offset := by
    rw [← Faces.offset values.place]
    exact arrived.advances.behind.advances_skipTrivia.offset_le
  have significant := fork.significant
  have kept {gap : List Token} (trivia : ∀ token ∈ gap, isTrivia token = true) :
      ∀ token ∈ gap.map (Token.shifted shift), isTrivia token = true :=
    List.forall_mem_map.mpr trivia
  -- A line break that is no terminator for one of the runs may stand in front of another terminator.
  have blank {gap : List Token} {lineBreak : Token} (trivia : ∀ token ∈ gap, isTrivia token = true) :
      ∀ token ∈ gap ++ [{ lineBreak with kind := .whitespace }], isTrivia token = true :=
    List.forall_mem_append.mpr ⟨trivia, List.forall_mem_singleton.mpr rfl⟩
  have terminates {lineBreak : Token} (isBreak : lineBreak.kind = .newline) :
      lineBreak.kind.isTerminator = true := by rw [isBreak]; rfl
  rw [ours] at values
  rw [theirs] at valuesToo
  cases sameText with
  | same =>
      obtain ⟨gap, token, rest, rfl, trivia, isEnd⟩ := exists_terminator ends
      rw [List.map_append, List.map_cons] at valuesToo
      exact arrived.rejoined_of_idles before
        (idles_of_values values significant nested trivia isEnd)
        (idles_of_values valuesToo significant nestedToo (kept trivia) isEnd)
        fun token member => rigid token (by simp [member])
  | @breaks gap rest lineBreak trivia isBreak =>
      rw [firstKind?_shifted, List.append_cons, firstKind?_of_gap (blank trivia)] at endsToo
      obtain ⟨gapToo, token, rest, rfl, triviaToo, isEnd⟩ := exists_terminator endsToo
      rw [List.append_cons, ← List.append_assoc, List.map_append, List.map_cons] at valuesToo
      exact arrived.rejoined_of_idles before
        (idles_of_values_terminator values significant nested trivia (terminates isBreak) triviaToo
          isEnd)
        (idles_of_values valuesToo significant nestedToo
          (kept (List.forall_mem_append.mpr ⟨blank trivia, triviaToo⟩)) isEnd)
        fun token member => rigid token (by simp [member])
  | @breaksToo gap rest lineBreak trivia isBreak =>
      rw [List.append_cons, firstKind?_of_gap (blank trivia)] at ends
      obtain ⟨gapToo, token, rest, rfl, triviaToo, isEnd⟩ := exists_terminator ends
      rw [List.append_cons, ← List.append_assoc _ gapToo] at values
      simp only [List.map_append, List.map_cons] at valuesToo
      exact arrived.rejoined_of_idles before
        (idles_of_values values significant nested
          (List.forall_mem_append.mpr ⟨blank trivia, triviaToo⟩) isEnd)
        (idles_of_values_terminator valuesToo significant nestedToo (kept trivia)
          (terminates isBreak) (kept triviaToo) isEnd)
        fun token member => rigid token (by simp [member])

/--
Two runs that have approached the body of a function side by side, and have passed over it, are
abreast in the node of the function.
-/
theorem abreast_of_blocks
    {leftBehind rightBehind : Cursor}
    {rest : List Token}
    {span spanToo : Span}
    {trees treesToo : List Tree}
    (function : left.sees .funcKeyword = true)
    (before : (approach left).skipTrivia.offset ≤ fork.last.offset)
    (node : leftBehind =
      { approach left with
        rest, built := (approach left).skipTrivia.built.push (.node .block span trees) })
    (nodeToo : rightBehind =
      { approach right with
        rest := rest.map (Token.shifted shift)
        built := (approach right).skipTrivia.built.push (.node .block spanToo treesToo) })
    (rigid : ∀ token ∈ rest, token.Rigid shift) :
    leftBehind.parents = ⟨.funcDecl, left.skipTrivia.mark⟩ :: left.parents ∧
      left.skipTrivia.offset ≤ fork.last.offset ∧
      Abreast shift left.skipTrivia.built.toList left.skipTrivia.built.toList leftBehind leftBehind
        rightBehind := by
  have signed := arrived.advances.behind.advances_approach function
  obtain ⟨front, built, stands⟩ :=
    signed.stands fun offset below => arrived.fixed offset (below.trans before)
  have low : left.skipTrivia.offset ≤ fork.last.offset := signed.offset_le.trans before
  have parents : (approach left).parents = ⟨.funcDecl, left.skipTrivia.mark⟩ :: left.parents :=
    signed.parents
  have approached := arrived.approached
  subst node nodeToo
  refine ⟨parents, low, ?_⟩
  exact
    { rest := rfl
      rigid := rigid
      length := by
        have length : (approach left).sourceLength = left.sourceLength := signed.length
        rw [length, arrived.advances.length, ← arrived.length, ← approached.length]
      faults := congrArg _ (congrArg _ approached.errors)
      parents := rfl
      nodes := by
        dsimp only
        rw [approached.parents, parents]
        refine .cons ⟨rfl, fun _ => ⟨(arrived.fixed _ low).symm, 0, ?_, ?_⟩⟩ ?_
        · rfl
        · rfl
        · exact List.forall₂_same.mpr fun outer member =>
            ⟨rfl, fun notRoot => absurd (arrived.root_left outer member) notRoot⟩
      built := by
        refine ⟨front ++ [.node .block span trees], front ++ [.node .block spanToo treesToo],
          ?_, ?_, ?_, ?_⟩
        · rw [Array.toList_push, built, List.append_assoc]
          rfl
        · rw [Array.toList_push, approached.skipTrivia.built, built, List.append_assoc]
          rfl
        · rw [List.map_append, List.map_append, List.map_append,
            Tree.parts_shifted_of_stands stands]
          rfl
        · intro token member
          rw [List.map_append, List.mem_append] at member
          rcases member with inFront | isBlock
          · exact Tree.rigid_of_stands stands token inFront
          · exact absurd (List.mem_singleton.mp isBlock) nofun }

/-- Behind the body of a function the runs have rejoined. -/
theorem rejoined_of_body
    {close closeToo : Token}
    {inner innerToo rest : List Token}
    (body : ComesToBody (Faces (fork.last :: fork.ours)) left)
    (bodyToo : ComesToBody (Faces (fork.last :: fork.theirs)) right)
    (ours : fork.ours = inner ++ close :: rest)
    (theirs : fork.theirs = innerToo ++ closeToo :: rest.map (Token.shifted shift))
    (pair : fork.last.kind.closing? = some close.kind)
    (pairToo : fork.last.kind.closing? = some closeToo.kind)
    (balances : Balances fork.last.kind close.kind inner)
    (balancesToo : Balances fork.last.kind closeToo.kind innerToo)
    (rigid : ∀ token ∈ rest, token.Rigid shift) :
    Rejoined shift (declaration typeRule left) (declaration typeRule right) := by
  have faces : (approach left).Faces (fork.last :: (inner ++ close :: rest)) := by
    rw [body.approach_eq, ← ours]
    exact body.place
  have facesToo : (approach right).Faces
      (fork.last :: (innerToo ++ closeToo :: rest.map (Token.shifted shift))) := by
    rw [bodyToo.approach_eq, ← theirs]
    exact bodyToo.place
  obtain ⟨span, trees, node⟩ := node_of_past
    (bumpBalanced_eq (show ((approach left).openNode .block).rest = [] ++ _ from faces) nofun pair
      balances)
  obtain ⟨spanToo, treesToo, nodeToo⟩ := node_of_past
    (bumpBalanced_eq (show ((approach right).openNode .block).rest = [] ++ _ from facesToo) nofun
      pairToo balancesToo)
  obtain ⟨parents, low, abreast⟩ :=
    arrived.abreast_of_blocks body.function faces.offset.le node nodeToo rigid
  have closed : Abreast shift left.skipTrivia.built.toList left.skipTrivia.built.toList left
      ((approach left).node .block bumpBalanced).closeNode
      ((approach right).node .block bumpBalanced).closeNode :=
    abreast.closeNode (by decide) parents
  have ended := respects_terminator Abreast.compatible none closed
  rw [body.declaration_eq, bodyToo.declaration_eq]
  exact ended.rejoined (ended.parents ▸ arrived.root_left)
    (arrived.declared_eq (arrived.advances.trans arrived.advances.behind.advances_skipTrivia) low)

end Arrived

end Fork

end Implementers.Syntax
