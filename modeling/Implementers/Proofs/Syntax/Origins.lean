import Implementers.Proofs.Syntax.Displacement
import Implementers.Proofs.Syntax.LocalRules
import Mathlib.Logic.Relation

namespace Implementers.Syntax

/-!
# Where the declarations of a source file come from

A rule adds bare tokens and nodes of few kinds next to each other.  So the node of a declaration in
a source file tells at which declaration of the run it was built, and the body of a function in that
node tells that the rule for functions came to a body there.
-/

open Cursor Grammar

namespace Tree

/-- The kind of a tree, unless it is a bare token. -/
def kind? : Tree → Option Kind
  | .leaf _ => none
  | .node kind _ _ => some kind

/-- Whether a tree is a function whose body begins at an offset. -/
def HasBodyAt
    (offset : Nat)
    (tree : Tree) :
    Prop :=
  tree.kind? = some .funcDecl ∧
    ∃ block ∈ tree.children, block.kind? = some .block ∧ block.span.start = offset

instance
    (offset : Nat)
    (tree : Tree) :
    Decidable (tree.HasBodyAt offset) :=
  inferInstanceAs (Decidable (_ ∧ ∃ block ∈ tree.children, _))

/-- Whether a tree is a declaration of variables or constants that begins at an offset. -/
def IsValueDeclAt
    (offset : Nat)
    (tree : Tree) :
    Prop :=
  tree.kind? = some .valueDecl ∧ tree.span.start = offset

instance
    (offset : Nat)
    (tree : Tree) :
    Decidable (tree.IsValueDeclAt offset) :=
  inferInstanceAs (Decidable (_ ∧ _))

end Tree

namespace Cursor

/-- Whether the next significant token, or the end of the source, stands at an offset. -/
def StandsAt
    (offset : Nat)
    (cursor : Cursor) :
    Prop :=
  cursor.skipTrivia.offset = offset

/-! ## The trees that rules add -/

/--
A run that leaves the same nodes open and adds trees of some sort behind the trees built before.
-/
structure Adds
    (sort : Tree → Prop)
    (base cursor : Cursor) :
    Prop where
  parents : cursor.parents = base.parents
  trees : ∃ trees, cursor.built.toList = base.built.toList ++ trees ∧ ∀ tree ∈ trees, sort tree

/-- Whether a tree is a bare token or a node of one of some kinds. -/
def Among
    (kinds : Kind → Prop)
    (tree : Tree) :
    Prop :=
  ∀ kind ∈ tree.kind?, kinds kind

/-- A rule that adds bare tokens and nodes of some kinds. -/
def AddsAll
    (kinds : Kind → Prop)
    (rule : Rule) :
    Prop :=
  ∀ cursor, Adds (Among kinds) cursor (rule cursor)

/-- Every kind of node. -/
abbrev anyKind
    (_ : Kind) :
    Prop :=
  True

namespace Adds

variable
  {sort others : Tree → Prop}
  {kinds : Kind → Prop}
  {base middle cursor : Cursor}

theorem self
    (cursor : Cursor) :
    Adds sort cursor cursor :=
  ⟨rfl, [], (List.append_nil _).symm, nofun⟩

theorem trans
    (first : Adds sort base middle)
    (second : Adds sort middle cursor) :
    Adds sort base cursor := by
  obtain ⟨front, builtFront, amongFront⟩ := first.trees
  obtain ⟨back, builtBack, amongBack⟩ := second.trees
  refine ⟨second.parents.trans first.parents, front ++ back, ?_, ?_⟩
  · rw [builtBack, builtFront, List.append_assoc]
  · exact List.forall_mem_append.mpr ⟨amongFront, amongBack⟩

theorem mono
    (adds : Adds sort base cursor)
    (more : ∀ tree, sort tree → others tree) :
    Adds others base cursor := by
  obtain ⟨trees, built, among⟩ := adds.trees
  exact ⟨adds.parents, trees, built, fun tree member => more tree (among tree member)⟩

/-- A tree that has been built since is of the sort that was added. -/
theorem sort_of_mem
    (adds : Adds sort base cursor)
    {tree : Tree}
    (member : tree ∈ cursor.built.toList) :
    tree ∈ base.built.toList ∨ sort tree := by
  obtain ⟨trees, built, among⟩ := adds.trees
  rw [built] at member
  exact (List.mem_append.mp member).imp_right (among tree)

theorem report
    (cursor : Cursor)
    (fault : SyntaxFault) :
    Adds sort cursor (cursor.report fault) :=
  ⟨rfl, [], (List.append_nil _).symm, nofun⟩

/-- Only bare tokens are added where tokens are taken one by one. -/
theorem past
    (cursor : Cursor)
    (tokens rest : List Token) :
    Adds (Among kinds) cursor (cursor.past tokens rest) := by
  refine ⟨rfl, tokens.map .leaf, by simp [Cursor.past], fun tree member => ?_⟩
  obtain ⟨token, _, rfl⟩ := List.mem_map.mp member
  exact fun kind isKind => absurd isKind (Option.not_mem_none kind)

theorem skipTrivia
    (cursor : Cursor) :
    Adds (Among kinds) cursor cursor.skipTrivia :=
  past cursor _ _

theorem bump
    (cursor : Cursor) :
    Adds (Among kinds) cursor cursor.bump := by
  have skipped : Adds (Among kinds) cursor cursor.skipTrivia := skipTrivia cursor
  cases next : cursor.skipTrivia.rest with
  | nil =>
      have none : cursor.bump = cursor.skipTrivia := by simp only [Cursor.bump, next]
      exact none ▸ skipped
  | cons token rest =>
      rw [bump_eq_past_skipTrivia next]
      exact skipped.trans (past _ _ _)

/-- A node that is closed around the trees added since it was opened is added itself. -/
theorem closeNode
    {kind : Kind}
    {opened : Mark}
    (parents : cursor.parents = ⟨kind, opened⟩ :: base.parents)
    (count : opened.count = base.built.size)
    (built : ∃ trees, cursor.built.toList = base.built.toList ++ trees ∧
      sort (.node kind ⟨opened.offset, cursor.offset⟩ trees)) :
    Adds sort base cursor.closeNode := by
  obtain ⟨trees, built, isSort⟩ := built
  rw [closeNode_eq parents count built]
  exact ⟨rfl, [_], Array.toList_push, List.forall_mem_singleton.mpr isSort⟩

/-- A node is added with the trees added inside of it. -/
theorem closed
    {kind : Kind}
    (inside : Adds others (cursor.openNode kind) middle)
    (bare : ∀ token, sort (.leaf token))
    (isSort : ∀ stop trees, (∀ tree ∈ trees, others tree) →
      sort (.node kind ⟨cursor.skipTrivia.offset, stop⟩ trees)) :
    Adds sort cursor middle.closeNode := by
  have skipped : Adds sort cursor cursor.skipTrivia := by
    refine (@skipTrivia (fun _ => False) cursor).mono fun tree among => ?_
    cases tree with
    | leaf token => exact bare token
    | node kind _ _ => exact (among kind rfl).elim
  refine skipped.trans (closeNode inside.parents rfl ?_)
  obtain ⟨trees, built, among⟩ := inside.trees
  exact ⟨trees, built, isSort _ _ among⟩

end Adds

/-- A node whose inside adds trees is added. -/
theorem AddsAll.node
    {kinds : Kind → Prop}
    {kind : Kind}
    {rule : Rule}
    (inside : AddsAll anyKind rule)
    (isKind : kinds kind) :
    AddsAll kinds (Cursor.node kind rule) :=
  fun cursor => (inside (cursor.openNode kind)).closed (fun _ => nofun) fun _ _ _ _ same =>
    Option.some.inj same ▸ isKind

/-- Every step of the parser adds trees behind those built before. -/
theorem invariant_adds : Invariant (Adds (Among anyKind)) where
  report keeps fault := keeps.trans (.report _ fault)
  bump keeps := keeps.trans (.bump _)
  skipTrivia keeps := keeps.trans (.skipTrivia _)
  restart _ := .self _
  opened _ _ := .self _
  closed _ keeps inside := keeps.trans (inside.closed (fun _ => nofun) fun _ _ _ _ _ => trivial)
  wrapped _ keeps inside :=
    keeps.trans
      (.closeNode (congrArg _ inside.parents) rfl
        (inside.trees.imp fun _ built => ⟨built.1, fun _ _ => trivial⟩))

theorem addsAll_of_respects
    {rule : Rule}
    (respects : Respects (Alone (Adds (Among anyKind))) rule rule) :
    AddsAll anyKind rule :=
  fun cursor => (respects.alone cursor cursor (.self cursor)).2

namespace AddsAll

variable
  {kinds : Kind → Prop}
  {f g : Rule}

protected theorem id : AddsAll kinds fun cursor => cursor :=
  Adds.self

theorem comp
    (first : AddsAll kinds f)
    (second : AddsAll kinds g)
    {rule : Rule}
    (both : ∀ cursor, rule cursor = g (f cursor)) :
    AddsAll kinds rule :=
  fun cursor => both cursor ▸ (first cursor).trans (second (f cursor))

theorem ite
    (condition : Cursor → Bool)
    (yes : AddsAll kinds f)
    (no : AddsAll kinds g) :
    AddsAll kinds fun cursor => if condition cursor then f cursor else g cursor := by
  intro cursor
  dsimp only
  split
  · exact yes cursor
  · exact no cursor

/-- A loop adds what its turns add. -/
theorem loop
    {turn : σ → Cursor → Turn σ}
    (ends : Ends turn)
    (takes : ∀ state cursor, Adds (Among kinds) cursor (turn state cursor).cursor)
    (state : σ) :
    AddsAll kinds fun cursor => (Cursor.loop turn state cursor).2 := by
  intro cursor
  have loops := ends state cursor
  dsimp only
  generalize Cursor.loop turn state cursor = result at loops
  induction loops with
  | @done state _ cursor _ stops =>
      have taken := takes state cursor
      rwa [stops] at taken
  | @again state _ cursor _ _ goesOn _ inductionHypothesis =>
      have taken := takes state cursor
      rw [goesOn] at taken
      exact taken.trans inductionHypothesis

theorem repeatWhile
    {condition : Cursor → Bool}
    (ends : Ends (whileTurn condition f))
    (takes : AddsAll kinds f) :
    AddsAll kinds (Cursor.repeatWhile condition f) := by
  refine loop ends (fun _ cursor => ?_) ()
  unfold whileTurn
  split
  · exact takes cursor
  · exact .self cursor

/-- A recovery adds a node of kind `error`. -/
theorem recover
    (fault : SyntaxFault)
    (stops : Kind → Bool)
    (isError : kinds .error) :
    AddsAll kinds (Cursor.recover fault stops) :=
  comp (fun cursor => .report cursor fault)
    (.node (ite (·.seesAny stops) .bump (repeatWhile (Grammar.terminates.recovery stops) .bump))
      isError)
    fun _ => rfl

end AddsAll

end Cursor

namespace Grammar

/-! ## The trees that the rules of the grammar add -/

variable {kinds : Kind → Prop}

theorem addsAll_terminator
    (closing : Option Kind)
    (isError : kinds .error) :
    AddsAll kinds (terminator closing) :=
  .ite _ .bump <| .ite _ .id <|
    .comp (.recover .terminator (endsItem closing) isError)
      (.ite (·.seesAny Kind.isTerminator) .bump .id) fun _ => rfl

theorem addsAll_skipTerminators : AddsAll kinds skipTerminators :=
  .repeatWhile terminates.terminators .bump

theorem addsAll_name
    (isName : kinds .name) :
    AddsAll kinds name :=
  .ite _ (.node .bump isName) fun cursor => .report cursor .identifier

theorem addsAll_typeParams
    (isTypeParams : kinds .typeParams) :
    AddsAll kinds typeParams :=
  .node (addsAll_of_respects invariant_adds.compatible.bumpBalanced) isTypeParams

/-- The rule for type expressions adds trees. -/
theorem respects_typeRule_adds :
    Respects (Alone (Adds (Among anyKind))) typeRule typeRule :=
  respects_typeRule_self invariant_adds.compatible

theorem addsAll_paramList
    (isList : kinds .paramList) :
    AddsAll kinds (paramList typeRule) := by
  have params : AddsAll anyKind (param typeRule) :=
    addsAll_of_respects (respects_param invariant_adds.compatible respects_typeRule_adds)
  have turn (state : Unit) (cursor : Cursor) :
      Adds (Among anyKind) cursor (paramTurn typeRule state cursor).cursor := by
    unfold paramTurn commaTurn
    split
    · exact .self cursor
    · split
      · exact (params cursor).trans (.bump _)
      · exact params cursor
  have closing : AddsAll anyKind fun taken =>
      if taken.sees .rightParen then
        taken.bump
      else
        eat .rightParen (taken.recover (.symbol ")") (· == .rightParen)) :=
    .ite _ .bump
      (.comp (.recover (.symbol ")") _ trivial) (.ite (·.sees .rightParen) .bump .id) fun _ => rfl)
  exact .node (.comp .bump (.comp (.loop terminates.params turn ()) closing fun _ => rfl)
    fun _ => rfl) isList

theorem addsAll_signature
    (isList : kinds .paramList)
    (isResult : kinds .result) :
    AddsAll kinds (signature typeRule) :=
  have results : AddsAll kinds fun taken =>
      if taken.sees .leftParen then
        taken.node .result (paramList typeRule)
      else if taken.seesAny Kind.startsType then
        taken.node .result typeRule
      else
        taken :=
    .ite _ (.node (addsAll_paramList trivial) isResult) <|
      .ite _ (.node (addsAll_of_respects respects_typeRule_adds) isResult) .id
  .ite _ (.comp (addsAll_paramList isList) results fun _ => rfl)
    fun cursor => .report cursor (.symbol "(")

theorem addsAll_funcStart
    (isReceiver : kinds .receiver) :
    AddsAll kinds funcStart :=
  .comp .bump
    (.ite (·.sees .leftParen) (.node (addsAll_paramList trivial) isReceiver) .id) fun _ => rfl

theorem addsAll_funcSignature
    (isName : kinds .name)
    (isTypeParams : kinds .typeParams)
    (isList : kinds .paramList)
    (isResult : kinds .result) :
    AddsAll kinds funcSignature :=
  .comp (addsAll_name isName)
    (.comp (.ite (·.sees .leftBracket) (addsAll_typeParams isTypeParams) .id)
      (addsAll_signature isList isResult) fun _ => rfl)
    fun _ => rfl

theorem addsAll_groupedDecl
    {kind : Kind}
    {item : Rule}
    (takes : Respects (Alone (Adds (Among anyKind))) item item)
    (isKind : kinds kind)
    (isError : kinds .error) :
    AddsAll kinds (groupedDecl kind item) :=
  have group : AddsAll anyKind (items .rightParen (.symbol ")") item) :=
    addsAll_of_respects (respects_items invariant_adds.compatible takes _ _)
  have inside : AddsAll anyKind fun opened =>
      let taken := opened.bump
      if taken.sees .leftParen then
        items .rightParen (.symbol ")") item taken.bump
      else
        item taken :=
    .comp .bump
      (.ite (·.sees .leftParen) (.comp .bump group fun _ => rfl) (addsAll_of_respects takes))
      fun _ => rfl
  .comp (.node inside isKind) (addsAll_terminator none isError) fun _ => rfl

theorem addsAll_opening
    (isClause : kinds .packageClause)
    (isError : kinds .error) :
    AddsAll kinds opening :=
  have clause : AddsAll kinds packageClause :=
    .comp (.node (.comp .bump (addsAll_name trivial) fun _ => rfl) isClause)
      (addsAll_terminator none isError) fun _ => rfl
  .comp addsAll_skipTerminators
    (.ite (·.sees .packageKeyword) clause fun cursor => .report cursor .packageClause)
    fun _ => rfl

theorem addsAll_bumpBalanced : AddsAll anyKind bumpBalanced :=
  addsAll_of_respects invariant_adds.compatible.bumpBalanced

/-! ## The declaration that a node comes from -/

/-- Whether the declaration at a cursor is a function that comes to a body at some place. -/
structure ComesToBody
    (there : Cursor → Prop)
    (cursor : Cursor) :
    Prop where
  function : cursor.sees .funcKeyword = true
  named : (funcStart (cursor.openNode .funcDecl)).sees .ident = true
  brace : (funcSignature (funcStart (cursor.openNode .funcDecl))).sees .leftBrace = true
  place : there (funcSignature (funcStart (cursor.openNode .funcDecl)))

/-- Whether the declaration at a cursor is one of variables or constants at some place. -/
structure ComesToValueDecl
    (there : Cursor → Prop)
    (cursor : Cursor) :
    Prop where
  keyword : cursor.sees .varKeyword = true ∨ cursor.sees .constKeyword = true
  place : there cursor

/-- What the declaration at a cursor must be when a tree is added there. -/
def ComesFrom
    (offset : Nat)
    (cursor : Cursor)
    (tree : Tree) :
    Prop :=
  (tree.HasBodyAt offset → ComesToBody (StandsAt offset) cursor) ∧
    (tree.IsValueDeclAt offset → ComesToValueDecl (StandsAt offset) cursor)

section Declarations

variable
  {offset : Nat}
  {cursor : Cursor}

/-- A tree that is neither a function nor a declaration of values comes from anywhere. -/
theorem comesFrom_of_among
    {tree : Tree}
    (among : Among (fun kind => kind ≠ .funcDecl ∧ kind ≠ .valueDecl) tree) :
    ComesFrom offset cursor tree :=
  ⟨fun has => absurd rfl (among _ has.1).1, fun isDecl => absurd rfl (among _ isDecl.1).2⟩

/-- What a function must come to when a tree is added inside of it. -/
def BodyOf
    (opened : Cursor)
    (tree : Tree) :
    Prop :=
  tree.kind? = some .block →
    (funcStart opened).sees .ident = true ∧
      (funcSignature (funcStart opened)).sees .leftBrace = true ∧
      (funcSignature (funcStart opened)).skipTrivia.offset = tree.span.start

/-- The body of a function is added where its signature ends. -/
theorem adds_funcBody
    (opened : Cursor) :
    Adds (BodyOf opened) opened
      (if (funcStart opened).sees .ident then
        funcBody (funcSignature (funcStart opened))
      else
        (name (funcStart opened)).recover .functionName Kind.isTerminator) := by
  have noBlock {cursor : Cursor} (adds : Adds (Among (· ≠ .block)) opened cursor) :
      Adds (BodyOf opened) opened cursor :=
    adds.mono fun tree among isBlock => absurd rfl (among _ isBlock)
  have started : Adds (Among (· ≠ .block)) opened (funcStart opened) :=
    addsAll_funcStart (by decide) opened
  have signed : Adds (Among (· ≠ .block)) opened (funcSignature (funcStart opened)) :=
    started.trans (addsAll_funcSignature (by decide) (by decide) (by decide) (by decide) _)
  split
  · next named =>
      unfold funcBody
      split
      · next brace =>
          exact (noBlock signed).trans <|
            (addsAll_bumpBalanced _).closed (fun _ => nofun) fun _ _ _ _ => ⟨named, brace, rfl⟩
      · exact noBlock signed
  · exact noBlock <| started.trans <| (addsAll_name (by decide) _).trans
      (AddsAll.recover .functionName Kind.isTerminator (by decide) _)

/-- The trees that a declaration adds come from it. -/
theorem adds_declaration :
    Adds (ComesFrom offset cursor) cursor (declaration typeRule cursor) := by
  have grouped {kind : Kind} {item : Rule}
      (takes : Respects (Alone (Adds (Among anyKind))) item item)
      (isKind : kind ≠ .funcDecl ∧ kind ≠ .valueDecl) :
      Adds (ComesFrom offset cursor) cursor (groupedDecl kind item cursor) :=
    (addsAll_groupedDecl takes isKind (by decide) cursor).mono fun _ => comesFrom_of_among
  have terminated (declared : Cursor)
      (adds : Adds (ComesFrom offset cursor) cursor declared) :
      Adds (ComesFrom offset cursor) cursor (terminator none declared) :=
    adds.trans ((addsAll_terminator none (by decide) declared).mono fun _ => comesFrom_of_among)
  have valued (seen : cursor.sees .varKeyword = true ∨ cursor.sees .constKeyword = true) :
      Adds (ComesFrom offset cursor) cursor (valueDecl cursor) := by
    have tokens : AddsAll anyKind tokenOrBrackets :=
      addsAll_of_respects (respects_tokenOrBrackets invariant_adds.compatible)
    have inside : AddsAll anyKind fun opened =>
        repeatWhile (passesOver Kind.isTerminator) tokenOrBrackets opened.bump :=
      .comp .bump (.repeatWhile terminates.values tokens) fun _ => rfl
    refine terminated _ ((inside _).closed (fun _ => ⟨nofun, nofun⟩) fun _ _ _ => ⟨nofun, ?_⟩)
    exact fun isDecl => ⟨seen, isDecl.2⟩
  unfold declaration
  split
  · exact (Adds.bump cursor).mono fun _ => comesFrom_of_among
  · exact (Adds.bump cursor).mono fun _ => comesFrom_of_among
  · exact grouped (respects_importSpec invariant_adds.compatible) (by decide)
  · exact grouped (respects_typeSpec invariant_adds.compatible respects_typeRule_adds) (by decide)
  · next seen =>
      rw [funcDecl_eq]
      refine terminated _ ((adds_funcBody _).closed (fun _ => ⟨nofun, nofun⟩) ?_)
      refine fun _ trees among => ⟨fun has => ?_, nofun⟩
      obtain ⟨_, block, member, isBlock, starts⟩ := has
      obtain ⟨named, brace, place⟩ := among block member isBlock
      exact ⟨by simp [sees, seen], named, brace, place.trans starts⟩
  · next seen => exact valued (.inl (by simp [sees, seen]))
  · next seen => exact valued (.inr (by simp [sees, seen]))
  · exact (AddsAll.recover .declaration Kind.isTerminator (by decide) cursor).mono
      fun _ => comesFrom_of_among

end Declarations

/-- One cursor behind another, with whole declarations between them. -/
def Passes : Cursor → Cursor → Prop :=
  Relation.ReflTransGen fun before after =>
    before.atEnd = false ∧ after = declaration typeRule before

/-- The run over the declarations of a source file goes on as it does from a cursor on its way. -/
theorem Passes.repeatWhile_eq
    {before after : Cursor}
    (passes : Passes before after) :
    repeatWhile (!·.atEnd) (declaration typeRule) before =
      repeatWhile (!·.atEnd) (declaration typeRule) after := by
  induction passes using Relation.ReflTransGen.head_induction_on with
  | refl => rfl
  | head step _ inductionHypothesis =>
      obtain ⟨present, rfl⟩ := step
      rw [terminates.declarations.repeatWhile_eq, present, inductionHypothesis]
      rfl

/-- A tree of a source file was there before the declarations, or comes from one of them. -/
theorem exists_origin
    {offset : Nat}
    {start : Cursor}
    {tree : Tree}
    (member : tree ∈ (repeatWhile (!·.atEnd) (declaration typeRule) start).built.toList) :
    tree ∈ start.built.toList ∨
      ∃ cursor, Passes start cursor ∧ cursor.atEnd = false ∧ ComesFrom offset cursor tree := by
  unfold repeatWhile at member
  generalize unit : () = state at member
  have loops := terminates.declarations state start
  generalize loop (whileTurn (!·.atEnd) (declaration typeRule)) state start = result at loops member
  clear unit
  induction loops with
  | done stops =>
      unfold whileTurn at stops
      split at stops <;> cases stops
      exact .inl member
  | @again _ _ cursor behind _ goesOn _ inductionHypothesis =>
      unfold whileTurn at goesOn
      split at goesOn
      · next present =>
          cases goesOn
          have present : cursor.atEnd = false := by simpa using present
          rcases inductionHypothesis member with before | ⟨later, passes, rest⟩
          · rcases adds_declaration.sort_of_mem before with earlier | comesFrom
            · exact .inl earlier
            · exact .inr ⟨cursor, .refl, present, comesFrom⟩
          · exact .inr ⟨later, .head ⟨present, rfl⟩ passes, rest⟩
      · cases goesOn

end Grammar

namespace Parse

variable
  {text : String}
  {offset : Nat}
  {tree : Tree}

/-- The children of a source file are the trees built on the way to its end. -/
theorem children_ofText
    (text : String) :
    (ofText text).tree.children = (sourceFile typeRule (rootOf text)).built.toList := by
  have advances :=
    ((respects_sourceFile invariant_advances.compatible respects_typeRule_advances).alone
      (rootOf text) (rootOf text) (placed_rootOf text).advances_self).2
  have closed := @closeNode_eq _ _ _ _ #[] _ advances.parents rfl rfl
  simp [ofText, endOf_eq, closed, Tree.children]

/-- Every node of a declaration comes from a declaration of the run. -/
theorem exists_declaration
    (member : tree ∈ (ofText text).tree.children)
    (isDeclared : tree.kind? = some .funcDecl ∨ tree.kind? = some .valueDecl) :
    ∃ cursor, Passes (opening (rootOf text)) cursor ∧ cursor.atEnd = false ∧
      ComesFrom offset cursor tree := by
  have notAmong {kinds : Kind → Prop} (none : ¬kinds .funcDecl ∧ ¬kinds .valueDecl) :
      ¬Among kinds tree := fun among =>
    isDeclared.elim (fun same => none.1 (among _ same)) fun same => none.2 (among _ same)
  rw [children_ofText, sourceFile_eq] at member
  rcases (@Adds.skipTrivia (fun _ => False) _).sort_of_mem member with before | among
  · rcases exists_origin before with inOpening | origin
    · have opened : AddsAll (fun kind => kind = .packageClause ∨ kind = .error) opening :=
        addsAll_opening (.inl rfl) (.inr rfl)
      rcases (opened (rootOf text)).sort_of_mem inOpening with inNothing | among
      · cases inNothing
      · exact absurd among (notAmong (by decide))
    · exact origin
  · exact absurd among (notAmong ⟨id, id⟩)

/-- A function with a body comes from a declaration of the run that comes to this body. -/
theorem exists_comesToBody
    (member : tree ∈ (ofText text).tree.children)
    (has : tree.HasBodyAt offset) :
    ∃ cursor, Passes (opening (rootOf text)) cursor ∧ cursor.atEnd = false ∧
      ComesToBody (StandsAt offset) cursor := by
  obtain ⟨cursor, passes, present, comesFrom⟩ := exists_declaration member (.inl has.1)
  exact ⟨cursor, passes, present, comesFrom.1 has⟩

/-- A declaration of values comes from a declaration of the run that begins there. -/
theorem exists_comesToValueDecl
    (member : tree ∈ (ofText text).tree.children)
    (isDecl : tree.IsValueDeclAt offset) :
    ∃ cursor, Passes (opening (rootOf text)) cursor ∧ cursor.atEnd = false ∧
      ComesToValueDecl (StandsAt offset) cursor := by
  obtain ⟨cursor, passes, present, comesFrom⟩ := exists_declaration member (.inr isDecl.1)
  exact ⟨cursor, passes, present, comesFrom.2 isDecl⟩

end Parse

end Implementers.Syntax
