import Implementers.Proofs.Syntax.Rejoining

namespace Implementers.Syntax

/-!
# Bodies and values are opaque

The parser passes over the body of a function from brace to brace, and over a declaration of values
up to its terminator.  So two texts that differ there only have the same faults and declare the same
at shifted offsets, if the parser comes to the declaration in both of them.  A parameter list with a
bracket left open may keep it from doing so: the search for the closing bracket also looks into the
bodies behind the list.
-/

open Cursor Grammar

namespace Grammar

theorem respects_opening
    {related : Relation}
    (compatible : Compatible related) :
    Respects related opening opening := by
  intro base left right keeps
  have begun := respects_skipTerminators compatible keeps
  simp only [opening, compatible.sees begun]
  split
  · exact respects_packageClause compatible begun
  · exact compatible.report begun _

/-- The declarations of a source file up to its end. -/
def declarations
    (cursor : Cursor) :
    Cursor :=
  (repeatWhile (!·.atEnd) (declaration typeRule) cursor).skipTrivia

/-- The run over the declarations goes on as it does from a cursor on its way. -/
theorem Passes.declarations_eq
    {before after : Cursor}
    (passes : Passes before after) :
    declarations before = declarations after := by
  rw [declarations, passes.repeatWhile_eq, declarations]

theorem respects_declarations
    {related : Relation}
    (compatible : Compatible related) :
    Respects related declarations declarations := by
  intro base left right keeps
  refine compatible.skipTrivia (compatible.repeatWhile (fun _ _ _ keeps => ?_)
    (respects_declaration compatible (respects_typeRule_self compatible)) keeps)
  rw [compatible.atEnd keeps]

/-- Whole declarations advance. -/
theorem Passes.advances
    {before after : Cursor}
    (passes : Passes before after)
    (placed : before.Placed) :
    Advances before after := by
  induction passes with
  | refl => exact placed.advances_self
  | tail _ step inductionHypothesis =>
      obtain ⟨_, rfl⟩ := step
      have declared := respects_declaration invariant_advances.compatible respects_typeRule_advances
      exact (declared.alone _ _ inductionHypothesis).2

end Grammar

/-! ## Where the parser comes to a passage -/

namespace Token

/-- Every token of a text stops behind its beginning. -/
theorem offset_lt_stop
    {source : String}
    {token : Token}
    (member : token ∈ ofSource source) :
    token.offset < token.stop := by
  obtain ⟨character, rest, text⟩ := List.exists_cons_of_ne_nil (text_ne_nil_of_mem_ofSource member)
  have wide := character.utf8Size_pos
  rw [stop, text, Text.byteLength]
  omega

/-- A token of a text is the only one at its offset. -/
theorem behind_unique
    {source : String}
    {front front' back back' : List Token}
    {token token' : Token}
    (reads : ofSource source = front ++ token :: back)
    (reads' : ofSource source = front' ++ token' :: back')
    (sameOffset : token.offset = token'.offset) :
    token :: back = token' :: back' := by
  have contiguous := contiguous_ofSource source
  have offset := contiguous.offset_eq reads
  have offset' := contiguous.offset_eq reads'
  -- Tokens between two places at the same offset would have no width.
  have none {front front' between : List Token} (parts : front' = front ++ between)
      (inSource : ∀ token ∈ between, token ∈ ofSource source) (widths : width front' = width front) :
      between = [] := by
    cases between with
    | nil => rfl
    | cons token rest =>
        have wide := offset_lt_stop (inSource token (List.mem_cons_self ..))
        rw [parts, width_append, width_cons] at widths
        rw [stop] at wide
        omega
  have same := reads.symm.trans reads'
  have all (token : Token) : token ∈ front ++ front' → token ∈ ofSource source := fun member =>
    (List.mem_append.mp member).elim (fun first => reads ▸ List.mem_append_left _ first)
      fun second => reads' ▸ List.mem_append_left _ second
  rcases List.append_eq_append_iff.mp same with ⟨between, parts, rest⟩ | ⟨between, parts, rest⟩
  · obtain rfl := none parts (fun token member => all token (by simp [parts, member])) (by omega)
    exact rest
  · obtain rfl := none parts (fun token member => all token (by simp [parts, member])) (by omega)
    exact rest.symm

end Token

namespace Passage

variable
  {text other : String}
  {ours theirs : Passage}

/-- Whether a passage stands between the outermost braces of a body. -/
structure IsBody
    (passage : Passage) :
    Prop where
  opens : passage.last.kind = .leftBrace
  balances : Balances .leftBrace .rightBrace passage.inner
  closes : passage.back.head?.map Token.kind = some .rightBrace

/-- Whether a passage stands between the keyword and the terminator of a declaration of values. -/
structure IsValue
    (passage : Passage) :
    Prop where
  keyword : passage.last.kind = .varKeyword ∨ passage.last.kind = .constKeyword
  nested : Nested (fun kind => !kind.isTerminator) passage.inner
  ends : (firstKind? passage.back).any Kind.isTerminator = true

/-- Whether the parser may pass over a passage. -/
def Skippable
    (passage : Passage) :
    Prop :=
  passage.IsBody ∨ passage.IsValue

/-- Whether the tree of a text has a body or a declaration of values at a passage. -/
def DeclaredIn
    (text : String)
    (passage : Passage) :
    Prop :=
  ∃ tree ∈ (Parse.ofText text).tree.children,
    tree.HasBodyAt passage.last.offset ∨ tree.IsValueDeclAt passage.last.offset

instance
    (text : String)
    (passage : Passage) :
    Decidable (passage.DeclaredIn text) :=
  inferInstanceAs (Decidable (∃ tree ∈ (Parse.ofText text).tree.children, _))

/-- Whether the run over a text comes to a body or to values at a passage. -/
def ComesIn
    (text : String)
    (passage : Passage) :
    Prop :=
  ∃ cursor, Passes (opening (Parse.rootOf text)) cursor ∧
    Comes (passage.last :: (passage.inner ++ passage.back)) cursor

/-- A declaration in the tree is one that the run has come to. -/
theorem comesIn_of_declaredIn
    (cut : Token.ofSource text = ours.tokens)
    (declared : ours.DeclaredIn text) :
    ours.ComesIn text := by
  have suffix := invariant_suffix.compatible
  have opened : (opening (Parse.rootOf text)).rest <:+ Token.ofSource text :=
    suffix_of_respects (respects_opening suffix) (Parse.rootOf text)
  -- What stands at the offset of the last token in front of the passage is this token.
  have faces {cursor : Cursor} (behind : cursor.rest <:+ Token.ofSource text)
      (present : cursor.atEnd = false) (stands : cursor.StandsAt ours.last.offset) :
      cursor.Faces (ours.last :: (ours.inner ++ ours.back)) := by
    cases next : cursor.skipTrivia.rest with
    | nil =>
        have nothing : ahead 0 cursor.rest = [] := (ahead_zero _).trans next
        simp [atEnd, peek?, nothing] at present
    | cons token rest =>
        obtain ⟨front, reads⟩ := (List.dropWhile_suffix isTrivia).trans behind
        have place : token.offset = ours.last.offset := by
          rw [← stands, Cursor.offset, next]
        exact next.trans (Token.behind_unique
          (reads.symm.trans (congrArg (front ++ ·) next)) cut place)
  obtain ⟨tree, member, has | isDecl⟩ := declared
  · obtain ⟨cursor, passes, _, body⟩ := Parse.exists_comesToBody member has
    refine ⟨cursor, passes, .inl { body with place := faces ?_ (atEnd_of_sees body.brace) body.place }⟩
    have approached := suffix_approach cursor
    rw [body.approach_eq] at approached
    exact (approached.trans passes.suffix).trans opened
  · obtain ⟨cursor, passes, present, values⟩ := Parse.exists_comesToValueDecl member isDecl
    exact ⟨cursor, passes,
      .inr ⟨values.keyword, faces (passes.suffix.trans opened) present values.place⟩⟩

/-! ## Two texts around passages -/

/--
Whether the search for the bracket that closes one behind an identifier in front of the passages
ends alike in both texts.
-/
def LooksAlike
    (ours theirs : Passage) :
    Prop :=
  ∀ ⦃before : List Token⦄ ⦃left right : Cursor⦄, before <:+ ours.front →
    left.rest = before ++ ours.last :: (ours.inner ++ ours.back) →
    right.rest = before ++ ours.last :: (theirs.inner ++ theirs.back) →
    left.sees .ident = true → left.identThenArrayType = right.identThenArrayType

/-- The token in front of a passage that may be passed over. -/
theorem Skippable.kind_last
    (skippable : ours.Skippable) :
    ours.last.kind = .leftBrace ∨ ours.last.kind = .varKeyword ∨
      ours.last.kind = .constKeyword :=
  skippable.imp IsBody.opens IsValue.keyword

theorem Skippable.firm
    (skippable : ours.Skippable) :
    Token.Firm ours.last.kind := by
  rcases skippable.kind_last with kind | kind | kind <;> rw [kind] <;>
    exact ⟨by decide, by decide, by decide⟩

/-- The tokens of two texts part behind the token in front of two passages. -/
def fork
    (ours theirs : Passage)
    (length : Nat)
    (skippable : ours.Skippable) :
    Fork where
  front := ours.front
  last := ours.last
  ours := ours.inner ++ ours.back
  theirs := theirs.inner ++ theirs.back
  theirLength := length
  significant := by
    rcases skippable.kind_last with kind | kind | kind <;> rw [isTrivia, kind] <;> rfl
  notIdent := by rcases skippable.kind_last with kind | kind | kind <;> rw [kind] <;> decide
  notOpening := by rcases skippable.kind_last with kind | kind | kind <;> rw [kind] <;> decide
  notClosing := by rcases skippable.kind_last with kind | kind | kind <;> rw [kind] <;> decide

/-- Two texts that are equal around passages that may be passed over in both. -/
structure Around
    (text other : String)
    (ours theirs : Passage) :
    Prop where
  cut : Token.ofSource text = ours.tokens
  cutToo : Token.ofSource other = theirs.tokens
  same : ours.SameAround theirs
  skippable : ours.Skippable
  skippableToo : theirs.Skippable

namespace Around

variable (around : Around text other ours theirs)

include around

theorem symm : Around other text theirs ours where
  cut := around.cutToo
  cutToo := around.cut
  same := ⟨around.same.front.symm, around.same.back.symm⟩
  skippable := around.skippableToo
  skippableToo := around.skippable

theorem front_eq : ours.front = theirs.front ∧ ours.last = theirs.last :=
  around.same.front_eq around.cut around.cutToo around.skippable.firm around.skippableToo.firm

/-- At their beginnings the runs over both texts are in front of the parting. -/
theorem parallel_rootOf :
    (fork ours theirs (Text.byteLength other.toList) around.skippable).Parallel
      (Parse.rootOf text) (Parse.rootOf other) where
  rests := by
    obtain ⟨front, last⟩ := around.front_eq
    refine ⟨ours.front, List.suffix_rfl, around.cut, ?_⟩
    show Token.ofSource other = ours.front ++ ours.last :: (theirs.inner ++ theirs.back)
    rw [front, last]
    exact around.cutToo
  built := rfl
  parents := by
    have offset : (Parse.startOf other).offset = (Parse.startOf text).offset :=
      (Parse.offset_rootOf other).trans (Parse.offset_rootOf text).symm
    simp only [Parse.rootOf, Cursor.openAt, Cursor.mark, offset]
    rfl
  errors := rfl
  length := rfl

/-- Where one run comes to its passage, the other one comes to its own alongside it. -/
theorem exists_alongside
    {left : Cursor}
    (passes : Passes (opening (Parse.rootOf text)) left)
    (comes : Comes (ours.last :: (ours.inner ++ ours.back)) left)
    (alike : ours.LooksAlike theirs ∨ theirs.ComesIn other) :
    ∃ right, Passes (opening (Parse.rootOf other)) right ∧
      (fork ours theirs (Text.byteLength other.toList) around.skippable).Parallel left right ∧
      (fork ours theirs (Text.byteLength other.toList) around.skippable).Parallel
        (approach left) (approach right) ∧
      Comes (theirs.last :: (theirs.inner ++ theirs.back)) right := by
  have begun := around.parallel_rootOf
  have last := around.front_eq.2
  generalize isFork : fork ours theirs _ around.skippable = fork at begun ⊢
  have parting : fork.last :: fork.ours = ours.last :: (ours.inner ++ ours.back) := by
    rw [← isFork]; rfl
  have partingToo : fork.last :: fork.theirs = theirs.last :: (theirs.inner ++ theirs.back) := by
    rw [← isFork, ← last]; rfl
  have looks : fork.LooksAlike ∨ theirs.ComesIn other := by
    rw [← isFork]; exact alike
  rw [← parting] at comes
  unfold ComesIn at looks
  rw [← partingToo] at looks ⊢
  have opened : fork.Parallel (opening (Parse.rootOf text)) (opening (Parse.rootOf other)) :=
    (@Fork.local_opening fork ((Parse.rootOf text).remaining + 1) Fork.anywhere).keeps begun
      (Nat.lt_succ_self _) trivial trivial
      ⟨comes.suffix_of_passes passes,
        looks.imp_right fun ⟨_, passesToo, comesToo⟩ => comesToo.suffix_of_passes passesToo⟩
  exact Fork.Parallel.alongside passes comes opened looks

end Around

/-! ## The declarations of both texts -/

/-- A run that comes to a brace comes to a body. -/
theorem comesToBody
    {cursor : Cursor}
    {last : Token}
    {behind : List Token}
    (comes : Comes (last :: behind) cursor)
    (opens : last.kind = .leftBrace) :
    ComesToBody (Faces (last :: behind)) cursor := by
  refine comes.resolve_right fun values => ?_
  have next := Faces.peek values.place
  rw [opens] at next
  simpa [sees, next] using values.keyword

/-- A run that comes to the keyword of values comes to values. -/
theorem comesToValueDecl
    {cursor : Cursor}
    {last : Token}
    {behind : List Token}
    (comes : Comes (last :: behind) cursor)
    (keyword : last.kind = .varKeyword ∨ last.kind = .constKeyword) :
    ComesToValueDecl (Faces (last :: behind)) cursor := by
  refine comes.resolve_left fun body => ?_
  have brace := body.brace
  rw [sees, Faces.peek body.place] at brace
  rcases keyword with kind | kind <;> rw [kind] at brace <;> cases brace

section Rejoined

variable
  (around : Around text other ours theirs)

include around

/-- Both runs come to their passages with the same behind them. -/
theorem Around.exists_arrived
    (comes : ours.ComesIn text)
    (alike : ours.LooksAlike theirs ∨ theirs.ComesIn other) :
    ∃ left right, Passes (opening (Parse.rootOf text)) left ∧
      Passes (opening (Parse.rootOf other)) right ∧
      (fork ours theirs (Text.byteLength other.toList) around.skippable).Arrived
        (ours.shift theirs) (Parse.rootOf text) left right ∧
      Comes (ours.last :: (ours.inner ++ ours.back)) left ∧
      Comes (ours.last :: (theirs.inner ++ theirs.back)) right := by
  obtain ⟨left, passes, comes⟩ := comes
  obtain ⟨right, passesToo, parallel, approached, comesToo⟩ :=
    around.exists_alongside passes comes alike
  have last := around.front_eq.2
  have member : ours.last ∈ Token.ofSource text := by
    rw [around.cut]
    simp [tokens]
  have opened : Advances (Parse.rootOf text) (opening (Parse.rootOf text)) :=
    ((respects_opening invariant_advances.compatible).alone _ _
      (Parse.placed_rootOf text).advances_self).2
  refine ⟨left, right, passes, passesToo, ?_, comes, last ▸ comesToo⟩
  exact
    { parallel, approached
      advances := opened.trans (passes.advances opened.behind)
      nothing := rfl
      root := List.forall_mem_singleton.mpr rfl
      fixed := fun offset before =>
        shift_of_lt (Nat.lt_of_le_of_lt before (Token.offset_lt_stop member))
      length := (around.same.shift_length around.cut around.cutToo last).symm }

/-- Behind the declarations of the passages both runs have rejoined. -/
theorem Around.exists_rejoined
    {left right : Cursor}
    (arrived : (fork ours theirs (Text.byteLength other.toList) around.skippable).Arrived
      (ours.shift theirs) (Parse.rootOf text) left right)
    (comes : Comes (ours.last :: (ours.inner ++ ours.back)) left)
    (comesToo : Comes (ours.last :: (theirs.inner ++ theirs.back)) right) :
    ∃ leftBehind rightBehind, Passes left leftBehind ∧ Passes right rightBehind ∧
      Rejoined (ours.shift theirs) leftBehind rightBehind := by
  have last := around.front_eq.2
  obtain ⟨sameText, rigid⟩ := around.same.back_same around.cut around.cutToo last
  rcases around.skippable with body | values
  · have bodyToo : theirs.IsBody := around.skippableToo.resolve_right fun values => by
      have keyword := values.keyword
      rw [← last, body.opens] at keyword
      simp at keyword
    obtain ⟨close, first, closes⟩ := Option.map_eq_some_iff.mp body.closes
    obtain ⟨rest, back⟩ := List.head?_eq_some_iff.mp first
    rw [back] at sameText rigid
    have same : theirs.back = close.shifted _ :: rest.map (Token.shifted _) :=
      sameText.eq_of_closes closes
    have pair : ours.last.kind.closing? = some close.kind := by
      rw [body.opens, closes]
      rfl
    have balances : Balances ours.last.kind close.kind ours.inner := by
      rw [body.opens, closes]
      exact body.balances
    have balancesToo : Balances ours.last.kind close.kind theirs.inner := by
      rw [body.opens, closes]
      exact bodyToo.balances
    refine ⟨_, _, .single ⟨Comes.present comes, rfl⟩, .single ⟨Comes.present comesToo, rfl⟩, ?_⟩
    exact arrived.rejoined_of_body (comesToBody comes body.opens)
      (comesToBody comesToo body.opens) (congrArg (ours.inner ++ ·) back)
      (congrArg (theirs.inner ++ ·) same) pair pair balances balancesToo
      fun token member => rigid token (List.mem_cons_of_mem _ member)
  · have valuesToo : theirs.IsValue := around.skippableToo.resolve_left fun body => by
      have keyword := values.keyword
      rw [last, body.opens] at keyword
      simp at keyword
    exact arrived.rejoined_of_values (comesToValueDecl comes values.keyword)
      (comesToValueDecl comesToo values.keyword) rfl rfl values.nested valuesToo.nested sameText
      values.ends valuesToo.ends rigid

/-- Both runs come to the end of their source rejoined. -/
theorem Around.rejoined
    (comes : ours.ComesIn text)
    (alike : ours.LooksAlike theirs ∨ theirs.ComesIn other) :
    Rejoined (ours.shift theirs) (sourceFile typeRule (Parse.rootOf text))
      (sourceFile typeRule (Parse.rootOf other)) := by
  obtain ⟨left, right, passes, passesToo, arrived, comesLeft, comesRight⟩ :=
    around.exists_arrived comes alike
  obtain ⟨leftBehind, rightBehind, further, furtherToo, rejoined⟩ :=
    around.exists_rejoined arrived comesLeft comesRight
  have ends {text : String} {cursor behind : Cursor}
      (passes : Passes (opening (Parse.rootOf text)) cursor) (further : Passes cursor behind) :
      sourceFile typeRule (Parse.rootOf text) = declarations behind :=
    passes.declarations_eq.trans further.declarations_eq
  rw [ends passes further, ends passesToo furtherToo]
  exact rejoined.through fun _ _ => respects_declarations Abreast.compatible

/--
Two texts that differ in passages only over which the parser passes in both have the same faults,
and declare the same at shifted offsets.
-/
theorem Around.declares_alike
    (comes : ours.ComesIn text)
    (alike : ours.LooksAlike theirs ∨ theirs.ComesIn other) :
    (Parse.ofText other).errors.map SyntaxError.fault =
        (Parse.ofText text).errors.map SyntaxError.fault ∧
      SourceFile.ofTree (Parse.ofText other).tree =
        (SourceFile.ofTree (Parse.ofText text).tree).moved (Span.shifted (ours.shift theirs)) := by
  have rejoined := around.rejoined comes alike
  have errors (text : String) :
      (Parse.ofText text).errors = (sourceFile typeRule (Parse.rootOf text)).errors.toList := by
    rw [Parse.ofText, Parse.endOf_eq]
    exact congrArg Array.toList (errors_closeNode _)
  have declared (text : String) :
      SourceFile.ofTree (Parse.ofText text).tree =
        SourceFile.ofParts (sourceFile typeRule (Parse.rootOf text)).declared := by
    rw [SourceFile.ofTree, Tree.forestParts_eq_map, Parse.children_ofText, Cursor.declared,
      SourceFile.ofParts_filter]
  rw [errors, errors, declared, declared, rejoined.declared, SourceFile.ofParts_shifted]
  exact ⟨rejoined.faults, rfl⟩

end Rejoined

end Passage

end Implementers.Syntax
