import Implementers.Proofs.Syntax.Origins

namespace Implementers.Syntax

/-!
# Two runs up to the same declaration

Where the tokens of two texts part behind the brace of a function's body, or behind the keyword of a
declaration of values, the runs over both texts come to this declaration alongside each other.  What
they have built until then is the same, unless the search for a closing bracket in front of it has
another outcome in one of them; and this makes no difference either if both runs come to such a
declaration.
-/

open Cursor Grammar

namespace Cursor

/-- Whether some tokens are the next ones behind trivia. -/
def Faces
    (tokens : List Token)
    (cursor : Cursor) :
    Prop :=
  cursor.skipTrivia.rest = tokens

end Cursor

namespace Grammar

/-- The beginning of a function up to its results, or up to the place where its name is missing. -/
def funcFront
    (opened : Cursor) :
    Cursor :=
  if (funcStart opened).sees .ident then funcSignature (funcStart opened) else funcStart opened

theorem respects_funcFront
    {related : Relation}
    (compatible : Compatible related)
    (types : Respects related typeRule typeRule) :
    Respects related funcFront funcFront := by
  intro base left right keeps
  have started := respects_funcStart compatible types keeps
  simp only [funcFront, compatible.sees started]
  split
  · exact respects_funcSignature compatible types started
  · exact started

/-- What a declaration takes in front of the body of a function. -/
def approach
    (cursor : Cursor) :
    Cursor :=
  if cursor.sees .funcKeyword then funcFront (cursor.openNode .funcDecl) else cursor

/-- Whether the declaration at a cursor comes to a body, or to values, with some tokens there. -/
def Comes
    (tokens : List Token)
    (cursor : Cursor) :
    Prop :=
  ComesToBody (Faces tokens) cursor ∨ ComesToValueDecl (Faces tokens) cursor

/-- A function is approached up to its signature. -/
theorem ComesToBody.approach_eq
    {there : Cursor → Prop}
    {cursor : Cursor}
    (comes : ComesToBody there cursor) :
    approach cursor = funcSignature (funcStart (cursor.openNode .funcDecl)) := by
  rw [approach, if_pos comes.function, funcFront, if_pos comes.named]

/-- The keyword of values is none of a function. -/
theorem ComesToValueDecl.approach_eq
    {there : Cursor → Prop}
    {cursor : Cursor}
    (comes : ComesToValueDecl there cursor) :
    approach cursor = cursor := by
  have notFunction : cursor.sees .funcKeyword = false := by
    rcases comes.keyword with seen | seen <;>
      simp only [sees, beq_iff_eq] at seen <;> simp [sees, seen]
  rw [approach, notFunction]
  rfl

/-- A function that comes to a body takes it, closes its node, and takes a terminator. -/
theorem ComesToBody.declaration_eq
    {there : Cursor → Prop}
    {cursor : Cursor}
    (comes : ComesToBody there cursor) :
    declaration typeRule cursor =
      terminator none ((approach cursor).node .block bumpBalanced).closeNode := by
  have seen := comes.function
  simp only [sees, beq_iff_eq] at seen
  simp only [declaration, seen]
  rw [funcDecl_eq, node, if_pos comes.named, funcBody, if_pos comes.brace, comes.approach_eq]

/-- A function comes to a body when it has a name and a brace where its approach ends. -/
theorem comesToBody_iff
    {there : Cursor → Prop}
    {cursor : Cursor} :
    ComesToBody there cursor ↔
      cursor.sees .funcKeyword = true ∧ (funcStart (cursor.openNode .funcDecl)).sees .ident = true ∧
        (approach cursor).sees .leftBrace = true ∧ there (approach cursor) := by
  constructor
  · intro comes
    rw [comes.approach_eq]
    exact ⟨comes.function, comes.named, comes.brace, comes.place⟩
  · rintro ⟨function, named, brace, place⟩
    rw [approach, if_pos function, funcFront, if_pos named] at brace place
    exact ⟨function, named, brace, place⟩

theorem ComesToValueDecl.declaration_eq
    {there : Cursor → Prop}
    {cursor : Cursor}
    (comes : ComesToValueDecl there cursor) :
    declaration typeRule cursor = valueDecl cursor := by
  rcases comes.keyword with seen | seen <;>
    simp only [sees, beq_iff_eq] at seen <;> simp only [declaration, seen]

section Suffixes

variable
  {cursor : Cursor}
  {tokens behind : List Token}
  {last : Token}

/-- A declaration takes what it takes in front of a body. -/
theorem suffix_declaration
    (cursor : Cursor) :
    (declaration typeRule cursor).rest <:+ (approach cursor).rest := by
  have compatible := invariant_suffix.compatible
  unfold approach
  split
  · next seen =>
      have isFunction : declaration typeRule cursor = funcDecl typeRule cursor := by
        simp only [sees, beq_iff_eq] at seen
        simp only [declaration, seen]
      rw [isFunction, funcDecl_eq]
      refine (suffix_of_respects (respects_terminator compatible none) _).trans ?_
      rw [node, rest_closeNode, funcFront]
      split
      · unfold funcBody
        split
        · rw [node, rest_closeNode]
          exact (suffix_of_respects compatible.bumpBalanced _).trans (List.dropWhile_suffix _)
        · exact List.suffix_rfl
      · exact (suffix_of_respects (compatible.recover _ _) _).trans
          (suffix_of_respects (respects_name compatible) _)
  · exact suffix_of_respects (respects_declaration compatible respects_typeRule_suffix) cursor

/-- The tokens at a body or at values are to come where the declaration approaches them. -/
theorem Comes.reaches
    (comes : Comes tokens cursor) :
    tokens <:+ (approach cursor).rest := by
  rcases comes with body | values
  · rw [body.approach_eq, ← body.place]
    exact List.dropWhile_suffix _
  · rw [values.approach_eq, ← values.place]
    exact List.dropWhile_suffix _

/-- A declaration that comes to a body or to values goes past its brace or its keyword. -/
theorem Comes.overruns
    (comes : Comes (last :: behind) cursor) :
    ¬last :: behind <:+ (declaration typeRule cursor).rest := by
  have compatible := invariant_suffix.compatible
  have ends (declared : Cursor) : (terminator none declared).rest.length ≤ declared.rest.length :=
    (suffix_of_respects (respects_terminator compatible none) declared).length_le
  suffices fewer : (declaration typeRule cursor).rest.length < (last :: behind).length from
    fun suffix => absurd suffix.length_le (Nat.not_le_of_lt fewer)
  rcases comes with body | values
  · rw [body.declaration_eq]
    refine Nat.lt_of_le_of_lt (ends _) ?_
    have present : ((approach cursor).openNode .block).atEnd = false := by
      rw [atEnd_openNode, body.approach_eq]
      exact atEnd_of_sees body.brace
    have taken := remaining_bumpBalanced_lt present
    rw [rest_closeNode, node, rest_closeNode, ← body.place]
    rwa [body.approach_eq] at taken ⊢
  · rw [values.declaration_eq, valueDecl]
    refine Nat.lt_of_le_of_lt (ends _) ?_
    have present : (cursor.openNode .valueDecl).atEnd = false := by
      rw [atEnd_openNode]
      exact values.keyword.elim atEnd_of_sees atEnd_of_sees
    have others := suffix_of_respects
      (compatible.repeatWhile (fun _ _ _ keeps => compatible.passesOver keeps Kind.isTerminator)
        (respects_tokenOrBrackets compatible))
      (cursor.openNode .valueDecl).bump
    rw [node, rest_closeNode, ← values.place]
    exact Nat.lt_of_le_of_lt others.length_le (remaining_bump_lt present)

theorem suffix_approach
    (cursor : Cursor) :
    (approach cursor).rest <:+ cursor.rest := by
  have compatible := invariant_suffix.compatible
  have opened : (cursor.openNode .funcDecl).rest <:+ cursor.rest := List.dropWhile_suffix _
  have started := (suffix_of_respects (respects_funcStart compatible respects_typeRule_suffix)
    (cursor.openNode .funcDecl)).trans opened
  unfold approach funcFront
  split
  · split
    · exact (suffix_of_respects (respects_funcSignature compatible respects_typeRule_suffix) _).trans
        started
    · exact started
  · exact List.suffix_rfl

/-- Whole declarations put no token back. -/
theorem Passes.suffix
    {before after : Cursor}
    (passes : Passes before after) :
    after.rest <:+ before.rest := by
  induction passes with
  | refl => exact List.suffix_rfl
  | tail _ step inductionHypothesis =>
      obtain ⟨_, rfl⟩ := step
      exact ((suffix_declaration _).trans (suffix_approach _)).trans inductionHypothesis

/-- A declaration on the way to a body or to values leaves the tokens there to come. -/
theorem Comes.suffix_of_passes
    {start : Cursor}
    (passes : Passes start cursor)
    (comes : Comes tokens cursor) :
    tokens <:+ start.rest :=
  (comes.reaches.trans (suffix_approach cursor)).trans passes.suffix

/-- Where a declaration comes to a body or to values, it is not at the end of the source. -/
theorem Comes.present
    (comes : Comes tokens cursor) :
    cursor.atEnd = false := by
  rcases comes with body | values
  · exact atEnd_of_sees body.function
  · exact values.keyword.elim atEnd_of_sees atEnd_of_sees

end Suffixes

end Grammar

namespace Fork

variable
  {fork : Fork}
  {left right : Cursor}

/-- What stands right before the parting faces it in one run when it does in the other one. -/
theorem Parallel.faces_iff
    (parallel : fork.Parallel left right) :
    left.Faces (fork.last :: fork.ours) ↔ right.Faces (fork.last :: fork.theirs) := by
  obtain ⟨before, _, ours, theirs⟩ := parallel.skipTrivia.rests
  simp only [Faces, ours, theirs, List.append_left_eq_self]

theorem local_openNode
    {bound : Nat}
    {guard : Cursor → Prop}
    (kind : Kind) :
    fork.Local bound guard (Cursor.openNode kind) where
  takes _ _ := List.dropWhile_suffix _
  keeps parallel _ _ _ _ := parallel.openNode kind

theorem local_funcFront
    (bound : Nat)
    {guard : Cursor → Prop} :
    fork.Local bound guard funcFront :=
  .congr (fun _ _ => rfl) <|
    .comp (local_funcStart bound)
      (.ite (·.sees .ident) (fun parallel _ => parallel.sees _) (local_funcSignature bound) .id)
      fun _ => rfl

theorem local_approach
    (bound : Nat)
    {guard : Cursor → Prop} :
    fork.Local bound guard approach :=
  .ite _ (fun parallel _ => parallel.sees _)
    (.comp (local_openNode .funcDecl) (local_funcFront bound) fun _ => rfl) .id

/-- Both runs come to the declaration in front of the parting, or none of them does. -/
theorem Parallel.comes_iff
    (parallel : fork.Parallel left right)
    (meets : fork.Meets (approach left) (approach right)) :
    Comes (fork.last :: fork.ours) left ↔ Comes (fork.last :: fork.theirs) right := by
  have approached : fork.Parallel (approach left) (approach right) :=
    (@local_approach fork (left.remaining + 1) anywhere).keeps parallel (Nat.lt_succ_self _)
      trivial trivial meets
  refine or_congr ?body ?values
  case values =>
    have sameVar := parallel.sees .varKeyword
    have sameConst := parallel.sees .constKeyword
    exact ⟨fun values => ⟨sameVar ▸ sameConst ▸ values.keyword, parallel.faces_iff.mp values.place⟩,
      fun values => ⟨sameVar.symm ▸ sameConst.symm ▸ values.keyword,
        parallel.faces_iff.mpr values.place⟩⟩
  case body =>
    have sameFunction := parallel.sees .funcKeyword
    rw [comesToBody_iff, comesToBody_iff, ← sameFunction]
    refine and_congr_right fun function => ?_
    have suffix {cursor : Cursor} (function : cursor.sees .funcKeyword = true) :
        (approach cursor).rest <:+ (funcStart (cursor.openNode .funcDecl)).rest := by
      rw [approach, if_pos function, funcFront]
      split
      · exact (@local_funcSignature fork 0 anywhere).takes _ trivial
      · exact List.suffix_rfl
    have started :
        fork.Parallel (funcStart (left.openNode .funcDecl)) (funcStart (right.openNode .funcDecl)) :=
      (@local_funcStart fork ((left.openNode .funcDecl).remaining + 1) anywhere).keeps
        (parallel.openNode .funcDecl) (Nat.lt_succ_self _) trivial trivial
        (meets.before (suffix function) (suffix (sameFunction ▸ function)))
    rw [started.sees, approached.sees, approached.faces_iff]

/--
Where one run comes to the declaration in front of the parting, the other one comes to it as well:
if they look ahead alike, or if the other one comes to such a declaration somewhere.
-/
theorem Parallel.alongside
    {cursor : Cursor}
    (passes : Passes left cursor)
    (comes : Comes (fork.last :: fork.ours) cursor) :
    ∀ {right : Cursor}, fork.Parallel left right →
      (fork.LooksAlike ∨ ∃ later, Passes right later ∧ Comes (fork.last :: fork.theirs) later) →
      ∃ other, Passes right other ∧ fork.Parallel cursor other ∧
        fork.Parallel (approach cursor) (approach other) ∧
        Comes (fork.last :: fork.theirs) other := by
  induction passes using Relation.ReflTransGen.head_induction_on with
  | refl =>
      intro right parallel alike
      have meets : fork.Meets (approach cursor) (approach right) := by
        refine ⟨comes.reaches, alike.imp_right fun ⟨later, passes, comesToo⟩ => ?_⟩
        rcases passes.cases_head with rfl | ⟨next, ⟨_, rfl⟩, passes⟩
        · exact comesToo.reaches
        · exact (comesToo.suffix_of_passes passes).trans (suffix_declaration right)
      have approached := (@local_approach fork (cursor.remaining + 1) anywhere).keeps parallel
        (Nat.lt_succ_self _) trivial trivial meets
      exact ⟨right, .refl, parallel, approached, (parallel.comes_iff meets).mp comes⟩
  | @head left next step passes inductionHypothesis =>
      intro right parallel alike
      obtain ⟨present, rfl⟩ := step
      have reaches : fork.Reaches (declaration typeRule left) := comes.suffix_of_passes passes
      -- The other run does not come to the declaration before this one does.
      have further :
          fork.LooksAlike ∨
            ∃ later, Passes (declaration typeRule right) later ∧
              Comes (fork.last :: fork.theirs) later := by
        refine alike.imp_right fun ⟨later, passes, comesToo⟩ => ?_
        rcases passes.cases_head with rfl | ⟨next, ⟨_, rfl⟩, passes⟩
        · have meets : fork.Meets (approach left) (approach right) :=
            ⟨reaches.trans (suffix_declaration left), .inr comesToo.reaches⟩
          exact absurd reaches ((parallel.comes_iff meets).mpr comesToo).overruns
        · exact ⟨later, passes, comesToo⟩
      have meets : fork.Meets (declaration typeRule left) (declaration typeRule right) :=
        ⟨reaches, further.imp_right fun ⟨_, passes, comesToo⟩ => comesToo.suffix_of_passes passes⟩
      have declared := (@local_declaration fork (left.remaining + 1) anywhere).keeps parallel
        (Nat.lt_succ_self _) trivial trivial meets
      obtain ⟨other, passesToo, rest⟩ := inductionHypothesis declared further
      exact ⟨other, .head ⟨parallel.atEnd ▸ present, rfl⟩ passesToo, rest⟩

end Fork

end Implementers.Syntax
