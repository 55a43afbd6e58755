import Implementers.Proofs.Syntax.Lossless
import Implementers.Proofs.Syntax.Passing

namespace Implementers.Syntax

/-!
# Faults come in the order of the source

Whatever a rule of the grammar notes, it notes at the next significant token or at the end of the
source, and a run never goes back.  So no fault that has been noted begins behind the token at which
the next one would be noted, and the faults of a text are in the order of their places.
-/

open Cursor Grammar

/-- Whether a span is that of a significant token of a text, or the empty one at its end. -/
def PointsInto
    (text : String)
    (span : Span) :
    Prop :=
  (∃ before token behind, Token.ofSource text = before ++ token :: behind ∧
      isTrivia token = false ∧
      span = ⟨Token.width before, Token.width (before ++ [token])⟩) ∨
    span = ⟨Text.byteLength text.toList, Text.byteLength text.toList⟩

namespace Cursor

/-! ## The place of the next fault -/

/-- Whether a cursor stands among the tokens of a text. -/
structure StandsIn
    (text : String)
    (cursor : Cursor) :
    Prop where
  source : cursor.rest <:+ Token.ofSource text
  length : cursor.sourceLength = Text.byteLength text.toList

section StandsIn

variable
  {text : String}
  {cursor later : Cursor}

/-- The next fault would be noted behind the tokens taken and the trivia that comes next. -/
theorem StandsIn.faultSpan
    (stands : StandsIn text cursor)
    {taken : List Token}
    (source : taken ++ cursor.rest = Token.ofSource text) :
    PointsInto text cursor.faultSpan ∧
      cursor.faultSpan.start = Token.width (taken ++ cursor.rest.takeWhile isTrivia) := by
  have parts : Token.ofSource text =
      (taken ++ cursor.rest.takeWhile isTrivia) ++ cursor.rest.dropWhile isTrivia := by
    rw [List.append_assoc, List.takeWhile_append_dropWhile, source]
  unfold Cursor.faultSpan
  rw [ahead_zero, stands.length]
  cases next : cursor.rest.dropWhile isTrivia with
  | nil =>
      rw [next, List.append_nil] at parts
      refine ⟨.inr rfl, ?_⟩
      rw [← parts, Token.width, Token.flatMap_text_ofSource]
  | cons token behind =>
      rw [next] at parts
      have offset := (Token.contiguous_ofSource text).offset_eq parts
      have significant : isTrivia token = false := by
        simpa [next] using cursor.rest.head_dropWhile_not isTrivia (by simp [next])
      refine ⟨.inl ⟨_, token, behind, parts, significant, ?_⟩, offset⟩
      simp [Token.stop, offset, Nat.add_assoc]

/-- The place of the next fault does not move back when tokens are taken. -/
theorem StandsIn.start_faultSpan_le
    (stands : StandsIn text cursor)
    (standsLater : StandsIn text later)
    (rest : later.rest <:+ cursor.rest) :
    cursor.faultSpan.start ≤ later.faultSpan.start := by
  obtain ⟨front, parts⟩ := rest
  obtain ⟨taken, source⟩ := stands.source
  have sourceLater : (taken ++ front) ++ later.rest = Token.ofSource text := by
    rw [List.append_assoc, parts, source]
  have skipped : cursor.rest.takeWhile isTrivia <+: front ++ later.rest.takeWhile isTrivia := by
    rw [← parts, List.takeWhile_append]
    split
    · exact List.prefix_rfl
    · exact (List.takeWhile_prefix _).trans (List.prefix_append _ _)
  obtain ⟨others, whole⟩ := skipped
  rw [(stands.faultSpan source).2, (standsLater.faultSpan sourceLater).2, List.append_assoc,
    ← whole, ← List.append_assoc, Token.width_append _ others]
  exact Nat.le_add_right _ _

end StandsIn

/-! ## The faults on the way -/

/--
What holds of the faults noted on the way to a cursor: each points into the text, they come in the
order of the source, and none of them begins behind the place of the next one.
-/
structure Reports
    (text : String)
    (cursor : Cursor) :
    Prop extends StandsIn text cursor where
  points : ∀ error ∈ cursor.errors.toList, PointsInto text error.span
  ordered : cursor.errors.toList.Pairwise
    fun earlier later => earlier.span.start ≤ later.span.start
  reached : ∀ error ∈ cursor.errors.toList, error.span.start ≤ cursor.faultSpan.start

/-- A step that takes tokens and notes no fault keeps what holds of the faults. -/
theorem Reports.moved
    {text : String}
    {cursor later : Cursor}
    (reports : Reports text cursor)
    (rest : later.rest <:+ cursor.rest)
    (length : later.sourceLength = cursor.sourceLength)
    (errors : later.errors = cursor.errors) :
    Reports text later := by
  have standsLater : StandsIn text later :=
    ⟨rest.trans reports.source, length.trans reports.length⟩
  refine { toStandsIn := standsLater, points := ?points, ordered := ?ordered, reached := ?reached }
  case points => exact errors ▸ reports.points
  case ordered => exact errors ▸ reports.ordered
  case reached =>
    intro error member
    rw [errors] at member
    exact (reports.reached error member).trans
      (reports.toStandsIn.start_faultSpan_le standsLater rest)

/-- Another fault comes behind those noted before. -/
theorem Reports.report
    {text : String}
    {cursor : Cursor}
    (reports : Reports text cursor)
    (fault : SyntaxFault) :
    Reports text (cursor.report fault) := by
  obtain ⟨taken, source⟩ := reports.source
  have among : ∀ error ∈ (cursor.report fault).errors.toList,
      error ∈ cursor.errors.toList ∨ error = ⟨fault, cursor.faultSpan⟩ := by
    simp [Cursor.report]
  refine
    { source := reports.source
      length := reports.length
      points := ?points
      ordered := ?ordered
      reached := ?reached }
  case points =>
    intro error member
    rcases among error member with earlier | rfl
    · exact reports.points error earlier
    · exact (reports.toStandsIn.faultSpan source).1
  case ordered =>
    simp only [Cursor.report, Array.toList_push]
    refine List.pairwise_append.mpr ⟨reports.ordered, List.pairwise_singleton _ _, ?_⟩
    intro earlier member last isLast
    obtain rfl := List.mem_singleton.mp isLast
    exact reports.reached earlier member
  case reached =>
    intro error member
    rcases among error member with earlier | rfl
    · exact reports.reached error earlier
    · exact Nat.le_refl _

theorem sourceLength_closeNode
    (cursor : Cursor) :
    cursor.closeNode.sourceLength = cursor.sourceLength := by
  unfold Cursor.closeNode
  split <;> rfl

theorem Reports.closeNode
    {text : String}
    {cursor : Cursor}
    (reports : Reports text cursor) :
    Reports text cursor.closeNode :=
  reports.moved (rest_closeNode cursor ▸ List.suffix_rfl) (sourceLength_closeNode cursor)
    (errors_closeNode cursor)

end Cursor

namespace Parse

end Parse

end Implementers.Syntax
