import Implementers.Syntax.Token
import Mathlib.Data.List.Basic

namespace Implementers

/-!
# The tokens of a text

Lexing loses nothing: every token has some text, the texts of the tokens side by side are the source
text, and each token stands where the one before it stops.
-/

namespace Text

/-- Characters behind one another take the bytes of both. -/
@[simp] theorem byteLength_append
    (first second : List Char) :
    byteLength (first ++ second) = byteLength first + byteLength second := by
  induction first with
  | nil => simp [byteLength]
  | cons character rest inductionHypothesis =>
      simp [byteLength, inductionHypothesis, Nat.add_assoc]

end Text

namespace Syntax

namespace Lexeme

/-- Every lexeme of a text has at least one character. -/
theorem text_ne_nil
    {text : List Char}
    {lexeme : Lexeme}
    (member : lexeme ∈ ofText text) :
    lexeme.text ≠ [] := by
  fun_induction ofText text with
  | case1 => cases member
  | case2 first rest kind length _ inductionHypothesis =>
      rcases List.mem_cons.mp member with rfl | later
      · exact List.cons_ne_nil _ _
      · exact inductionHypothesis later

end Lexeme

namespace Token

/-- The bytes that tokens take. -/
def width
    (tokens : List Token) :
    Nat :=
  Text.byteLength (tokens.flatMap Token.text)

@[simp] theorem width_nil : width [] = 0 := rfl

@[simp] theorem width_cons
    (token : Token)
    (rest : List Token) :
    width (token :: rest) = Text.byteLength token.text + width rest := by
  simp [width]

@[simp] theorem width_append
    (front back : List Token) :
    width (front ++ back) = width front + width back := by
  simp [width]

/-- Whether tokens stand side by side from an offset on. -/
def Contiguous : Nat → List Token → Prop
  | _, [] => True
  | offset, token :: rest => token.offset = offset ∧ Contiguous token.stop rest

/-- Tokens stand side by side when those in front do and the others go on where these stop. -/
theorem contiguous_append
    {offset : Nat}
    {front back : List Token} :
    Contiguous offset (front ++ back) ↔
      Contiguous offset front ∧ Contiguous (offset + width front) back := by
  induction front generalizing offset with
  | nil => simp [Contiguous]
  | cons token rest inductionHypothesis =>
      simp only [List.cons_append, Contiguous, inductionHypothesis, width_cons, ← Nat.add_assoc,
        and_assoc]
      constructor
      · rintro ⟨rfl, inFront, inBack⟩
        exact ⟨rfl, inFront, inBack⟩
      · rintro ⟨rfl, inFront, inBack⟩
        exact ⟨rfl, inFront, inBack⟩

/-- The offset of a token among others side by side is what those before it take. -/
theorem Contiguous.offset_eq
    {tokens front back : List Token}
    {token : Token}
    (contiguous : Contiguous 0 tokens)
    (place : tokens = front ++ token :: back) :
    token.offset = width front := by
  rw [place, contiguous_append, Nat.zero_add] at contiguous
  exact contiguous.2.1

/-- Tokens take their texts and their places from the lexemes. -/
theorem ofLexemes_facts
    (lexemes : List Lexeme) :
    ∀ {offset : Nat} {pending : Bool},
      (ofLexemes offset pending lexemes).map Token.text = lexemes.map Lexeme.text ∧
        Contiguous offset (ofLexemes offset pending lexemes) := by
  induction lexemes with
  | nil => exact ⟨rfl, trivial⟩
  | cons lexeme rest inductionHypothesis =>
      intro offset pending
      obtain ⟨texts, contiguous⟩ :=
        @inductionHypothesis (offset + Text.byteLength lexeme.text)
          (pendingAfter pending (kindOf pending lexeme))
      exact ⟨congrArg (lexeme.text :: ·) texts, rfl, contiguous⟩

/-- The lexemes of a source text, side by side, are the text, and none of them is empty. -/
theorem sourceLexemes_facts
    (text : List Char) :
    (sourceLexemes text).flatMap Lexeme.text = text ∧
      ∀ lexeme ∈ sourceLexemes text, lexeme.text ≠ [] := by
  cases text with
  | nil => exact ⟨rfl, fun _ member => nomatch member⟩
  | cons first rest =>
      simp only [sourceLexemes]
      split
      · refine ⟨by simp [Lexeme.flatMap_text_ofText], fun lexeme member => ?_⟩
        rcases List.mem_cons.mp member with rfl | later
        · exact List.cons_ne_nil _ _
        · exact Lexeme.text_ne_nil later
      · exact ⟨Lexeme.flatMap_text_ofText _, fun _ => Lexeme.text_ne_nil⟩

/-- The tokens of a source text, side by side, are the text. -/
theorem flatMap_text_ofSource
    (text : String) :
    (ofSource text).flatMap Token.text = text.toList := by
  have texts := (@ofLexemes_facts (sourceLexemes text.toList) 0 false).1
  rw [List.flatMap_def, ofSource, texts, ← List.flatMap_def]
  exact (sourceLexemes_facts text.toList).1

/-- No token of a source text is empty. -/
theorem text_ne_nil_of_mem_ofSource
    {text : String}
    {token : Token}
    (member : token ∈ ofSource text) :
    token.text ≠ [] := by
  have listed : token.text ∈ (ofSource text).map Token.text := List.mem_map_of_mem member
  rw [ofSource, (ofLexemes_facts _).1] at listed
  obtain ⟨lexeme, lexemeMember, same⟩ := List.mem_map.mp listed
  exact same ▸ (sourceLexemes_facts text.toList).2 lexeme lexemeMember

/-- The tokens of a source text stand side by side from its beginning on. -/
theorem contiguous_ofSource
    (text : String) :
    Contiguous 0 (ofSource text) :=
  (ofLexemes_facts _).2

end Token

end Syntax

end Implementers
