import Implementers.Proofs.Syntax.Comments
import Implementers.Proofs.Syntax.Displacement
import Implementers.Proofs.Syntax.Passing

namespace Implementers.Syntax

/-!
# Source texts that differ in one passage

Two source texts may be equal except for a passage between two of their tokens.  As long as the
passage is cut off by tokens in both texts, the tokens in front of it are the same, and the tokens
behind it are the same at shifted offsets.  Only the next line break may end a statement behind one
of the passages and not behind the other.
-/

open Cursor

namespace Lexeme

/-- The lexemes in front of a cut are read as before whatever stands behind a space. -/
theorem ofText_cut
    (more : List Char)
    {back : List Lexeme} :
    ∀ {front : List Lexeme} {text : List Char},
      ofText text = front ++ back →
      Settled front →
      (∀ last ∈ front.getLast?, last.kind ≠ .whitespace) →
      ofText (front.flatMap Lexeme.text ++ ' ' :: more) = front ++ ofText (' ' :: more)
  | [], _, _, _, _ => rfl
  | lexeme :: front, [], reads, _, _ => by
      rw [ofText] at reads
      cases reads
  | lexeme :: front, first :: rest, reads, settled, ends => by
      have others : ofText (rest.drop (extent first rest).2) = front ++ back := by
        rw [ofText_cons, List.cons_append] at reads
        exact (List.cons.inj reads).2
      have endsBehind : ∀ last ∈ front.getLast?, last.kind ≠ .whitespace := by
        intro last isLast
        apply ends last
        rw [Option.mem_def] at isLast ⊢
        rw [List.getLast?_cons, isLast]
        rfl
      have behind := ofText_cut more others settled.tail endsBehind
      suffices leads : Leads lexeme (front.flatMap Lexeme.text ++ ' ' :: more) by
        rw [List.flatMap_cons, List.append_assoc, leads, behind, List.cons_append]
      cases isBlank : isInlineSpace first with
      | false => exact leads_cut reads settled (by simpa using isBlank) more
      | true =>
          have length := length_take_extent first rest
          have whole := take_extent_append others
          rw [ofText_cons, List.cons_append] at reads
          obtain ⟨rfl, _⟩ := List.cons.inj reads
          rw [extent_inlineSpace isBlank] at ends length whole ⊢
          -- White space is not the last lexeme, so a character that is none ends it.
          have some : 0 < (front.flatMap Lexeme.text).length := by
            refine List.length_pos_iff.mpr fun none => ?_
            rw [eq_nil_of_text others none] at ends
            exact ends _ rfl rfl
          apply leads_of_extent
          rw [extent_inlineSpace isBlank, ← List.append_assoc, length]
          have inside :
              run isInlineSpace
                  (rest.take (run isInlineSpace rest) ++ front.flatMap Lexeme.text ++
                    back.flatMap Lexeme.text) <
                (rest.take (run isInlineSpace rest) ++ front.flatMap Lexeme.text).length := by
            rw [whole, List.length_append, length]
            omega
          rw [run_inside more inside, whole]

end Lexeme

namespace Token

open Lexeme

/-! ## The tokens in front of a passage -/

/-- Lexemes in front of a cut are read as before whatever stands behind a space. -/
theorem sourceLexemes_cut
    {text : List Char}
    {front back : List Lexeme}
    (reads : sourceLexemes text = front ++ back)
    (some : front ≠ [])
    (settled : Settled front)
    (ends : ∀ last ∈ front.getLast?, last.kind ≠ .whitespace) :
    sourceLexemes (front.flatMap Lexeme.text ++ [' ']) = front ++ ofText [' '] := by
  obtain ⟨lexeme, front, rfl⟩ := List.exists_cons_of_ne_nil some
  cases text with
  | nil => cases reads
  | cons first rest =>
      rw [sourceLexemes] at reads
      by_cases isMark : (first == byteOrderMark) = true
      · rw [if_pos isMark, List.cons_append] at reads
        obtain ⟨rfl, others⟩ := List.cons.inj reads
        have endsBehind : ∀ last ∈ front.getLast?, last.kind ≠ .whitespace := by
          intro last isLast
          apply ends last
          rw [Option.mem_def] at isLast ⊢
          rw [List.getLast?_cons, isLast]
          rfl
        rw [List.flatMap_cons, List.append_assoc, List.singleton_append, sourceLexemes,
          if_pos isMark, ofText_cut [] others settled.tail endsBehind, List.cons_append]
      · rw [if_neg isMark] at reads
        have begins : lexeme.text = first :: rest.take (extent first rest).2 := by
          rw [ofText_cons, List.cons_append] at reads
          exact congrArg Lexeme.text (List.cons.inj reads).1.symm
        rw [← ofText_cut [] reads settled ends, List.flatMap_cons, begins, List.cons_append,
          List.cons_append, sourceLexemes, if_neg isMark]

/-- The last of some tokens is of the kind that its lexeme has there. -/
theorem kind_of_last
    {offset : Nat}
    {pending : Bool}
    {lexemes : List Lexeme}
    {last : Token}
    (isLast : (ofLexemes offset pending lexemes).getLast? = some last) :
    ∀ lexeme ∈ lexemes.getLast?, ∃ before, last.kind = kindOf before lexeme := by
  intro lexeme isLexeme
  obtain ⟨front, rfl⟩ := List.getLast?_eq_some_iff.mp isLexeme
  obtain ⟨behind, parts⟩ := ofLexemes_append [lexeme] front offset pending
  rw [parts, List.getLast?_append_of_ne_nil _ (by simp [ofLexemes])] at isLast
  exact ⟨_, (congrArg Token.kind (Option.some.inj isLast)).symm⟩

/-- Whether a token ends where it does whatever stands behind it, and does not merge with blanks. -/
def Firm
    (kind : Kind) :
    Prop :=
  kind ≠ .lineComment ∧ kind ≠ .error ∧ kind ≠ .whitespace

/-- The tokens of equal texts in front of firm tokens are the same. -/
theorem front_unique
    {source other : String}
    {front front' back back' : List Token}
    {last last' : Token}
    (reads : ofSource source = front ++ [last] ++ back)
    (readsToo : ofSource other = front' ++ [last'] ++ back')
    (firm : Firm last.kind)
    (firmToo : Firm last'.kind)
    (sameText : (front ++ [last]).flatMap Token.text = (front' ++ [last']).flatMap Token.text) :
    front = front' ∧ last = last' := by
  have settles {source : String} {front back : List Token} {last : Token}
      (reads : ofSource source = front ++ [last] ++ back) (firm : Firm last.kind) :
      ∃ lexemes, ofLexemes 0 false lexemes = front ++ [last] ∧
        sourceLexemes ((front ++ [last]).flatMap Token.text ++ [' ']) = lexemes ++ ofText [' '] := by
    obtain ⟨inFront, inBack, behind, cut, parts, _⟩ := lexemes_of_boundary reads
    have isLast : (ofLexemes 0 false inFront).getLast? = some last := by
      rw [parts, List.getLast?_append, List.getLast?_singleton]
      rfl
    obtain ⟨some, settled⟩ := settled_of_last isLast ⟨firm.1, firm.2.1⟩
    have ends : ∀ lexeme ∈ inFront.getLast?, lexeme.kind ≠ .whitespace := by
      intro lexeme isLexeme isBlank
      obtain ⟨before, sameKind⟩ := kind_of_last isLast lexeme isLexeme
      exact firm.2.2 (by simp [sameKind, kindOf, isBlank])
    have texts : (front ++ [last]).flatMap Token.text = inFront.flatMap Lexeme.text := by
      rw [← parts, List.flatMap_def, (ofLexemes_facts inFront).1, ← List.flatMap_def]
    exact ⟨inFront, parts, by rw [texts, sourceLexemes_cut cut some settled ends]⟩
  obtain ⟨lexemes, parts, cut⟩ := settles reads firm
  obtain ⟨lexemes', parts', cut'⟩ := settles readsToo firmToo
  rw [sameText, cut'] at cut
  rw [List.append_cancel_right cut, parts] at parts'
  obtain ⟨sameFront, sameLast⟩ := List.append_inj' parts' rfl
  exact ⟨sameFront, List.singleton_inj.mp sameLast⟩

/-! ## The tokens behind a passage -/

/-- Behind the first lexemes of a source text the others are read from their texts. -/
theorem sourceLexemes_behind
    {text : List Char}
    {front back : List Lexeme}
    (reads : sourceLexemes text = front ++ back)
    (some : front ≠ []) :
    ofText (back.flatMap Lexeme.text) = back := by
  obtain ⟨lexeme, front, rfl⟩ := List.exists_cons_of_ne_nil some
  cases text with
  | nil => cases reads
  | cons first rest =>
      rw [sourceLexemes] at reads
      split at reads
      · exact ofText_behind (List.cons.inj reads).2
      · exact ofText_behind reads

/-- Behind some tokens the others are those of their texts at the next offset. -/
theorem ofSource_behind
    {source : String}
    {front back : List Token}
    (reads : ofSource source = front ++ back)
    (some : front ≠ []) :
    ∃ pending, back = ofLexemes (width front) pending (ofText (back.flatMap Token.text)) := by
  obtain ⟨inFront, inBack, behind, cut, parts, partsBehind⟩ := lexemes_of_boundary reads
  have someBefore : inFront ≠ [] := by
    rintro rfl
    exact some parts.symm
  have texts : back.flatMap Token.text = inBack.flatMap Lexeme.text := by
    rw [← partsBehind, List.flatMap_def, (ofLexemes_facts inBack).1, ← List.flatMap_def]
  refine ⟨pendingBehind false inFront, ?_⟩
  rw [texts, sourceLexemes_behind cut someBefore]
  cases inBack with
  | nil => exact partsBehind.symm
  | cons lexeme rest =>
      -- The offset of the first token is where those in front of it end.
      have contiguous := contiguous_ofSource source
      rw [reads, contiguous_append, Nat.zero_add, ← partsBehind] at contiguous
      obtain rfl : behind = width front := contiguous.2.1
      exact partsBehind.symm

/-- A shift that moves all offsets from one on behind another one. -/
def Carries
    (shift : Nat → Nat)
    (offset other : Nat) :
    Prop :=
  ∀ more, shift (offset + more) = other + more

namespace Carries

variable
  {shift : Nat → Nat}
  {offset other : Nat}
  (carries : Carries shift offset other)

include carries

theorem start : shift offset = other :=
  carries 0

theorem behind
    (length : Nat) :
    Carries shift (offset + length) (other + length) := fun more => by
  rw [Nat.add_assoc, carries, Nat.add_assoc]

end Carries

/-- The tokens of the same lexemes at other offsets. -/
theorem ofLexemes_shifted
    {shift : Nat → Nat}
    (pending : Bool)
    (lexemes : List Lexeme) :
    ∀ {offset other : Nat}, Carries shift offset other →
      ofLexemes other pending lexemes =
        (ofLexemes offset pending lexemes).map (Token.shifted shift) := by
  induction lexemes generalizing pending with
  | nil => exact fun _ => rfl
  | cons lexeme rest inductionHypothesis =>
      intro offset other carries
      simp only [ofLexemes, List.map_cons, Token.shifted, carries.start,
        inductionHypothesis _ (carries.behind _)]

/-- Tokens keep their length where a shift moves all offsets alike. -/
theorem rigid_ofLexemes
    {shift : Nat → Nat}
    {pending : Bool}
    {lexemes : List Lexeme} :
    ∀ {offset other : Nat}, Carries shift offset other →
      ∀ token ∈ ofLexemes offset pending lexemes, token.Rigid shift := by
  induction lexemes generalizing pending with
  | nil => exact fun _ => nofun
  | cons lexeme rest inductionHypothesis =>
      intro offset other carries
      refine List.forall_mem_cons.mpr ⟨?_, inductionHypothesis (carries.behind _)⟩
      rw [Token.Rigid, Token.stop, Token.stop, Token.shifted, carries.start, carries]

/--
The tokens of the same text at shifted offsets, where a first line break behind some trivia may end
a statement for one of them only.
-/
inductive SameText
    (shift : Nat → Nat) :
    List Token → List Token → Prop where
  | same
      (tokens : List Token) :
      SameText shift tokens (tokens.map (Token.shifted shift))
  | breaks
      {gap rest : List Token}
      {lineBreak : Token}
      (trivia : ∀ token ∈ gap, isTrivia token = true)
      (isBreak : lineBreak.kind = .newline) :
      SameText shift (gap ++ lineBreak :: rest)
        ((gap ++ { lineBreak with kind := .whitespace } :: rest).map (Token.shifted shift))
  | breaksToo
      {gap rest : List Token}
      {lineBreak : Token}
      (trivia : ∀ token ∈ gap, isTrivia token = true)
      (isBreak : lineBreak.kind = .newline) :
      SameText shift (gap ++ { lineBreak with kind := .whitespace } :: rest)
        ((gap ++ lineBreak :: rest).map (Token.shifted shift))

/-- Trivia in front stands in front of the same text as well. -/
theorem SameText.cons
    {shift : Nat → Nat}
    {token : Token}
    {ours theirs : List Token}
    (sameText : SameText shift ours theirs)
    (isGap : isTrivia token = true) :
    SameText shift (token :: ours) (token.shifted shift :: theirs) := by
  have wider {gap : List Token} (trivia : ∀ token ∈ gap, isTrivia token = true) :
      ∀ other ∈ token :: gap, isTrivia other = true :=
    List.forall_mem_cons.mpr ⟨isGap, trivia⟩
  cases sameText with
  | same => exact .same _
  | breaks trivia isBreak => exact .breaks (wider trivia) isBreak
  | breaksToo trivia isBreak => exact .breaksToo (wider trivia) isBreak

/-- Where a closing brace comes first, the tokens are the same behind it. -/
theorem SameText.eq_of_closes
    {shift : Nat → Nat}
    {close : Token}
    {rest theirs : List Token}
    (sameText : SameText shift (close :: rest) theirs)
    (closes : close.kind = .rightBrace) :
    theirs = (close :: rest).map (Token.shifted shift) := by
  have first {gap others : List Token} {lineBreak : Token}
      (reads : close :: rest = gap ++ lineBreak :: others)
      (trivia : ∀ token ∈ gap, isTrivia token = true) : lineBreak.kind = .rightBrace := by
    cases gap with
    | nil =>
        cases reads
        exact closes
    | cons token _ =>
        cases reads
        have isGap := trivia close (List.mem_cons_self ..)
        rw [isTrivia, closes] at isGap
        cases isGap
  generalize reads : close :: rest = ours at sameText
  cases sameText with
  | same => rfl
  | breaks trivia isBreak =>
      have closes := first reads trivia
      rw [isBreak] at closes
      cases closes
  | breaksToo trivia isBreak => cases first reads trivia

/-- Lexemes are the same text whether or not a line break would end a statement in front of them. -/
theorem sameText_ofLexemes
    {shift : Nat → Nat}
    (lexemes : List Lexeme) :
    ∀ {offset other : Nat} (pending pendingToo : Bool), Carries shift offset other →
      SameText shift (ofLexemes offset pending lexemes) (ofLexemes other pendingToo lexemes) := by
  induction lexemes with
  | nil => exact fun _ _ _ => .same []
  | cons lexeme rest inductionHypothesis =>
      intro offset other pending pendingToo carries
      have first (kind : Kind) :
          (⟨kind, lexeme.text, other⟩ : Token) = Token.shifted shift ⟨kind, lexeme.text, offset⟩ := by
        rw [Token.shifted, carries.start]
      by_cases isBreak : lexeme.kind = .newline
      · -- A line break counts for at most one of them, and none is pending behind it.
        have behind (pending : Bool) :
            pendingAfter pending (kindOf pending lexeme) = false := by
          cases pending <;> simp [kindOf, isBreak, pendingAfter, Kind.isTrivia, Kind.triggersSemicolon]
        have kinds : kindOf true lexeme = .newline ∧ kindOf false lexeme = .whitespace := by
          simp [kindOf, isBreak]
        simp only [ofLexemes, behind, ofLexemes_shifted false rest (carries.behind _), first,
          ← List.map_cons]
        cases pending <;> cases pendingToo <;> simp only [kinds]
        · exact .same _
        · exact @SameText.breaksToo _ [] _ ⟨.newline, lexeme.text, offset⟩ (List.forall_mem_nil _) rfl
        · exact @SameText.breaks _ [] _ ⟨.newline, lexeme.text, offset⟩ (List.forall_mem_nil _) rfl
        · exact .same _
      · have kinds (pending : Bool) : kindOf pending lexeme = lexeme.kind := by
          simp [kindOf, isBreak]
        simp only [ofLexemes, kinds, first]
        cases trivia : lexeme.kind.isTrivia with
        | true => exact (inductionHypothesis _ _ (carries.behind _)).cons trivia
        | false =>
            simp only [pendingAfter, trivia, Bool.false_eq_true, ↓reduceIte,
              ofLexemes_shifted _ rest (carries.behind _), ← List.map_cons]
            exact .same _

end Token

/-! ## Passages -/

/--
The tokens of a source text, cut in front of a passage, at whose front a token stands, and behind
it.
-/
structure Passage where
  front : List Token
  /-- The last token in front of the passage. -/
  last : Token
  inner : List Token
  back : List Token

namespace Passage

/-- All tokens of the source text. -/
def tokens
    (passage : Passage) :
    List Token :=
  passage.front ++ passage.last :: (passage.inner ++ passage.back)

/-- Whether the source texts around two passages are equal. -/
structure SameAround
    (ours theirs : Passage) :
    Prop where
  front :
    (ours.front ++ [ours.last]).flatMap Token.text =
      (theirs.front ++ [theirs.last]).flatMap Token.text
  back : ours.back.flatMap Token.text = theirs.back.flatMap Token.text

/-- The offset in the text around another passage of an offset in the text around a passage. -/
def shift
    (ours theirs : Passage)
    (offset : Nat) :
    Nat :=
  if offset < ours.last.stop then offset
  else offset + Token.width theirs.inner - Token.width ours.inner

section Cut

variable
  {text other : String}
  {ours theirs : Passage}

/-- A passage stands where the token in front of it stops. -/
theorem stop_last
    (cut : Token.ofSource text = ours.tokens) :
    ours.last.stop = Token.width (ours.front ++ [ours.last]) := by
  have offset := (Token.contiguous_ofSource text).offset_eq cut
  simp [Token.stop, offset]

/-- The tokens in front of two passages in equal texts are the same. -/
theorem SameAround.front_eq
    (around : ours.SameAround theirs)
    (cut : Token.ofSource text = ours.tokens)
    (cutToo : Token.ofSource other = theirs.tokens)
    (firm : Token.Firm ours.last.kind)
    (firmToo : Token.Firm theirs.last.kind) :
    ours.front = theirs.front ∧ ours.last = theirs.last :=
  Token.front_unique (cut.trans (List.append_cons _ _ _)) (cutToo.trans (List.append_cons _ _ _))
    firm firmToo around.front

/-- The tokens behind two passages in equal texts are the same up to the shift. -/
theorem SameAround.back_same
    (around : ours.SameAround theirs)
    (cut : Token.ofSource text = ours.tokens)
    (cutToo : Token.ofSource other = theirs.tokens)
    (sameLast : ours.last = theirs.last) :
    Token.SameText (ours.shift theirs) ours.back theirs.back ∧
      ∀ token ∈ ours.back, token.Rigid (ours.shift theirs) := by
  have parts (passage : Passage) :
      passage.tokens = passage.front ++ passage.last :: passage.inner ++ passage.back := by
    simp [tokens]
  obtain ⟨pending, behind⟩ := Token.ofSource_behind (cut.trans (parts ours)) (by simp)
  obtain ⟨pendingToo, behindToo⟩ := Token.ofSource_behind (cutToo.trans (parts theirs)) (by simp)
  have width {text : String} {passage : Passage} (cut : Token.ofSource text = passage.tokens) :
      Token.width (passage.front ++ passage.last :: passage.inner) =
        passage.last.stop + Token.width passage.inner := by
    rw [stop_last cut]
    simp [Nat.add_assoc]
  have carries :
      Token.Carries (ours.shift theirs)
        (Token.width (ours.front ++ ours.last :: ours.inner))
        (Token.width (theirs.front ++ theirs.last :: theirs.inner)) := by
    intro more
    rw [width cut, width cutToo, ← sameLast, shift, if_neg (by omega)]
    omega
  rw [behind, behindToo, around.back]
  exact ⟨Token.sameText_ofLexemes _ pending pendingToo carries, Token.rigid_ofLexemes carries⟩

/-- The shift leaves what stands in front of the passage alone. -/
theorem shift_of_lt
    {offset : Nat}
    (before : offset < ours.last.stop) :
    ours.shift theirs offset = offset :=
  if_pos before

/-- The shift moves the end of the source to the end of the other source. -/
theorem SameAround.shift_length
    (around : ours.SameAround theirs)
    (cut : Token.ofSource text = ours.tokens)
    (cutToo : Token.ofSource other = theirs.tokens)
    (sameLast : ours.last = theirs.last) :
    ours.shift theirs (Text.byteLength text.toList) = Text.byteLength other.toList := by
  have length {text : String} {passage : Passage} (cut : Token.ofSource text = passage.tokens) :
      Text.byteLength text.toList =
        passage.last.stop + Token.width passage.inner +
          Text.byteLength (passage.back.flatMap Token.text) := by
    have whole := Token.flatMap_text_ofSource text
    rw [← whole, cut, stop_last cut]
    simp [tokens, Token.width]
    omega
  rw [length cut, length cutToo, around.back, ← sameLast, shift, if_neg (by omega)]
  omega

end Cut

end Passage

end Implementers.Syntax
