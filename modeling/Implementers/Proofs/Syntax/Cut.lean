import Implementers.Proofs.Syntax.Layout

/-!
# A text cut between two lexemes

Where a text is cut at the end of a lexeme and something else is put behind it after a space, the
lexemes in front of the cut stay as they are.  The last one of them must not be one that takes
whatever comes, such as a line comment, and must not be an error.
-/

namespace Implementers.Syntax

namespace Lexeme

/-! ## Runs of characters -/

theorem run_cons
    (belongs : Char → Bool)
    (first : Char)
    (rest : List Char) :
    run belongs (first :: rest) = if belongs first then run belongs rest + 1 else 0 := by
  simp only [run, List.takeWhile_cons]
  split <;> rfl

/-- A run at the beginning of a text is as long as before where the text behind a cut changes. -/
theorem run_cut
    {belongs : Char → Bool}
    {other : List Char} :
    ∀ {front back : List Char},
      run belongs (front ++ back) ≤ front.length →
      (run belongs (front ++ back) = front.length → run belongs other = 0) →
      run belongs (front ++ other) = run belongs (front ++ back)
  | [], _, within, stops => by
      have none := Nat.le_zero.mp within
      exact (stops none).trans none.symm
  | character :: front, back, within, stops => by
      rw [List.cons_append, run_cons] at within stops
      rw [List.cons_append, List.cons_append, run_cons, run_cons]
      split
      · next isPart =>
          rw [if_pos isPart, List.length_cons] at within stops
          rw [run_cut (Nat.le_of_succ_le_succ within) fun all => stops (congrArg (· + 1) all)]
      · rfl

variable
  {front back : List Char}
  (more : List Char)

/-- A space ends a run that it is no part of. -/
theorem run_blank
    {belongs : Char → Bool}
    (notSpace : belongs ' ' = false)
    (within : run belongs (front ++ back) ≤ front.length) :
    run belongs (front ++ ' ' :: more) = run belongs (front ++ back) :=
  run_cut within fun _ => by simp [run_cons, notSpace]

/-- A run that ends in front of a cut does not depend on what follows. -/
theorem run_inside
    {belongs : Char → Bool}
    (within : run belongs (front ++ back) < front.length) :
    run belongs (front ++ ' ' :: more) = run belongs (front ++ back) :=
  run_cut (Nat.le_of_lt within) fun all => absurd all (Nat.ne_of_lt within)

/-- What does not depend on the text behind a cut does not when some characters are dropped. -/
theorem drop_blank
    {length : List Char → Nat}
    {count : Nat}
    (cut : ∀ {front back : List Char}, length (front ++ back) ≤ front.length →
      length (front ++ ' ' :: more) = length (front ++ back))
    (within : count + length ((front ++ back).drop count) ≤ front.length) :
    length ((front ++ ' ' :: more).drop count) = length ((front ++ back).drop count) := by
  have inFront := Nat.le_of_add_right_le within
  rw [List.drop_append_of_le_length inFront] at within
  rw [List.drop_append_of_le_length inFront, List.drop_append_of_le_length inFront]
  apply cut
  rw [List.length_drop]
  omega

/-- What is dropped in front of a character of a text is shorter than the text. -/
theorem lt_of_head?_drop
    {text : List Char}
    {count : Nat}
    {character : Char}
    (next : (text.drop count).head? = some character) :
    count < text.length := by
  rw [List.head?_drop] at next
  exact (List.getElem?_eq_some_iff.mp next).1

/-! ## Numerals -/

/-- A fraction in front of a cut does not depend on what follows. -/
theorem fractionLength_blank
    (within : fractionLength (front ++ back) ≤ front.length) :
    fractionLength (front ++ ' ' :: more) = fractionLength (front ++ back) := by
  cases front with
  | nil =>
      have none : fractionLength back = 0 := Nat.le_zero.mp within
      rw [List.nil_append, List.nil_append, none]
      rfl
  | cons character front =>
      by_cases isPoint : character = '.'
      · subst isPoint
        simp only [List.cons_append, fractionLength, List.length_cons] at within ⊢
        rw [run_blank more (by decide) (by omega : run isDecimalPart (front ++ back) ≤ _)]
      · simp [fractionLength, isPoint]

/-- The length of the sign of an exponent. -/
def signLength
    (rest : List Char) :
    Nat :=
  if rest.head? = some '+' ∨ rest.head? = some '-' then 1 else 0

/-- The length of an exponent behind its mark. -/
theorem exponentLength_cons
    (mark : Char)
    (rest : List Char) :
    exponentLength (mark :: rest) =
      if mark == 'e' || mark == 'E' then
        if run isDecimalPart (rest.drop (signLength rest)) = 0 then
          0
        else
          1 + signLength rest + run isDecimalPart (rest.drop (signLength rest))
      else
        0 := by
  cases rest with
  | nil => simp [exponentLength, signLength]
  | cons sign rest =>
      by_cases isPlus : sign = '+'
      · simp [exponentLength, signLength, isPlus]
      · by_cases isMinus : sign = '-'
        · simp [exponentLength, signLength, isMinus]
        · simp [exponentLength, signLength, isPlus, isMinus]

/-- An exponent in front of a cut does not depend on what follows. -/
theorem exponentLength_blank
    (within : exponentLength (front ++ back) ≤ front.length) :
    exponentLength (front ++ ' ' :: more) = exponentLength (front ++ back) := by
  cases front with
  | nil =>
      have none : exponentLength back = 0 := Nat.le_zero.mp within
      rw [List.nil_append, List.nil_append, none]
      rfl
  | cons mark front =>
      simp only [List.cons_append, exponentLength_cons, List.length_cons] at within ⊢
      split
      · next isMark =>
          rw [if_pos isMark] at within
          cases front with
          | nil =>
              have noSign : signLength (' ' :: more) = 0 := rfl
              have noDigits : run isDecimalPart (' ' :: more) = 0 := by rw [run_cons]; rfl
              simp only [List.nil_append, noSign, List.drop_zero, noDigits, ↓reduceIte]
              simp only [List.nil_append, List.length_nil] at within
              split at within
              · next none => rw [if_pos none]
              · omega
          | cons sign front =>
              have sameSign (behind : List Char) :
                  signLength (sign :: front ++ behind) = signLength (sign :: front) :=
                rfl
              have short : signLength (sign :: front) ≤ 1 := by
                unfold signLength
                split <;> omega
              rw [sameSign, sameSign, List.drop_append_of_le_length (by simpa using by omega),
                List.drop_append_of_le_length (by simpa using by omega)]
              rw [sameSign, List.drop_append_of_le_length (by simpa using by omega)] at within
              rw [run_blank more (by decide)]
              split at within
              · next none => rw [none]; exact Nat.zero_le _
              · rw [List.length_drop]
                omega
      · rfl

/-- The length of a decimal numeral behind its first digit, its imaginary unit left out. -/
def decimalLength
    (rest : List Char) :
    Nat :=
  let digits := run isDecimalPart rest
  let fraction := fractionLength (rest.drop digits)
  digits + fraction + exponentLength (rest.drop (digits + fraction))

/-- The digits, the fraction and the exponent in front of a cut do not depend on what follows. -/
theorem decimalLength_blank
    (within : decimalLength (front ++ back) ≤ front.length) :
    run isDecimalPart (front ++ ' ' :: more) = run isDecimalPart (front ++ back) ∧
      decimalLength (front ++ ' ' :: more) = decimalLength (front ++ back) := by
  unfold decimalLength at within ⊢
  dsimp only at within ⊢
  have digits : run isDecimalPart (front ++ ' ' :: more) = run isDecimalPart (front ++ back) :=
    run_blank more (by decide) (by omega)
  rw [digits]
  generalize run isDecimalPart (front ++ back) = taken at within ⊢
  rw [drop_blank more (fractionLength_blank more) (Nat.le_of_add_right_le within)]
  generalize fractionLength ((front ++ back).drop taken) = behind at within ⊢
  exact ⟨rfl, by rw [drop_blank more (exponentLength_blank more) within]⟩

theorem decimalExtent_eq
    (rest : List Char) :
    decimalExtent rest =
      if (rest.drop (decimalLength rest)).head? == some 'i' then
        (.imaginary, decimalLength rest + 1)
      else if decimalLength rest = run isDecimalPart rest then
        (.int, decimalLength rest)
      else
        (.float, decimalLength rest) := by
  unfold decimalExtent decimalLength
  dsimp only
  split
  · rfl
  · congr 1
    simp only [beq_iff_eq, eq_iff_iff]
    omega

/-- A decimal numeral in front of a cut does not depend on what follows. -/
theorem decimalExtent_blank
    (within : (decimalExtent (front ++ back)).2 ≤ front.length) :
    decimalExtent (front ++ ' ' :: more) = decimalExtent (front ++ back) := by
  have short : decimalLength (front ++ back) ≤ front.length := by
    refine Nat.le_trans ?_ within
    rw [decimalExtent_eq]
    split
    · exact Nat.le_succ _
    · split <;> exact Nat.le_refl _
  obtain ⟨digits, length⟩ := decimalLength_blank more short
  rw [decimalExtent_eq] at within
  rw [decimalExtent_eq, decimalExtent_eq, length, digits, List.drop_append_of_le_length short,
    List.drop_append_of_le_length short]
  rw [List.drop_append_of_le_length short] at within
  cases left : front.drop (decimalLength (front ++ back)) with
  | nil =>
      have all := List.drop_eq_nil_iff.mp left
      rw [left] at within
      split at within
      · omega
      · next notImaginary =>
          rw [if_neg notImaginary]
          rfl
  | cons _ _ => rfl

/-- A numeral in front of a cut does not depend on what follows. -/
theorem numeralExtent_blank
    {digit : Char}
    (within : (numeralExtent digit (front ++ back)).2 ≤ front.length) :
    numeralExtent digit (front ++ ' ' :: more) = numeralExtent digit (front ++ back) := by
  cases front with
  | nil =>
      have isDecimal : numeralExtent digit back = decimalExtent back := by
        cases back with
        | nil => rfl
        | cons mark back =>
            simp only [numeralExtent, List.nil_append, List.length_nil] at within ⊢
            split
            · next isRadix =>
                rw [if_pos isRadix] at within
                omega
            · rfl
      have none : (decimalExtent ([] ++ back)).2 ≤ ([] : List Char).length := by
        rwa [List.nil_append, isDecimal] at within
      have same : decimalExtent (' ' :: more) = decimalExtent back :=
        decimalExtent_blank more none
      have notMark : isRadixMark ' ' = false := by decide
      rw [List.nil_append, List.nil_append, isDecimal, ← same]
      simp [numeralExtent, notMark]
  | cons mark front =>
      have notSpace : isRadixPart mark ' ' = false := by simp [isRadixPart]
      have decimal (short : (decimalExtent (mark :: (front ++ back))).2 ≤ front.length + 1) :
          decimalExtent (mark :: (front ++ ' ' :: more)) =
            decimalExtent (mark :: (front ++ back)) := by
        rw [← List.cons_append, ← List.length_cons] at short
        rw [← List.cons_append, ← List.cons_append, decimalExtent_blank more short]
      simp only [numeralExtent, List.cons_append, List.length_cons] at within ⊢
      cases marked : digit == '0' && isRadixMark mark with
      | false =>
          simp only [marked, Bool.false_and, Bool.false_eq_true, ↓reduceIte] at within ⊢
          exact decimal within
      | true =>
          simp only [marked, Bool.true_and] at within ⊢
          have short : run (isRadixPart mark) (front ++ back) ≤ front.length := by
            split at within
            · omega
            · next noDigits =>
                have none : run (isRadixPart mark) (front ++ back) = 0 := by simpa using noDigits
                rw [none]
                exact Nat.zero_le _
          rw [run_blank more notSpace short]
          split at within
          · next digits => rw [if_pos digits, if_pos digits]
          · next noDigits =>
              rw [if_neg noDigits, if_neg noDigits]
              exact decimal within

/-! ## Literals and comments -/

theorem quotedLength_cons
    {quote character : Char}
    (notEscape : character ≠ '\\')
    (rest : List Char) :
    quotedLength quote (character :: rest) =
      if character == quote || character == '\n' then 0 else 1 + quotedLength quote rest := by
  rw [quotedLength]
  · simp [notEscape]
  · exact fun _ _ isEscape => absurd isEscape notEscape

/-- What stands between quotes in front of a cut does not depend on what follows. -/
theorem quotedLength_cut
    (quote : Char)
    (other : List Char) :
    ∀ {front back : List Char},
      quotedLength quote (front ++ back) < front.length →
      front.drop (quotedLength quote (front ++ back)) ≠ ['\\'] →
      quotedLength quote (front ++ other) = quotedLength quote (front ++ back)
  | [], _, within, _ => absurd within (Nat.not_lt_zero _)
  | [character], back, within, notEscape => by
      have none := Nat.lt_one_iff.mp within
      have isPlain : character ≠ '\\' := by
        rintro rfl
        exact notEscape (by rw [none]; rfl)
      rw [none]
      simp only [List.cons_append, quotedLength_cons isPlain] at none ⊢
      split at none
      · next stops => rw [if_pos stops]
      · omega
  | character :: next :: front, back, within, notEscape => by
      simp only [List.length_cons] at within
      by_cases isEscape : character = '\\'
      · subst isEscape
        simp only [List.cons_append, quotedLength] at within notEscape ⊢
        split
        · rfl
        · next goesOn =>
            rw [if_neg goesOn] at within notEscape
            have shorter : quotedLength quote (front ++ back) < front.length := by omega
            rw [Nat.add_comm, List.drop_succ_cons, List.drop_succ_cons] at notEscape
            rw [quotedLength_cut quote other shorter notEscape]
      · rw [List.cons_append, quotedLength_cons isEscape] at within notEscape
        have shape (behind : List Char) :
            character :: next :: front ++ behind = character :: (next :: front ++ behind) :=
          rfl
        rw [shape, shape, quotedLength_cons isEscape, quotedLength_cons isEscape]
        split
        · rfl
        · next goesOn =>
            rw [if_neg goesOn] at within notEscape
            have shorter : quotedLength quote (next :: front ++ back) < (next :: front).length := by
              rw [List.length_cons]
              omega
            rw [Nat.add_comm, List.drop_succ_cons] at notEscape
            rw [quotedLength_cut quote other shorter notEscape]

/-- A literal or an unfinished one in front of a cut does not depend on what follows. -/
theorem quotedExtent_cut
    {kind : Kind}
    {quote : Char}
    {content : Nat}
    (other : List Char)
    (within : content < front.length) :
    quotedExtent kind quote content (front ++ other) =
      quotedExtent kind quote content (front ++ back) := by
  have inside (behind : List Char) :
      ((front ++ behind).drop content).head? = (front.drop content).head? := by
    rw [List.head?_drop, List.head?_drop, List.getElem?_append_left within]
  rw [quotedExtent, quotedExtent, inside, inside]

/-- The content of a literal ends in front of a cut, unless an unfinished literal ends there. -/
theorem content_lt
    {kind : Kind}
    {quote : Char}
    {content : Nat}
    {text : List Char}
    {bound : Nat}
    (within : (quotedExtent kind quote content text).2 ≤ bound)
    (finished : (quotedExtent kind quote content text).2 = bound →
      (quotedExtent kind quote content text).1 ≠ .error) :
    content < bound := by
  unfold quotedExtent at within finished
  split at within
  · exact within
  · next unfinished =>
      rw [if_neg unfinished] at finished
      exact Nat.lt_of_le_of_ne within fun all => finished all rfl

/-- A literal on one line in front of a cut does not depend on what follows. -/
theorem quoted_cut
    {kind : Kind}
    {quote : Char}
    (notBackslash : quote ≠ '\\')
    (other : List Char)
    (within : (quotedExtent kind quote (quotedLength quote (front ++ back)) (front ++ back)).2 ≤
      front.length)
    (finished :
      (quotedExtent kind quote (quotedLength quote (front ++ back)) (front ++ back)).2 =
        front.length →
      (quotedExtent kind quote (quotedLength quote (front ++ back)) (front ++ back)).1 ≠ .error)
    (notEscape :
      front.drop (quotedExtent kind quote (quotedLength quote (front ++ back))
        (front ++ back)).2 ≠ ['\\']) :
    quotedLength quote (front ++ other) = quotedLength quote (front ++ back) ∧
      quotedExtent kind quote (quotedLength quote (front ++ back)) (front ++ other) =
        quotedExtent kind quote (quotedLength quote (front ++ back)) (front ++ back) := by
  have inside := content_lt within finished
  refine ⟨quotedLength_cut quote other inside fun escape => ?_, quotedExtent_cut other inside⟩
  -- A backslash is no closing quote, so the literal would be unfinished in front of it.
  have notClosed :
      ((front ++ back).drop (quotedLength quote (front ++ back))).head? ≠ some quote := by
    rw [List.drop_append_of_le_length (Nat.le_of_lt inside), escape]
    simpa using notBackslash.symm
  rw [quotedExtent, if_neg (by simpa using notClosed)] at notEscape
  exact notEscape escape

/-- The beginning of a comment in front of a cut does not depend on what follows. -/
theorem commentLength_cut
    (other : List Char) :
    ∀ {front back : List Char},
      commentLength (front ++ back) < front.length →
      commentLength (front ++ other) = commentLength (front ++ back)
  | [], _, within => absurd within (Nat.not_lt_zero _)
  | [character], back, within => by
      have none := Nat.lt_one_iff.mp within
      unfold commentLength at none
      split at none
      · next empty => cases empty
      · cases none
      · omega
  | character :: next :: front, back, within => by
      by_cases ends : character = '*' ∧ next = '/'
      · obtain ⟨rfl, rfl⟩ := ends
        rfl
      · have longer (behind : List Char) :
            commentLength (character :: next :: front ++ behind) =
              1 + commentLength (next :: front ++ behind) := by
          simp only [List.cons_append]
          rw [commentLength]
          rintro rest rfl isSlash
          exact ends ⟨rfl, (List.cons.inj isSlash).1⟩
        rw [longer, List.length_cons] at within
        have shorter : commentLength (next :: front ++ back) < (next :: front).length := by omega
        rw [longer, longer, commentLength_cut other shorter]

/-! ## Punctuation -/

/-- A search finds the same entry when it becomes stricter and the entry still qualifies. -/
theorem find?_of_stricter
    {broad strict : α → Bool}
    {entries : List α}
    (stricter : ∀ entry ∈ entries, strict entry = true → broad entry = true)
    (kept : ∀ entry, entries.find? broad = some entry → strict entry = true) :
    entries.find? strict = entries.find? broad := by
  induction entries with
  | nil => rfl
  | cons entry rest inductionHypothesis =>
      cases isBroad : broad entry with
      | true =>
          have isStrict := kept entry (List.find?_cons_of_pos isBroad)
          rw [List.find?_cons_of_pos isBroad, List.find?_cons_of_pos isStrict]
      | false =>
          have notBroad : ¬broad entry = true := by simp [isBroad]
          have notStrict : ¬strict entry = true :=
            fun isStrict => notBroad (stricter entry List.mem_cons_self isStrict)
          rw [List.find?_cons_of_neg notBroad, List.find?_cons_of_neg notStrict]
          apply inductionHypothesis
          · exact fun other member => stricter other (List.mem_cons_of_mem entry member)
          · intro other found
            exact kept other (by rwa [List.find?_cons_of_neg notBroad])

/-- A text without spaces begins another one when it ends in front of the first space. -/
theorem prefix_of_prefix_blank
    {spelling text : List Char}
    (noSpace : ' ' ∉ spelling)
    (begins : spelling <+: text ++ ' ' :: more) :
    spelling <+: text := by
  rcases List.prefix_or_prefix_of_prefix begins (List.prefix_append text _) with short | long
  · exact short
  · obtain ⟨beyond, rfl⟩ := long
    rw [List.prefix_append_right_inj] at begins
    cases beyond with
    | nil => simp
    | cons character _ =>
        obtain ⟨rfl, _⟩ := List.cons_prefix_cons.mp begins
        simp at noSpace

/-- Punctuation in front of a cut does not depend on what follows. -/
theorem punctuationExtent_blank
    {first : Char}
    (within : (punctuationExtent first (front ++ back)).2 ≤ front.length) :
    punctuationExtent first (front ++ ' ' :: more) = punctuationExtent first (front ++ back) := by
  have noSpaces : ∀ entry ∈ punctuation, ' ' ∉ entry.1 := by decide
  have same :
      (punctuation.find? fun entry => entry.1.isPrefixOf (first :: (front ++ ' ' :: more))) =
        punctuation.find? fun entry => entry.1.isPrefixOf (first :: (front ++ back)) := by
    apply find?_of_stricter
    · intro entry member begins
      rw [List.isPrefixOf_iff_prefix] at begins ⊢
      have inFront : entry.1 <+: first :: front :=
        prefix_of_prefix_blank more (noSpaces entry member) begins
      exact inFront.trans (List.prefix_append _ _)
    · intro entry found
      have begins : entry.1 <+: first :: (front ++ back) := by
        simpa using List.find?_some found
      rw [List.isPrefixOf_iff_prefix]
      simp only [punctuationExtent, found] at within
      have inFront : entry.1 <+: first :: front :=
        List.prefix_of_prefix_length_le begins (List.prefix_append (first :: front) back)
          (by rw [List.length_cons]; omega)
      exact inFront.trans (List.prefix_append _ _)
  simp only [punctuationExtent, same]

/-! ## Lexemes -/

theorem extent_inlineSpace
    {blank : Char}
    (isSpace : isInlineSpace blank = true)
    (rest : List Char) :
    extent blank rest = (.whitespace, run isInlineSpace rest) := by
  simp [extent, isSpace]

theorem extent_slash
    (rest : List Char) :
    extent '/' rest =
      if rest.head? = some '/' then
        (.lineComment, 1 + run (· != '\n') rest.tail)
      else if rest.head? = some '*' then
        (.error, 1 + commentLength rest.tail)
      else
        punctuationExtent '/' rest := by
  cases rest with
  | nil => rfl
  | cons next rest =>
      by_cases isSlash : next = '/'
      · subst isSlash
        rfl
      · by_cases isStar : next = '*'
        · subst isStar
          rfl
        · have noLetter : startsIdentifier '/' = false := by decide
          simp [extent, isSlash, isStar, isInlineSpace, noLetter]

theorem extent_dot
    (rest : List Char) :
    extent '.' rest =
      if rest.head?.any Char.isDigit then
        (.float, run isDecimalPart rest + exponentLength (rest.drop (run isDecimalPart rest)))
      else
        punctuationExtent '.' rest := by
  cases rest with
  | nil => rfl
  | cons next rest => rfl

/-- What begins with a slash in front of a cut does not depend on what follows behind a space. -/
theorem extent_slash_blank
    (within : (extent '/' (front ++ back)).2 ≤ front.length)
    (settled : (extent '/' (front ++ back)).2 = front.length →
      (extent '/' (front ++ back)).1 ≠ .lineComment ∧ (extent '/' (front ++ back)).1 ≠ .error) :
    extent '/' (front ++ ' ' :: more) = extent '/' (front ++ back) := by
  rw [extent_slash] at within settled
  rw [extent_slash, extent_slash]
  rcases front with _ | ⟨next, front⟩
  · rw [List.nil_append] at within ⊢
    by_cases isSlash : back.head? = some '/'
    · simp [isSlash] at within
    · by_cases isStar : back.head? = some '*'
      · simp [isStar] at within
      · rw [if_neg isSlash, if_neg isStar] at within
        have short : (punctuationExtent '/' ([] ++ back)).2 ≤ ([] : List Char).length := within
        have same :
            punctuationExtent '/' ([] ++ ' ' :: more) = punctuationExtent '/' ([] ++ back) :=
          punctuationExtent_blank more short
        rw [List.nil_append, List.nil_append] at same
        simp [same, isSlash, isStar]
  · simp only [List.cons_append, List.head?_cons, List.tail_cons, Option.some.injEq]
      at within settled ⊢
    by_cases isSlash : next = '/'
    · simp only [isSlash, ↓reduceIte] at within settled ⊢
      have inside := Nat.lt_of_le_of_ne within fun all => by simpa using settled all
      rw [List.length_cons, Nat.add_comm, Nat.add_lt_add_iff_right] at inside
      rw [run_inside more inside]
    · by_cases isStar : next = '*'
      · simp only [isStar, Char.reduceEq, ↓reduceIte] at within settled ⊢
        have inside := Nat.lt_of_le_of_ne within fun all => by simpa using settled all
        rw [List.length_cons, Nat.add_comm, Nat.add_lt_add_iff_right] at inside
        rw [commentLength_cut _ inside]
      · rw [if_neg isSlash, if_neg isStar] at within
        rw [if_neg isSlash, if_neg isSlash, if_neg isStar, if_neg isStar]
        have short : (punctuationExtent '/' (next :: front ++ back)).2 ≤ (next :: front).length :=
          within
        exact punctuationExtent_blank more short

/-- What begins with a point in front of a cut does not depend on what follows behind a space. -/
theorem extent_dot_blank
    (within : (extent '.' (front ++ back)).2 ≤ front.length) :
    extent '.' (front ++ ' ' :: more) = extent '.' (front ++ back) := by
  rw [extent_dot] at within
  rw [extent_dot, extent_dot]
  by_cases isDigit : (front ++ back).head?.any Char.isDigit = true
  · rw [if_pos isDigit] at within
    have digits : run isDecimalPart (front ++ ' ' :: more) = run isDecimalPart (front ++ back) :=
      run_blank more (by decide) (Nat.le_of_add_right_le within)
    have exponent := drop_blank more (exponentLength_blank more) within
    have sameHead : (front ++ ' ' :: more).head?.any Char.isDigit = true := by
      rcases front with _ | ⟨next, front⟩
      · -- The digit behind the point would belong to the numeral.
        rcases back with _ | ⟨digit, back⟩
        · cases isDigit
        · have isPart : isDecimalPart digit = true := by
            rw [isDecimalPart, show digit.isDigit = true from isDigit, Bool.true_or]
          simp [run_cons, isPart] at within
      · exact isDigit
    rw [if_pos isDigit, if_pos sameHead, digits, exponent]
  · rw [if_neg isDigit] at within
    have sameHead : ¬(front ++ ' ' :: more).head?.any Char.isDigit = true := by
      rcases front with _ | ⟨next, front⟩
      · simp
      · exact isDigit
    rw [if_neg isDigit, if_neg sameHead]
    exact punctuationExtent_blank more within

theorem extent_rune
    (rest : List Char) :
    extent '\x27' rest =
      if quotedLength '\x27' rest = 0 then
        (.error, 0)
      else
        quotedExtent .rune '\x27' (quotedLength '\x27' rest) rest := by
  have same :
      extent '\x27' rest =
        if quotedLength '\x27' rest == 0 then
          (.error, 0)
        else
          quotedExtent .rune '\x27' (quotedLength '\x27' rest) rest :=
    rfl
  simpa using same

/-- What begins with a single quote in front of a cut does not depend on what follows. -/
theorem extent_rune_cut
    (other : List Char)
    (within : (extent '\x27' (front ++ back)).2 ≤ front.length)
    (settled : (extent '\x27' (front ++ back)).2 = front.length →
      (extent '\x27' (front ++ back)).1 ≠ .error)
    (notEscape : front.drop (extent '\x27' (front ++ back)).2 ≠ ['\\']) :
    extent '\x27' (front ++ other) = extent '\x27' (front ++ back) := by
  rw [extent_rune] at within settled notEscape
  rw [extent_rune, extent_rune]
  by_cases none : quotedLength '\x27' (front ++ back) = 0
  · rw [if_pos none] at within settled notEscape
    have some : 0 < front.length := Nat.lt_of_le_of_ne within fun all => settled all rfl
    rw [quotedLength_cut '\x27' other (none ▸ some) (none ▸ notEscape), if_pos none, if_pos none]
  · rw [if_neg none] at within settled notEscape
    obtain ⟨sameLength, sameExtent⟩ := quoted_cut (by decide) other within settled notEscape
    rw [sameLength, sameExtent, if_neg none]

/-- What begins with a double quote in front of a cut does not depend on what follows. -/
theorem extent_string_cut
    (other : List Char)
    (within : (extent '"' (front ++ back)).2 ≤ front.length)
    (settled : (extent '"' (front ++ back)).2 = front.length →
      (extent '"' (front ++ back)).1 ≠ .error)
    (notEscape : front.drop (extent '"' (front ++ back)).2 ≠ ['\\']) :
    extent '"' (front ++ other) = extent '"' (front ++ back) := by
  have isString (rest : List Char) :
      extent '"' rest = quotedExtent .string '"' (quotedLength '"' rest) rest :=
    rfl
  rw [isString] at within settled notEscape
  obtain ⟨sameLength, sameExtent⟩ := quoted_cut (by decide) other within settled notEscape
  rw [isString, isString, sameLength, sameExtent]

/-- What begins with a back quote in front of a cut does not depend on what follows. -/
theorem extent_raw_cut
    (within : (extent '\x60' (front ++ back)).2 ≤ front.length)
    (settled : (extent '\x60' (front ++ back)).2 = front.length →
      (extent '\x60' (front ++ back)).1 ≠ .error) :
    extent '\x60' (front ++ ' ' :: more) = extent '\x60' (front ++ back) := by
  have isRaw (rest : List Char) :
      extent '\x60' rest = quotedExtent .string '\x60' (run (· != '\x60') rest) rest :=
    rfl
  rw [isRaw] at within settled
  have inside := content_lt within settled
  rw [isRaw, isRaw, run_inside more inside, quotedExtent_cut _ inside]

/-- What begins like an identifier is one or a keyword. -/
theorem extent_word
    {first : Char}
    (starts : startsIdentifier first = true)
    (rest : List Char) :
    extent first rest =
      ((keywords.lookup (first :: rest.take (run continuesIdentifier rest))).getD .ident,
        run continuesIdentifier rest) := by
  obtain ⟨notSpace, notBreak, _⟩ := notSpace_of_startsIdentifier starts
  simp [extent, notSpace, notBreak, starts]

/-- What begins with a digit is a numeral. -/
theorem extent_numeral
    {first : Char}
    (isDigit : first.isDigit = true)
    (rest : List Char) :
    extent first rest = numeralExtent first rest := by
  obtain ⟨notSpace, notBreak, notWord⟩ := startsIdentifier_of_isDigit isDigit
  simp [extent, notSpace, notBreak, notWord, isDigit]

/-- What begins with any other character is a punctuation mark. -/
theorem extent_mark
    {first : Char}
    (notSpace : isInlineSpace first = false)
    (notWord : startsIdentifier first = false)
    (notDigit : first.isDigit = false)
    (notSpecial : first ∉ ['\n', '\x27', '"', '\x60', '/', '.'])
    (rest : List Char) :
    extent first rest = punctuationExtent first rest := by
  simp only [List.mem_cons, List.not_mem_nil, or_false, not_or] at notSpecial
  obtain ⟨notBreak, notRune, notString, notRaw, notSlash, notDot⟩ := notSpecial
  simp only [extent, notSpace, notBreak, notWord, notDigit, notRune, notString, notRaw,
    beq_eq_false_iff_ne.mpr, ne_eq, not_false_eq_true, Bool.false_eq_true, ↓reduceIte]
  split
  · exact absurd rfl notSlash
  · exact absurd rfl notSlash
  · exact absurd rfl notDot
  · rfl

/-- The classes of lexemes by their first character, with what is read from it on. -/
inductive Opening
    (first : Char) :
    Prop where
  | blank
      (isSpace : isInlineSpace first = true)
      (reads : ∀ rest, extent first rest = (.whitespace, run isInlineSpace rest))
  | word
      (reads : ∀ rest, extent first rest =
        ((keywords.lookup (first :: rest.take (run continuesIdentifier rest))).getD .ident,
          run continuesIdentifier rest))
  | numeral
      (reads : ∀ rest, extent first rest = numeralExtent first rest)
  | special
      (isSpecial : first ∈ ['\n', '\x27', '"', '\x60', '/', '.'])
  | mark
      (reads : ∀ rest, extent first rest = punctuationExtent first rest)

/-- Every character opens a lexeme of some class. -/
theorem opening
    (first : Char) :
    Opening first := by
  by_cases isSpace : isInlineSpace first = true
  · exact .blank isSpace (extent_inlineSpace isSpace)
  by_cases isWord : startsIdentifier first = true
  · exact .word (extent_word isWord)
  by_cases isDigit : first.isDigit = true
  · exact .numeral (extent_numeral isDigit)
  by_cases isSpecial : first ∈ ['\n', '\x27', '"', '\x60', '/', '.']
  · exact .special isSpecial
  · exact .mark (extent_mark (eq_false_of_ne_true isSpace) (eq_false_of_ne_true isWord)
      (eq_false_of_ne_true isDigit) isSpecial)

/--
A lexeme in front of a cut does not depend on what follows behind a space, unless it ends there and
is one that would go on.  A single backslash in front of the cut would escape the space.
-/
theorem extent_blank
    {first : Char}
    (notSpace : isInlineSpace first = false)
    (within : (extent first (front ++ back)).2 ≤ front.length)
    (settled : (extent first (front ++ back)).2 = front.length →
      (extent first (front ++ back)).1 ≠ .lineComment ∧ (extent first (front ++ back)).1 ≠ .error)
    (notEscape : front.drop (extent first (front ++ back)).2 ≠ ['\\']) :
    extent first (front ++ ' ' :: more) = extent first (front ++ back) := by
  have finished := fun all => (settled all).2
  cases opening first with
  | blank isSpace _ => simp [notSpace] at isSpace
  | word reads =>
      rw [reads] at within
      rw [reads, reads, run_blank more (by decide) within, List.take_append_of_le_length within,
        List.take_append_of_le_length within]
  | numeral reads =>
      rw [reads] at within
      rw [reads, reads, numeralExtent_blank more within]
  | special isSpecial =>
      simp only [List.mem_cons, List.not_mem_nil, or_false] at isSpecial
      rcases isSpecial with rfl | rfl | rfl | rfl | rfl | rfl
      · rfl
      · exact extent_rune_cut _ within finished notEscape
      · exact extent_string_cut _ within finished notEscape
      · exact extent_raw_cut more within finished
      · exact extent_slash_blank more within settled
      · exact extent_dot_blank more within
  | mark reads =>
      rw [reads] at within
      rw [reads, reads, punctuationExtent_blank more within]

/-! ## Lexemes stay within the text -/

theorem run_le
    (belongs : Char → Bool)
    (text : List Char) :
    run belongs text ≤ text.length :=
  (List.takeWhile_sublist belongs).length_le

theorem signLength_le
    (rest : List Char) :
    signLength rest ≤ rest.length := by
  cases rest with
  | nil => exact Nat.le_refl 0
  | cons sign rest =>
      unfold signLength
      split <;> simp

theorem exponentLength_le
    (text : List Char) :
    exponentLength text ≤ text.length := by
  cases text with
  | nil => exact Nat.le_refl 0
  | cons mark rest =>
      have sign := signLength_le rest
      have digits := run_le isDecimalPart (rest.drop (signLength rest))
      rw [List.length_drop] at digits
      rw [exponentLength_cons, List.length_cons]
      split_ifs <;> omega

theorem fractionLength_le
    (text : List Char) :
    fractionLength text ≤ text.length := by
  fun_cases fractionLength text with
  | case1 rest =>
      have digits := run_le isDecimalPart rest
      rw [List.length_cons]
      omega
  | case2 => exact Nat.zero_le _

theorem decimalExtent_le
    (rest : List Char) :
    (decimalExtent rest).2 ≤ rest.length := by
  have short : decimalLength rest ≤ rest.length := by
    have digits := run_le isDecimalPart rest
    have fraction := fractionLength_le (rest.drop (run isDecimalPart rest))
    have exponent := exponentLength_le
      (rest.drop (run isDecimalPart rest + fractionLength (rest.drop (run isDecimalPart rest))))
    rw [List.length_drop] at fraction exponent
    unfold decimalLength
    dsimp only
    omega
  rw [decimalExtent_eq]
  split
  · next isImaginary => exact lt_of_head?_drop (eq_of_beq isImaginary)
  · split <;> exact short

theorem numeralExtent_le
    (digit : Char)
    (rest : List Char) :
    (numeralExtent digit rest).2 ≤ rest.length := by
  cases rest with
  | nil => exact decimalExtent_le []
  | cons mark rest =>
      have digits := run_le (isRadixPart mark) rest
      simp only [numeralExtent]
      split
      · rw [List.length_cons]
        omega
      · exact decimalExtent_le (mark :: rest)

theorem quotedLength_le
    (quote : Char)
    (rest : List Char) :
    quotedLength quote rest ≤ rest.length := by
  fun_induction quotedLength quote rest <;> simp only [List.length_nil, List.length_cons] <;> omega

theorem quotedExtent_le
    {kind : Kind}
    {quote : Char}
    {content : Nat}
    {rest : List Char}
    (within : content ≤ rest.length) :
    (quotedExtent kind quote content rest).2 ≤ rest.length := by
  unfold quotedExtent
  split
  · next closed => exact lt_of_head?_drop (eq_of_beq closed)
  · exact within

theorem commentLength_le
    (rest : List Char) :
    commentLength rest ≤ rest.length := by
  fun_induction commentLength rest <;> simp only [List.length_nil, List.length_cons] <;> omega

theorem punctuationExtent_le
    (first : Char)
    (rest : List Char) :
    (punctuationExtent first rest).2 ≤ rest.length := by
  unfold punctuationExtent
  split
  · next spelling kind found =>
      have begins : spelling <+: first :: rest := by
        simpa using List.find?_some found
      have short := begins.length_le
      rw [List.length_cons] at short
      dsimp only
      omega
  · exact Nat.zero_le _

/-- A lexeme ends where the text ends at the latest. -/
theorem extent_le
    (first : Char)
    (rest : List Char) :
    (extent first rest).2 ≤ rest.length := by
  cases opening first with
  | blank _ reads =>
      rw [reads]
      exact run_le isInlineSpace rest
  | word reads =>
      rw [reads]
      exact run_le continuesIdentifier rest
  | numeral reads =>
      rw [reads]
      exact numeralExtent_le first rest
  | mark reads =>
      rw [reads]
      exact punctuationExtent_le first rest
  | special isSpecial =>
      simp only [List.mem_cons, List.not_mem_nil, or_false] at isSpecial
      rcases isSpecial with rfl | rfl | rfl | rfl | rfl | rfl
      · exact Nat.zero_le _
      · rw [extent_rune]
        split
        · exact Nat.zero_le _
        · exact quotedExtent_le (quotedLength_le _ rest)
      · exact quotedExtent_le (quotedLength_le _ rest)
      · exact quotedExtent_le (run_le _ rest)
      · rw [extent_slash]
        cases rest with
        | nil => exact Nat.zero_le _
        | cons next rest =>
            have line := run_le (· != '\n') rest
            have comment := commentLength_le rest
            rw [List.tail_cons]
            split_ifs
            · rw [List.length_cons]
              omega
            · rw [List.length_cons]
              omega
            · exact punctuationExtent_le '/' (next :: rest)
      · rw [extent_dot]
        have digits := run_le isDecimalPart rest
        have exponent := exponentLength_le (rest.drop (run isDecimalPart rest))
        rw [List.length_drop] at exponent
        split
        · dsimp only
          omega
        · exact punctuationExtent_le '.' rest

end Lexeme

end Implementers.Syntax
