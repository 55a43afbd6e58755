import Implementers.Proofs.Scope.Displaced
import Implementers.Proofs.Syntax.Opacity

namespace Implementers

/-!
# Bodies and values do not matter for symbols

What stands in the body of a function, or in a declaration of values, decides neither about the
faults of a text nor about the symbols of the units that read it, as long as the parser comes to the
body or the declaration in both texts.  It may miss a body behind a parameter list whose bracket is
left open: whether the name in front of this bracket is a parameter's name depends on what stands
behind the closing bracket, and this bracket may be one in the body.
-/

open Syntax (Parse Passage SourceFile Span SyntaxError Token)

namespace Syntax.Passage

variable
  {text other : String}
  {ours theirs : Passage}

/-- Where the other passage is as wide or wider, the offsets stay in their order. -/
theorem strictMono_shift
    (wider : Token.width ours.inner ≤ Token.width theirs.inner) :
    StrictMono (ours.shift theirs) := by
  intro first second before
  unfold shift
  split <;> split <;> omega

/--
Two texts that are equal but for the body of a function or the values of a declaration have the same
faults, and declare the same at offsets that differ by a constant behind the passage.  Every unit
that reads one text in place of the other has the same symbols but for their places, or an error of
the same kind.

The parser has to come to the passage in one of the texts.  It comes to it in the other one if no
search for a closing bracket, from an identifier in front, ends in another way there.
-/
theorem Around.resolves_alike
    (around : Around text other ours theirs)
    (declared : ours.DeclaredIn text)
    (alike : ours.LooksAlike theirs ∨ theirs.DeclaredIn other) :
    (Parse.ofText other).errors.map SyntaxError.fault =
        (Parse.ofText text).errors.map SyntaxError.fault ∧
      SourceFile.ofTree (Parse.ofText other).tree =
        (SourceFile.ofTree (Parse.ofText text).tree).moved (Span.shifted (ours.shift theirs)) ∧
      ∀ (files others : FileSystem) (unit : SourceUnit),
        (∀ path, others.read path = files.read path ∨
          files.read path = .ok text ∧ others.read path = .ok other) →
        SameOutcome
          (fun left right => List.Forall₂ Symbol.SameButPlaced left.1.symbols right.1.symbols)
          (resolveUnit files unit) (resolveUnit others unit) := by
  have comes := comesIn_of_declaredIn around.cut declared
  have alike := alike.imp_right (comesIn_of_declaredIn around.cutToo)
  obtain ⟨faults, source⟩ := around.declares_alike comes alike
  refine ⟨faults, source, fun files others unit reads => ?_⟩
  rcases Nat.le_total (Token.width ours.inner) (Token.width theirs.inner) with wider | narrower
  · refine resolveUnit_displaced (fun path => (reads path).imp_right fun read => ?_) unit
    exact ⟨text, other, read.1, read.2, ours.shift theirs, strictMono_shift wider, faults, source⟩
  · -- The offsets of the other text stay in their order on the way back.
    obtain ⟨left, passes, comesLeft⟩ := comes
    obtain ⟨right, passesToo, -, -, comesRight⟩ := around.exists_alongside passes comesLeft alike
    obtain ⟨faultsBack, sourceBack⟩ :=
      around.symm.declares_alike ⟨right, passesToo, comesRight⟩ (.inr ⟨left, passes, comesLeft⟩)
    refine (resolveUnit_displaced (fun path => ?_) unit).symm
      fun _ _ same => (same.imp fun _ _ one => one.symm).flip
    exact (reads path).imp Eq.symm fun read => ⟨other, text, read.2, read.1, theirs.shift ours,
      strictMono_shift narrower, faultsBack, sourceBack⟩

/-- The passage of some tokens of a text behind the brace at a place among them. -/
def behindBrace
    (text : String)
    (place count : Nat) :
    Passage where
  front := (Token.ofSource text).take place
  last := ⟨.leftBrace, ['{'], Token.width ((Token.ofSource text).take place)⟩
  inner := ((Token.ofSource text).drop (place + 1)).take count
  back := (Token.ofSource text).drop (place + 1 + count)

/-- A text with a function in front of a type. -/
def functionWith
    (body : String) :
    String :=
  "package p\nfunc f() \x7b" ++ body ++ "\x7d\ntype T int\n"

/-- A unit has the same symbols whether or not the body of a function is empty. -/
theorem resolves_alike_empty_body :
    (Parse.ofText (functionWith " a[b] ")).errors.map SyntaxError.fault =
        (Parse.ofText (functionWith " ")).errors.map SyntaxError.fault ∧
      ∀ (files others : FileSystem) (unit : SourceUnit),
        (∀ path, others.read path = files.read path ∨
          files.read path = .ok (functionWith " ") ∧
            others.read path = .ok (functionWith " a[b] ")) →
        SameOutcome
          (fun left right => List.Forall₂ Symbol.SameButPlaced left.1.symbols right.1.symbols)
          (resolveUnit files unit) (resolveUnit others unit) := by
  have around :
      Around (functionWith " ") (functionWith " a[b] ") (behindBrace (functionWith " ") 10 1)
        (behindBrace (functionWith " a[b] ") 10 6) :=
    { cut := by decide +kernel
      cutToo := by decide +kernel
      same := ⟨by decide +kernel, by decide +kernel⟩
      skippable := .inl ⟨rfl, by decide +kernel, by decide +kernel⟩
      skippableToo := .inl ⟨rfl, by decide +kernel, by decide +kernel⟩ }
  obtain ⟨faults, -, units⟩ :=
    Around.resolves_alike around (by decide +kernel) (.inr (by decide +kernel))
  exact ⟨faults, units⟩

/-- A text with a bracket left open in a parameter list, and the body of another function behind it. -/
def openBracketBefore
    (body : String) :
    String :=
  "package p\n\nfunc f(a [n) \x7b\n\x7d\n\nfunc g() \x7b" ++ body ++ "\x7d\n"

/--
Behind a bracket left open the parser reads on in the body of another function.  When it finds a
closing bracket there, in front of a type, the first function has a parameter with all of this in
its type, and the second function is none.
-/
theorem openBracketBefore_reads_body :
    Around (openBracketBefore " ") (openBracketBefore " ] int ")
        (behindBrace (openBracketBefore " ") 26 1) (behindBrace (openBracketBefore " ] int ") 26 5) ∧
      (behindBrace (openBracketBefore " ") 26 1).DeclaredIn (openBracketBefore " ") ∧
      (Parse.ofText (openBracketBefore " ")).errors.map (·.fault.message) = ["expected ']'"] ∧
      (Parse.ofText (openBracketBefore " ] int ")).errors.map (·.fault.message) =
        ["expected ')'"] ∧
      (SourceFile.ofTree (Parse.ofText (openBracketBefore " ")).tree).funcs.length = 2 ∧
      (SourceFile.ofTree (Parse.ofText (openBracketBefore " ] int ")).tree).funcs.length = 1 := by
  refine ⟨?around, by decide +kernel, by decide +kernel, by decide +kernel, by decide +kernel,
    by decide +kernel⟩
  exact
    { cut := by decide +kernel
      cutToo := by decide +kernel
      same := ⟨by decide +kernel, by decide +kernel⟩
      skippable := .inl ⟨rfl, by decide +kernel, by decide +kernel⟩
      skippableToo := .inl ⟨rfl, by decide +kernel, by decide +kernel⟩ }

end Syntax.Passage

end Implementers
