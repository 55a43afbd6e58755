import Implementers.Proofs.Syntax.ReadBack

namespace Implementers.Syntax

/-!
# Declared types are read back

The source of a file that declares one type gives the type back: the lexemes that count in it are
those of the declaration, the rules read them, and nothing is left for a fault.
-/

open Cursor Grammar

/-! ## The source of a declaration -/

/-- The lexemes of a file that declares one type. -/
def declarationLexemes
    (style : ItemStyle)
    (package name : Identifier)
    (form : TypeForm) :
    List Lexeme :=
  .ofKind .packageKeyword :: package.lexeme :: .lineBreak ::
    .ofKind .typeKeyword :: name.lexeme :: (form.lexemes style ++ [.lineBreak])

/-- The source of a file that declares one type. -/
def Layout.declaration
    (layout : Layout)
    (package name : Identifier)
    (form : TypeForm) :
    String :=
  String.ofList (layout.text (declarationLexemes layout.style package name form))

/-- No more white space than is needed, and items on one line. -/
def Layout.tight : Layout :=
  ⟨fun _ => [], fun _ => rfl, false⟩

section Declaration

variable (package name : Identifier)

/-- Every lexeme of a declaration counts, except for line breaks behind opening braces. -/
theorem counts_declarationLexemes
    {style : ItemStyle}
    (isCounted : style.Counted)
    (form : TypeForm) :
    Counts false false (declarationLexemes style package name form)
      (declarationLexemes style.unopened package name form) :=
  .ofKind .packageKeyword (by decide) (package.counts (.append .lineBreak
    (.ofKind .typeKeyword (by decide) (name.counts
      ((form.counts isCounted true).append .lineBreak)))))

/-- A declaration begins with the keyword of its package clause. -/
theorem Token.sourceLexemes_declaration
    (layout : Layout)
    (form : TypeForm) :
    sourceLexemes (layout.declaration package name form).toList =
      layout.spread 0 (declarationLexemes layout.style package name form) := by
  have counts := counts_declarationLexemes package name layout.counted form
  have cut := layout.ofText_spread 0 counts.plain
  obtain ⟨next, text⟩ := layout.text_spread_cons 0 (.ofKind .packageKeyword)
    (package.lexeme :: .lineBreak :: .ofKind .typeKeyword :: name.lexeme ::
      (form.lexemes layout.style ++ [.lineBreak]))
  rw [declarationLexemes, text] at cut
  rw [Layout.declaration, String.toList_ofList, Layout.text, declarationLexemes, text, ← cut]
  rfl

/-- The lexemes that come first in the source of a declaration are those of the declaration. -/
theorem Parse.coming_rootOf_declaration
    (layout : Layout)
    (form : TypeForm) :
    (rootOf (layout.declaration package name form)).coming =
      declarationLexemes layout.style.unopened package name form := by
  have counts := counts_declarationLexemes package name layout.counted form
  have counting := counts.counting []
  rw [List.append_nil, show Token.counting false [] = [] from rfl, List.append_nil] at counting
  calc
    (rootOf (layout.declaration package name form)).coming =
        Token.counting false (Token.sourceLexemes (layout.declaration package name form).toList) :=
      Token.significant_ofLexemes _ 0 false
    _ = declarationLexemes layout.style.unopened package name form := by
      rw [Token.sourceLexemes_declaration, Token.counting_spread, counting]

end Declaration

/-! ## Reading a declaration -/

namespace Grammar

/-- A bracket behind the name of a declared type begins the type. -/
theorem declaresTypeParams_form
    {style : ItemStyle}
    {form : TypeForm}
    {behind : List Lexeme}
    {cursor : Cursor}
    (coming : cursor.coming = form.lexemes style ++ behind) :
    (cursor.sees .leftBracket && declaresTypeParams cursor) = false := by
  cases form with
  | slice elem => simp [declaresTypeParams, peek?_eq, coming, TypeForm.lexemes]
  | array length elem => simp [declaresTypeParams, peek?_eq, coming, TypeForm.lexemes]
  | chan direction => cases direction <;> simp [sees, peek?_zero_form coming, TypeForm.firstKind]
  | _ => simp [sees, peek?_zero_form coming, TypeForm.firstKind]

namespace Reads

variable {behind : List Lexeme}

theorem skipTrivia : Reads Cursor.skipTrivia [] [] behind :=
  fun cursor _ => ⟨_, .skipTrivia cursor, Tree.seen_trivia cursor.rest⟩

theorem packageClause
    (package : Identifier) :
    Reads Grammar.packageClause [.ofKind .packageKeyword, package.lexeme, .lineBreak]
      [.packageClause (some package.ident)] behind := by
  have clause : Reads _ [.ofKind .packageKeyword, package.lexeme] _ ([.lineBreak] ++ behind) :=
    ((bump (.ofKind .packageKeyword)).append (name package)).node
      (by decide : Kind.packageClause ≠ _)
  have ended : Reads (Grammar.terminator none) [.lineBreak] [] behind := terminator rfl
  exact (clause.append ended).alike rfl

section Declared

variable
  {style : ItemStyle}
  {form : TypeForm}
  {type : TypeExpr}
  (name : Identifier)

/-- A declared type is read with its name. -/
theorem typeSpec
    (reads : Reads typeRule (form.lexemes style) [.type type] behind) :
    Reads (Grammar.typeSpec typeRule) (name.lexeme :: form.lexemes style)
      [.typeSpec ⟨here, some name.ident, false, false, type⟩] behind := by
  have defined : Reads (fun named => typeRule (Cursor.eat .equals named)) (form.lexemes style)
      [.type type] behind :=
    (eat_absent (((form.heads style).append behind).ne rfl)).append reads
  refine (((Reads.name name).andThen defined fun cursor coming after => ?_).node
    (by decide : Kind.typeSpec ≠ _)).alike rfl
  have isIdent : cursor.sees .ident = true := sees_cons coming
  simp only [isIdent, declaresTypeParams_form after, if_true]
  rfl

/-- A declaration of one type is read up to its line break. -/
theorem typeDecl
    (reads : Reads typeRule (form.lexemes style) [.type type] (.lineBreak :: behind)) :
    Reads (groupedDecl .typeDecl (Grammar.typeSpec typeRule))
      (.ofKind .typeKeyword :: name.lexeme :: (form.lexemes style ++ [.lineBreak]))
      [.typeDecl [⟨here, some name.ident, false, false, type⟩]] behind := by
  have spec := typeSpec name reads
  have ended : Reads (Grammar.terminator none) [.lineBreak] [] behind := terminator rfl
  refine ((((bump (.ofKind .typeKeyword)).andThen spec fun cursor coming after => ?_).node
    (by decide : Kind.typeDecl ≠ _)).append ended).alike rfl
  have ungrouped : cursor.bump.sees .leftParen = false := sees_cons after
  simp only [ungrouped]
  rfl

/-- A file that declares one type is read with its package clause and its declaration. -/
theorem sourceFile
    (package : Identifier)
    (reads : Reads typeRule (form.lexemes style) [.type type] [.lineBreak]) :
    Reads (Grammar.sourceFile typeRule) (declarationLexemes style package name form)
      [.packageClause (some package.ident),
        .typeDecl [⟨here, some name.ident, false, false, type⟩]] [] := by
  have unended : Reads (repeatWhile (!·.atEnd) (declaration typeRule)) [] [] [] :=
    nothing.congr fun cursor coming => by
      rw [terminates.declarations.repeatWhile_eq]
      simp [atEnd, peek?_eq, coming]
  have declared : Reads (repeatWhile (!·.atEnd) (declaration typeRule))
      (.ofKind .typeKeyword :: name.lexeme :: (form.lexemes style ++ [.lineBreak]) ++ [])
      ([.typeDecl [⟨here, some name.ident, false, false, type⟩]] ++ []) [] := by
    refine (typeDecl name reads).andThen unended fun cursor coming _ => ?_
    rw [terminates.declarations.repeatWhile_eq]
    simp [atEnd, declaration, peek?_eq, coming]
  have heads : ∀ others : List Lexeme,
      Heads (fun kind => !kind.isTerminator) (.ofKind .packageKeyword :: others) :=
    fun others => ⟨_, _, rfl, rfl⟩
  have clause : ∀ behind,
      Reads (fun cursor => Grammar.packageClause (Grammar.skipTerminators cursor))
        [.ofKind .packageKeyword, package.lexeme, .lineBreak]
        [.packageClause (some package.ident)] behind :=
    fun behind => (skipTerminators (heads _) (by simp)).append (packageClause package)
  have all := (clause _).append (declared.append skipTrivia)
  simp only [List.append_nil] at all
  refine all.congr fun cursor coming => ?_
  obtain ⟨_, begun, _⟩ := @skipTerminators _ _ (heads _) (by simp) cursor coming
  have isPackage : (Grammar.skipTerminators cursor).sees .packageKeyword = true :=
    sees_cons (begun.coming_eq coming)
  simp only [Grammar.sourceFile, isPackage, if_true]

end Declared

end Reads

end Grammar

namespace Parse

/-- What the parse of a text comes to when its rule reads all of the text. -/
theorem ofText_of_reads
    {text : String}
    {taken : List Lexeme}
    {parts : List Part}
    (coming : (rootOf text).coming = taken)
    (reads : Reads (sourceFile typeRule) taken parts []) :
    (ofText text).errors = [] ∧
      Indistinct (Tree.forestParts (ofText text).tree.children) parts := by
  obtain ⟨trees, builds, looks⟩ := reads (rootOf text) (by rw [coming, List.append_nil])
  have closed := closeNode_eq builds.parents rfl builds.built
  constructor
  · have errors : (endOf text).errors = #[] := by
      rw [endOf_eq, closed]
      exact builds.errors
    rw [ofText, errors]
  · have tree : (ofText text).tree.children = trees := by
      rw [ofText, endOf_eq, closed]
      rfl
    rw [tree]
    exact looks

/--
The source of a file that declares one type parses without a fault, in whatever way it is laid out.
The only type that it declares has the name that was written, no type parameters and no equals sign,
and its type expression is the one that was written but for where it stands.
-/
theorem ofText_declaration
    (layout : Layout)
    (package name : Identifier)
    (form : TypeForm)
    (enough : form.Parenthesised) :
    (ofText (layout.declaration package name form)).errors = [] ∧
      ∃ spec : TypeSpec,
        (SourceFile.ofTree (ofText (layout.declaration package name form)).tree).types = [spec] ∧
          spec.name.map Ident.text = some (String.ofList name.text) ∧
          spec.generic = false ∧
          spec.isAlias = false ∧
          spec.type.Alike form.expr := by
  have type := form.reads layout.regular enough [.lineBreak] ⟨_, _, rfl, rfl⟩
  obtain ⟨errors, looks⟩ := ofText_of_reads (coming_rootOf_declaration package name layout form)
    (Reads.sourceFile name package type)
  generalize (ofText (layout.declaration package name form)).tree = tree at looks
  refine ⟨errors, ?_⟩
  obtain ⟨spec, declared, same⟩ := List.map_eq_singleton_iff.mp looks.declaredTypes
  have sameName :=
    calc spec.name.map Ident.text
      _ = (spec.name.map (Ident.moved nowhere)).map Ident.text := by
        rw [Option.map_map]
        rfl
      _ = some (String.ofList name.text) := congrArg (fun spec => spec.name.map Ident.text) same
  exact ⟨spec, declared, sameName, congrArg TypeSpec.generic same, congrArg TypeSpec.isAlias same,
    congrArg TypeSpec.type same⟩

/-- Two parameters that share a type, a channel of channels, and two results. -/
def channelFunc : TypeForm :=
  .func
    [.mk none false (.name none ⟨['a'], rfl⟩ []),
      .mk (some ⟨['b'], rfl⟩) false
        (.chan .both (.paren (.chan .receive (.name none ⟨['T'], rfl⟩ []))))]
    (.list
      [.mk none false (.array (.name ⟨['N'], rfl⟩) (.name (some ⟨['q'], rfl⟩) ⟨['T'], rfl⟩ [])),
        .mk none false (.name none ⟨['L'], rfl⟩ [.name none ⟨['T'], rfl⟩ []])])

theorem ofText_declaration_channelFunc :
    channelFunc.Parenthesised ∧
      (ofText "package p\ntype X func(a,b chan(<-chan T))([N]q.T,L[T])\n").errors = [] ∧
      ∃ spec : TypeSpec,
        (SourceFile.ofTree
          (ofText "package p\ntype X func(a,b chan(<-chan T))([N]q.T,L[T])\n").tree).types =
            [spec] ∧
          spec.name.map Ident.text = some "X" ∧
          spec.generic = false ∧
          spec.isAlias = false ∧
          spec.type.Alike channelFunc.expr := by
  have enough : channelFunc.Parenthesised := by
    simp [channelFunc, TypeForm.Parenthesised, ParamsParenthesised, ResultForm.Parenthesised,
      TypesParenthesised, TypeForm.beginsWithArrow]
  have text : Layout.tight.declaration ⟨['p'], rfl⟩ ⟨['X'], rfl⟩ channelFunc =
      "package p\ntype X func(a,b chan(<-chan T))([N]q.T,L[T])\n" := rfl
  rw [← text]
  exact ⟨enough, ofText_declaration .tight ⟨['p'], rfl⟩ ⟨['X'], rfl⟩ channelFunc enough⟩

end Parse

end Implementers.Syntax
