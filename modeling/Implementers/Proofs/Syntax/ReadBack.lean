import Implementers.Proofs.Syntax.Entries

namespace Implementers.Syntax

/-!
# Type expressions are read back

Every type expression that is spelled with enough parentheses is read as what it is, in every place
where a type expression may stand.  Its first lexeme leads to the rule for its form.  Behind each of
its parts stands a lexeme that ends the part: one of the form's own, or what ends the form itself.
-/

open Grammar Cursor

section Forms

variable {style : ItemStyle}

theorem isEmpty_typesExpr
    (types : List TypeForm) :
    (typesExpr types).isEmpty = types.isEmpty := by
  cases types <;> rfl

/-- Only a channel to receive from begins with an arrow. -/
theorem TypeForm.ne_arrow
    {form : TypeForm}
    (noArrow : form.beginsWithArrow = false)
    (behind : List Lexeme) :
    ∀ first ∈ (form.lexemes style ++ behind).head?, first.kind ≠ .arrow := by
  obtain ⟨first, rest, lexemes, isFirst⟩ := form.exists_lexemes_eq style
  rw [lexemes]
  rintro _ ⟨⟩
  rw [isFirst]
  cases form with
  | chan direction =>
      cases direction with
      | receive => cases noArrow
      | both => nofun
      | send => nofun
  | _ => nofun

/-- A type expression behind which one may end does not begin a method. -/
theorem TypeForm.not_method
    (regular : style.Regular)
    (form : TypeForm)
    {behind : List Lexeme}
    (stops : Heads Kind.endsType behind)
    {cursor : Cursor}
    (coming : cursor.coming = form.lexemes style ++ behind) :
    (cursor.sees .ident && cursor.peek? 1 == some .leftParen) = false := by
  obtain ⟨stop, others, rfl, ends⟩ := stops
  by_cases isIdent : form.firstKind = .ident
  · obtain ⟨qualifier, ident, args, rfl⟩ := TypeForm.eq_name_of_firstKind isIdent
    have unopened := peek?_one_ne_leftParen coming (typesBalanced regular args)
      (typesHead style args) ends
    rw [beq_false_of_ne unopened, Bool.and_false]
  · simp [sees, peek?_zero_form coming, isIdent]

namespace TermsForm

/-- What a reader makes of the types of the terms. -/
def types : TermsForm → List TypeExpr
  | .last _ type => [type.expr]
  | .more _ type rest => type.expr :: rest.types

/-- Whether the terms form a type set: there are several of them, or the only one has a tilde. -/
def isTypeSet : TermsForm → Bool
  | .last tilde _ => tilde
  | .more _ _ _ => true

/-- Terms form a type set, or are the one type that they embed. -/
theorem node_eq
    (terms : TermsForm) :
    Read.node (if terms.isTypeSet then .typeSetElem else .embeddedElem) here
      (terms.types.map .type) = .elem terms.expr := by
  cases terms with
  | last tilde => cases tilde <;> rfl
  | more => rfl

/-- Terms are no method. -/
theorem not_method
    (regular : style.Regular)
    (terms : TermsForm)
    {behind : List Lexeme}
    (ends : Heads (endsItem (some .rightBrace)) behind)
    {cursor : Cursor}
    (coming : cursor.coming = terms.lexemes style ++ behind) :
    (cursor.sees .ident && cursor.peek? 1 == some .leftParen) = false := by
  have tilded : ∀ rest, cursor.coming = .ofKind .tilde :: rest → cursor.sees .ident = false :=
    fun _ => sees_cons
  cases terms with
  | last tilde type =>
      cases tilde with
      | true => rw [tilded _ coming, Bool.false_and]
      | false => exact type.not_method regular (ends.imp fun _ => Kind.endsType_of_endsItem) coming
  | more tilde type rest =>
      cases tilde with
      | true => rw [tilded _ coming, Bool.false_and]
      | false =>
          rw [TermsForm.lexemes, List.append_assoc, List.append_assoc] at coming
          exact type.not_method regular ⟨_, _, rfl, rfl⟩ coming

end TermsForm

mutual

/-- A type expression is read back wherever one may end behind it. -/
theorem TypeForm.reads
    (regular : style.Regular) :
    ∀ form : TypeForm, form.Parenthesised → ∀ behind : List Lexeme,
      Heads Kind.endsType behind → Reads typeRule (form.lexemes style) [.type form.expr] behind
  | .name qualifier ident args, enough, behind, stops => by
      have named := Reads.typeName (typesRead regular args enough) (typesHead style args) qualifier
        ident stops
      rw [isEmpty_typesExpr] at named
      refine named.congr fun cursor coming => ?_
      have isIdent : cursor.peek? 0 = some .ident := by
        rw [peek?_eq, coming]
        cases qualifier <;> rfl
      rw [closesTypes_typeRule, typeExpr, isIdent]
  | .pointer elem, enough, behind, stops => (elem.reads regular enough behind stops).pointer
  | .slice elem, enough, behind, stops => (elem.reads regular enough behind stops).slice
  | .array length elem, enough, behind, stops =>
      (elem.reads regular enough behind stops).array length
  | .map key value, enough, behind, stops =>
      (key.reads regular enough.1 _ ⟨_, _, rfl, rfl⟩).map
        (value.reads regular enough.2 behind stops)
  | .chan direction elem, enough, behind, stops =>
      (elem.reads regular enough.2 behind stops).chan fun isBoth =>
        TypeForm.ne_arrow (enough.1 isBoth) behind
  | .func params result, enough, behind, stops =>
      Reads.func (paramsRead regular params enough.1) (paramsHead style params)
        (result.reads regular enough.2 behind stops)
  | .struct fields, enough, _, _ =>
      Reads.struct regular (fieldsHead style fields) (fieldsRead regular fields enough)
  | .interface elems, enough, _, _ =>
      Reads.interface regular (elemsHead style elems) (elemsRead regular elems enough)
  | .paren inner, enough, _, _ => (inner.reads regular enough _ ⟨_, _, rfl, rfl⟩).paren

/-- Each of several type expressions is read back. -/
theorem typesRead
    (regular : style.Regular) :
    ∀ types : List TypeForm, TypesParenthesised types →
      ReadsEach typeRule Kind.endsType (typesLexemes style types) ((typesExpr types).map .type)
  | [], _ => .nil
  | first :: rest, enough => .cons (first.reads regular enough.1) (typesRead regular rest enough.2)

/-- Each entry of a parameter list is read back. -/
theorem paramsRead
    (regular : style.Regular) :
    ∀ params : List ParamForm, ParamsParenthesised params →
      ReadsEach (param typeRule) Kind.endsType (paramsLexemes style params)
        ((paramsExpr params).map .param)
  | [], _ => .nil
  | .mk name variadic type :: rest, enough =>
      .cons
        (fun behind stops => Reads.param regular type stops
          (type.reads regular enough.1 behind stops) name variadic)
        (paramsRead regular rest enough.2)

/-- The results of a function are read back. -/
theorem ResultForm.reads
    (regular : style.Regular) :
    ∀ result : ResultForm, result.Parenthesised → ∀ behind : List Lexeme,
      Heads Kind.endsType behind →
        Reads (results typeRule) (result.lexemes style) (resultParts result.expr) behind
  | .none, _, _, stops => Reads.results_none stops
  | .single type, enough, behind, stops =>
      Reads.results_single enough.1 (type.reads regular enough.2 behind stops)
  | .list params, enough, _, _ =>
      Reads.results_list (paramsRead regular params enough) (paramsHead style params)

/-- Each field declaration is read back. -/
theorem fieldsRead
    (regular : style.Regular) :
    ∀ fields : List FieldForm, FieldsParenthesised fields →
      ReadsEach (fieldDecl typeRule) (endsItem (some .rightBrace)) (fieldsLexemes style fields)
        ((fieldsExpr fields).map .field)
  | [], _ => .nil
  | .named first more type tag :: rest, enough =>
      .cons
        (fun behind ends => Reads.namedField ends tag first more
          (type.reads regular enough.1 _
            ((Heads.tagged ends tag).imp fun _ => Kind.endsType_of_endsField)))
        (fieldsRead regular rest enough.2)
  | .embedded starred qualifier ident args tag :: rest, enough =>
      .cons
        (fun behind ends => by
          have embedded := Reads.embeddedField ends tag (typesRead regular args enough.1)
            (typesHead style args) (typesBalanced regular args) starred qualifier ident
          rw [isEmpty_typesExpr] at embedded
          exact embedded)
        (fieldsRead regular rest enough.2)

/-- Each interface element is read back. -/
theorem elemsRead
    (regular : style.Regular) :
    ∀ elems : List ElemForm, ElemsParenthesised elems →
      ReadsEach (interfaceElem typeRule) (endsItem (some .rightBrace)) (elemsLexemes style elems)
        ((elemsExpr elems).map .elem)
  | [], _ => .nil
  | .method name params result :: rest, enough =>
      .cons
        (fun behind ends => Reads.method (paramsRead regular params enough.1)
          (paramsHead style params)
          (result.reads regular enough.2.1 behind (ends.imp fun _ => Kind.endsType_of_endsItem))
          name)
        (elemsRead regular rest enough.2.2)
  | .terms terms :: rest, enough =>
      .cons
        (fun behind ends =>
          ((terms.reads regular enough.1 behind ends).terms fun _ coming =>
            terms.not_method regular ends coming).alike
              (congrArg (fun part => seen [part]) terms.node_eq))
        (elemsRead regular rest enough.2)

/-- The terms of an interface element are read back. -/
theorem TermsForm.reads
    (regular : style.Regular) :
    ∀ terms : TermsForm, terms.Parenthesised → ∀ behind : List Lexeme,
      Heads (endsItem (some .rightBrace)) behind →
        ReadsTerms (terms.lexemes style) (terms.types.map .type) terms.isTypeSet behind
  | .last tilde type, enough, behind, ends =>
      .last (type.heads style) tilde (ends.ne rfl)
        (type.reads regular enough behind (ends.imp fun _ => Kind.endsType_of_endsItem))
  | .more tilde type rest, enough, behind, ends =>
      .more (type.heads style) tilde (type.reads regular enough.1 _ ⟨_, _, rfl, rfl⟩)
        (rest.reads regular enough.2 behind ends)

end

end Forms

end Implementers.Syntax
