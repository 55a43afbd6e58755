import Implementers.Proofs.Scope.Relocation
import Implementers.Syntax.SourceFile

namespace Implementers.Syntax

/-!
# What a reader sees

A reader of a syntax tree passes over white space and comments, over the brackets and separators of
a list, and over where anything stands.  What a node is read as follows from what is seen of its
children.  Only an array length is read from all of its tokens.
-/

/-- Whether a reader looks for tokens of a kind. -/
def Kind.isRead : Kind → Bool
  | .ident | .string | .dot | .equals | .ellipsis | .star | .arrow | .chanKeyword => true
  | _ => false

/-- An element of an interface whose spans are moved. -/
def Elem.moved
    (move : Span → Span) :
    Elem → Elem
  | .method span name params result =>
      .method (move span) (name.map (Ident.moved move)) (params.moved move) (result.moved move)
  | .embedded span type => .embedded (move span) (type.moved move)
  | .typeSet span => .typeSet (move span)

/-- An import whose spans are moved. -/
def ImportSpec.moved
    (move : Span → Span)
    (spec : ImportSpec) :
    ImportSpec :=
  { spec with name := spec.name.map (Ident.moved move) }

theorem typesMoved_eq_map
    (move : Span → Span)
    (types : List TypeExpr) :
    typesMoved move types = types.map (TypeExpr.moved move) := by
  induction types with
  | nil => rfl
  | cons _ _ inductionHypothesis => simp only [typesMoved, inductionHypothesis, List.map_cons]

/-- Moving elements moves each of them. -/
theorem elemsMoved_eq_map
    (move : Span → Span)
    (elems : List Elem) :
    elemsMoved move elems = elems.map (Elem.moved move) := by
  induction elems with
  | nil => rfl
  | cons elem rest inductionHypothesis =>
      cases elem <;> simp only [elemsMoved, inductionHypothesis, List.map_cons, Elem.moved]

/-- A token that stands nowhere in particular. -/
def Token.placeless
    (token : Token) :
    Token :=
  { token with offset := 0 }

namespace Part

/-- A part that stands nowhere in particular. -/
def placeless : Part → Part
  | .token found => .token found.placeless
  | .name found => .name (found.moved nowhere)
  | .type found => .type (found.moved nowhere)
  | .typeArgs found => .typeArgs (found.map (TypeExpr.moved nowhere))
  | .typeParams => .typeParams
  | .arrayLength found => .arrayLength found
  | .params found => .params (found.moved nowhere)
  | .param found => .param (found.moved nowhere)
  | .result found => .result (found.moved nowhere)
  | .field found => .field (found.moved nowhere)
  | .elem found => .elem (found.moved nowhere)
  | .receiver found => .receiver (found.moved nowhere)
  | .packageClause found => .packageClause (found.map (Ident.moved nowhere))
  | .importSpec found => .importSpec (found.moved nowhere)
  | .importDecl found => .importDecl (found.map (ImportSpec.moved nowhere))
  | .typeSpec found => .typeSpec (found.moved nowhere)
  | .typeDecl found => .typeDecl (found.map (TypeSpec.moved nowhere))
  | .funcDecl found => .funcDecl (found.moved nowhere)
  | .other => .other

/-- Whether a reader sees a part. -/
def isSeen
    (part : Part) :
    Bool :=
  part.token?.all (·.kind.isRead)

end Part

/-- What a reader sees of neighbouring parts. -/
def seen
    (parts : List Part) :
    List Part :=
  (parts.filter Part.isSeen).map Part.placeless

/-- Whether a reader cannot tell neighbouring parts from others. -/
def Indistinct
    (left right : List Part) :
    Prop :=
  seen left = seen right

@[simp] theorem seen_append
    (front back : List Part) :
    seen (front ++ back) = seen front ++ seen back := by
  simp [seen]

/-- The first of two identifiers, if there are exactly two. -/
def soleQualifier : List Ident → Option Ident
  | [qualifier, _] => some qualifier
  | _ => none

/-! ## Finding -/

namespace Indistinct

variable {left right : List Part}

/-- A property that only seen parts have is seen. -/
theorem any
    {holds : Part → Bool}
    (same : ∀ part : Part, holds part.placeless = holds part)
    (onlySeen : ∀ part : Part, holds part = true → part.isSeen = true)
    (indistinct : Indistinct left right) :
    left.any holds = right.any holds := by
  have any_seen : ∀ parts, (seen parts).any holds = parts.any holds := by
    intro parts
    simp only [seen, List.any_map, List.any_filter]
    congr 1
    funext part
    cases holdsHere : holds part with
    | true => simp [same, holdsHere, onlySeen part holdsHere]
    | false => simp [same, holdsHere]
  rw [← any_seen left, ← any_seen right, indistinct]

section Finding

variable
  (indistinct : Indistinct left right)
  (find : Part → Option α)
  (move : α → α)
  (finds : ∀ part : Part, find part.placeless = (find part).map move)
  (notToken : ∀ token, find (.token token) = none)

include indistinct finds notToken

/-- What is found among parts, other than tokens, is found among those that look the same. -/
theorem filterMap :
    (left.filterMap find).map move = (right.filterMap find).map move := by
  have filterMap_seen : ∀ parts,
      (seen parts).filterMap find = (parts.filterMap find).map move := by
    intro parts
    simp only [seen, List.filterMap_map, List.filterMap_filter, List.map_filterMap]
    congr 1
    funext part
    cases part with
    | token token =>
        have none := finds (.token token)
        rw [notToken, Option.map_none] at none
        rw [notToken, Option.map_none, Function.comp_apply, none, ite_self]
    | _ => exact finds _
  rw [← filterMap_seen, ← filterMap_seen, indistinct]

theorem findSome? :
    (left.findSome? find).map move = (right.findSome? find).map move := by
  simpa only [List.head?_map, List.head?_filterMap] using
    congrArg List.head? (indistinct.filterMap find move finds notToken)

theorem getD_findSome?
    (absent : α) :
    move ((left.findSome? find).getD absent) = move ((right.findSome? find).getD absent) := by
  rw [← Option.getD_map move, ← Option.getD_map move,
    indistinct.findSome? find move finds notToken]

end Finding

section Tokens

variable (indistinct : Indistinct left right)

include indistinct

/-- Tokens that a reader looks for look the same up to where they stand. -/
theorem tokens
    (belongs : Kind → Bool)
    (isRead : ∀ kind, belongs kind = true → kind.isRead = true) :
    ((left.filterMap Part.token?).filter (belongs ·.kind)).map Token.placeless =
      ((right.filterMap Part.token?).filter (belongs ·.kind)).map Token.placeless := by
  have tokens_seen : ∀ parts, ((seen parts).filterMap Part.token?).filter (belongs ·.kind) =
      ((parts.filterMap Part.token?).filter (belongs ·.kind)).map Token.placeless := by
    intro parts
    simp only [seen, List.filterMap_map, List.filterMap_filter, List.filter_filterMap,
      List.map_filterMap]
    congr 1
    funext part
    cases part with
    | token token =>
        cases wanted : belongs token.kind <;> cases isSeen : token.kind.isRead <;>
          simp [Part.isSeen, Part.placeless, Part.token?, Token.placeless, Option.filter_some,
            wanted, isSeen]
        simp [isRead _ wanted] at isSeen
    | _ => rfl
  rw [← tokens_seen, ← tokens_seen, indistinct]

theorem isToken
    {kind : Kind}
    (isRead : kind.isRead = true) :
    left.any (Part.isToken kind) = right.any (Part.isToken kind) := by
  refine indistinct.any (by rintro (_ | _) <;> rfl) fun part isToken => ?_
  cases part with
  | token token =>
      simp only [Part.isToken, Part.token?, Option.any_some, decide_eq_true_eq] at isToken
      simp [Part.isSeen, Part.token?, isToken, isRead]
  | _ => rfl

theorem isTypeParams :
    left.any Part.isTypeParams = right.any Part.isTypeParams :=
  indistinct.any (by rintro (_ | _) <;> rfl) (by
    rintro (_ | _) isTypeParams <;> first | rfl | cases isTypeParams)

theorem idents :
    (Read.idents left).map (Ident.moved nowhere) =
      (Read.idents right).map (Ident.moved nowhere) := by
  have spelled : ∀ parts, (Read.idents parts).map (Ident.moved nowhere) =
      (((parts.filterMap Part.token?).filter (·.kind = .ident)).map Token.placeless).map
        fun token => ⟨token.spelling, ⟨0, 0⟩⟩ := by
    intro parts
    simp only [Read.idents, List.map_map]
    rfl
  rw [spelled, spelled, indistinct.tokens (· = .ident)]
  rintro _ isIdent
  rw [of_decide_eq_true isIdent]
  rfl

theorem chanDirection :
    Read.chanDirection left = Read.chanDirection right := by
  let belongs : Kind → Bool := fun kind => kind = .arrow || kind = .chanKeyword
  have kinds : ∀ parts : List Part, ((parts.filterMap Part.token?).map Token.kind).filter belongs =
      (((parts.filterMap Part.token?).filter (belongs ·.kind)).map Token.placeless).map
        Token.kind := by
    intro parts
    rw [List.filter_map, List.map_map]
    rfl
  have same := indistinct.tokens belongs (by
    intro kind
    simp only [belongs, Bool.or_eq_true, decide_eq_true_eq]
    rintro (rfl | rfl) <;> rfl)
  have sameKinds := (kinds left).trans ((congrArg _ same).trans (kinds right).symm)
  simp only [belongs] at sameKinds
  simp only [Read.chanDirection, sameKinds]

end Tokens

section Reading

variable
  (indistinct : Indistinct left right)
  (span other : Span)

include indistinct

theorem name? :
    (left.findSome? Part.name?).map (Ident.moved nowhere) =
      (right.findSome? Part.name?).map (Ident.moved nowhere) :=
  indistinct.findSome? _ _ (by rintro (_ | _) <;> rfl) fun _ => rfl

theorem name :
    (Read.name span left).moved nowhere = (Read.name other right).moved nowhere := by
  have moved : ∀ (parts : List Part) (span : Span),
      (Read.name span parts).moved nowhere =
        ((Read.idents parts).map (Ident.moved nowhere)).head?.getD ⟨"", ⟨0, 0⟩⟩ := by
    intro parts span
    rw [Read.name, List.head?_map]
    cases (Read.idents parts).head? <;> rfl
  rw [moved, moved, indistinct.idents]

theorem types :
    (left.filterMap Part.type?).map (TypeExpr.moved nowhere) =
      (right.filterMap Part.type?).map (TypeExpr.moved nowhere) :=
  indistinct.filterMap _ _ (by rintro (_ | _) <;> rfl) fun _ => rfl

theorem typeAt
    (index : Nat) :
    (Read.typeAt index span left).moved nowhere =
      (Read.typeAt index other right).moved nowhere := by
  have moved : ∀ (parts : List Part) (span : Span),
      (Read.typeAt index span parts).moved nowhere =
        (((parts.filterMap Part.type?).map (TypeExpr.moved nowhere))[index]?).getD
          (.missing 0) := by
    intro parts span
    rw [Read.typeAt, List.getElem?_map]
    cases (parts.filterMap Part.type?)[index]? <;> rfl
  rw [moved, moved, indistinct.types]

theorem params :
    (Read.params left).moved nowhere = (Read.params right).moved nowhere :=
  indistinct.getD_findSome? Part.params? _ (by rintro (_ | _) <;> rfl) (fun _ => rfl) .absent

theorem result :
    (Read.result left).moved nowhere = (Read.result right).moved nowhere :=
  indistinct.getD_findSome? Part.result? _ (by rintro (_ | _) <;> rfl) (fun _ => rfl) .absent

theorem typeName :
    (Read.typeName span left).moved nowhere = (Read.typeName other right).moved nowhere := by
  have args := indistinct.findSome? Part.typeArgs? (List.map (TypeExpr.moved nowhere))
    (by rintro (_ | _) <;> rfl) fun _ => rfl
  have moved : ∀ (parts : List Part) (span : Span),
      (Read.typeName span parts).moved nowhere =
        let found := (Read.idents parts).map (Ident.moved nowhere)
        let args := (parts.findSome? Part.typeArgs?).map (List.map (TypeExpr.moved nowhere))
        .name ⟨0, 0⟩ (soleQualifier found) found.getLast? args.isSome (args.getD []) := by
    intro parts span
    simp only [Read.typeName, TypeExpr.moved, typesMoved_eq_map, List.getLast?_map,
      Option.isSome_map]
    generalize Read.idents parts = found
    generalize parts.findSome? Part.typeArgs? = args
    rcases found with _ | ⟨_, _ | ⟨_, _ | _⟩⟩ <;> cases args <;> rfl
  rw [moved, moved, indistinct.idents, args]

theorem resultClause :
    (Read.resultClause span left).moved nowhere =
      (Read.resultClause other right).moved nowhere := by
  have list := indistinct.findSome? Part.params? (ParamList.moved nowhere)
    (by rintro (_ | _) <;> rfl) fun _ => rfl
  have single := indistinct.typeAt span other 0
  unfold Read.resultClause
  cases ours : left.findSome? Part.params? <;> cases theirs : right.findSome? Part.params? <;>
    rw [ours, theirs] at list
  · exact congrArg Result.single single
  · cases list
  · cases list
  · exact congrArg Result.list (Option.some.inj list)

theorem importSpec :
    (Read.importSpec left).moved nowhere = (Read.importSpec right).moved nowhere := by
  have path : ∀ parts, (Read.importSpec parts).path =
      ((((parts.filterMap Part.token?).filter (·.kind = .string)).map Token.placeless).head?).map
        fun token => String.ofList (Read.unquoted token.text) := by
    intro parts
    rw [List.head?_map, List.head?_filter, Option.map_map]
    rfl
  have samePath := indistinct.tokens (· = .string) (by
    rintro _ isString
    rw [of_decide_eq_true isString]
    rfl)
  simp only [ImportSpec.moved, ImportSpec.mk.injEq]
  exact ⟨indistinct.name?, indistinct.isToken rfl, by rw [path, path, samePath]⟩

theorem typeSpec :
    (Read.typeSpec span left).moved nowhere = (Read.typeSpec other right).moved nowhere := by
  simp only [Read.typeSpec, TypeSpec.moved, TypeSpec.mk.injEq]
  exact ⟨rfl, indistinct.name?, indistinct.isTypeParams, indistinct.isToken rfl,
    indistinct.typeAt span other 0⟩

/-- The types that parts declare are alike when the parts look the same. -/
theorem declaredTypes :
    (left.flatMap Part.types).map (TypeSpec.moved nowhere) =
      (right.flatMap Part.types).map (TypeSpec.moved nowhere) := by
  have types_seen : ∀ parts, (seen parts).flatMap Part.types =
      (parts.flatMap Part.types).map (TypeSpec.moved nowhere) := by
    intro parts
    induction parts with
    | nil => rfl
    | cons part rest inductionHypothesis =>
        have first : (seen [part]).flatMap Part.types =
            part.types.map (TypeSpec.moved nowhere) := by
          cases part with
          | token token =>
              cases isRead : token.kind.isRead <;>
                simp [seen, Part.isSeen, Part.token?, isRead, Part.placeless, Part.types]
          | typeDecl specs => exact List.append_nil _
          | _ => rfl
        rw [← List.singleton_append, seen_append, List.flatMap_append, first, inductionHypothesis,
          List.flatMap_append, List.map_append, List.flatMap_singleton]
  rw [← types_seen, ← types_seen, indistinct]

theorem receiver? :
    (left.findSome? Part.receiver?).map (Receiver.moved nowhere) =
      (right.findSome? Part.receiver?).map (Receiver.moved nowhere) :=
  indistinct.findSome? _ _ (by rintro (_ | _) <;> rfl) fun _ => rfl

theorem receiver :
    ((left.findSome? Part.params?).bind (·.entries.head?)).map (Param.moved nowhere) =
      ((right.findSome? Part.params?).bind (·.entries.head?)).map (Param.moved nowhere) := by
  have entry : ∀ list : ParamList, list.entries.head?.map (Param.moved nowhere) =
      (list.moved nowhere).entries.head? := by
    intro list
    cases list <;> simp [ParamList.moved, ParamList.entries, paramsMoved_eq_map]
  have list := indistinct.findSome? Part.params? (ParamList.moved nowhere)
    (by rintro (_ | _) <;> rfl) fun _ => rfl
  have moved := congrArg (Option.bind · (·.entries.head?)) list
  simpa only [Option.map_bind, Option.bind_map, Function.comp_def, entry] using moved

theorem funcDecl :
    (Read.funcDecl span left).moved nowhere = (Read.funcDecl other right).moved nowhere := by
  simp only [Read.funcDecl, FuncDecl.moved, FuncDecl.mk.injEq]
  exact ⟨rfl, indistinct.receiver?, indistinct.name?, indistinct.isTypeParams, indistinct.params,
    indistinct.result⟩

/-- What a node is read as, unless it is an array length, follows from what is seen of it. -/
theorem node
    {kind : Kind}
    (notLength : kind ≠ .arrayLength) :
    (Read.node kind span left).placeless = (Read.node kind other right).placeless := by
  have type := indistinct.typeAt span other 0
  cases kind
  case arrayLength => exact absurd rfl notLength
  case name => exact congrArg Part.name (indistinct.name _ _)
  case typeName => exact congrArg Part.type (indistinct.typeName _ _)
  case typeArgs => exact congrArg Part.typeArgs indistinct.types
  case pointerType => exact congrArg (fun elem => Part.type (.pointer ⟨0, 0⟩ elem)) type
  case sliceType => exact congrArg (fun elem => Part.type (.slice ⟨0, 0⟩ elem)) type
  case parenType => exact congrArg (fun inner => Part.type (.paren ⟨0, 0⟩ inner)) type
  case embeddedElem => exact congrArg (fun elem => Part.elem (.embedded ⟨0, 0⟩ elem)) type
  case result => exact congrArg Part.result (indistinct.resultClause _ _)
  case importSpec => exact congrArg Part.importSpec indistinct.importSpec
  case typeSpec => exact congrArg Part.typeSpec (indistinct.typeSpec _ _)
  case funcDecl => exact congrArg Part.funcDecl (indistinct.funcDecl _ _)
  case packageClause => exact congrArg Part.packageClause indistinct.name?
  case importDecl =>
      exact congrArg Part.importDecl
        (indistinct.filterMap _ _ (by rintro (_ | _) <;> rfl) fun _ => rfl)
  case typeDecl =>
      exact congrArg Part.typeDecl
        (indistinct.filterMap _ _ (by rintro (_ | _) <;> rfl) fun _ => rfl)
  case mapType =>
      have value := indistinct.typeAt span other 1
      simp only [Read.node, Part.placeless, TypeExpr.moved, type, value, nowhere]
  case chanType =>
      simp only [Read.node, Part.placeless, TypeExpr.moved, type, indistinct.chanDirection, nowhere]
  case arrayType =>
      have length := indistinct.getD_findSome? Part.arrayLength? id
        (by rintro (_ | _) <;> rfl) (fun _ => rfl) ""
      simp only [id] at length
      simp only [Read.node, Part.placeless, TypeExpr.moved, type, length, nowhere]
  case funcType =>
      simp only [Read.node, Part.placeless, TypeExpr.moved, indistinct.params, indistinct.result,
        nowhere]
  case methodSpec =>
      simp only [Read.node, Part.placeless, Elem.moved, indistinct.name?, indistinct.params,
        indistinct.result, nowhere]
  case structType =>
      have fields := indistinct.filterMap Part.field? (FieldDecl.moved nowhere)
        (by rintro (_ | _) <;> rfl) fun _ => rfl
      simp only [Read.node, Part.placeless, TypeExpr.moved, fieldsMoved_eq_map, fields, nowhere]
  case interfaceType =>
      have elems := indistinct.filterMap Part.elem? (Elem.moved nowhere)
        (by rintro (_ | _) <;> rfl) fun _ => rfl
      simp only [Read.node, Part.placeless, TypeExpr.moved, elemsMoved_eq_map, elems, nowhere]
  case paramList =>
      have params := indistinct.filterMap Part.param? (Param.moved nowhere)
        (by rintro (_ | _) <;> rfl) fun _ => rfl
      simp only [Read.node, Part.placeless, ParamList.moved, paramsMoved_eq_map, params, nowhere]
  case param =>
      have ellipsis := indistinct.isToken (by decide : Kind.isRead .ellipsis = true)
      simp only [Read.node, Part.placeless, Param.moved, indistinct.name?, ellipsis, type, nowhere]
  case fieldDecl =>
      have names := indistinct.filterMap Part.name? (Ident.moved nowhere)
        (by rintro (_ | _) <;> rfl) fun _ => rfl
      have star := indistinct.isToken (by decide : Kind.isRead .star = true)
      simp only [Read.node, Part.placeless, FieldDecl.moved, names, star, type, nowhere]
  case receiver => exact congrArg (fun param => Part.receiver ⟨⟨0, 0⟩, param⟩) indistinct.receiver
  all_goals rfl

end Reading

end Indistinct

end Implementers.Syntax
