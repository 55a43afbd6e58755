import Implementers.Proofs.Syntax.Lossless
import Implementers.Proofs.Syntax.Reading

namespace Implementers.Syntax

/-!
# Source text that stands elsewhere

When the text in front of some source text grows or shrinks, every offset in it is shifted by the
same amount.  What a node is read as is then the same in the other places: reading commutes with
shifting, as long as no token is torn apart.  A tree whose offsets a shift leaves alone is read as
before.
-/

/-- A span whose ends are shifted. -/
def Span.shifted
    (shift : Nat → Nat)
    (span : Span) :
    Span :=
  ⟨shift span.start, shift span.stop⟩

namespace Token

/-- A token at the offset that its own one is shifted to. -/
def shifted
    (shift : Nat → Nat)
    (token : Token) :
    Token :=
  { token with offset := shift token.offset }

/-- Whether a shift moves both ends of a token by the same amount. -/
def Rigid
    (shift : Nat → Nat)
    (token : Token) :
    Prop :=
  (token.shifted shift).stop = shift token.stop

@[simp] theorem shifted_kind
    (shift : Nat → Nat)
    (token : Token) :
    (token.shifted shift).kind = token.kind :=
  rfl

@[simp] theorem shifted_text
    (shift : Nat → Nat)
    (token : Token) :
    (token.shifted shift).text = token.text :=
  rfl

end Token

/-- The declarations of a source file whose spans are moved. -/
def SourceFile.moved
    (move : Span → Span)
    (file : SourceFile) :
    SourceFile :=
  { package := file.package.map (Ident.moved move)
    imports := file.imports.map (ImportSpec.moved move)
    types := file.types.map (TypeSpec.moved move)
    funcs := file.funcs.map (FuncDecl.moved move) }

namespace Part

/-- A part at the offsets that its own ones are shifted to. -/
def shifted
    (shift : Nat → Nat) :
    Part → Part
  | .token found => .token (found.shifted shift)
  | .name found => .name (found.moved (Span.shifted shift))
  | .type found => .type (found.moved (Span.shifted shift))
  | .typeArgs found => .typeArgs (found.map (TypeExpr.moved (Span.shifted shift)))
  | .typeParams => .typeParams
  | .arrayLength found => .arrayLength found
  | .params found => .params (found.moved (Span.shifted shift))
  | .param found => .param (found.moved (Span.shifted shift))
  | .result found => .result (found.moved (Span.shifted shift))
  | .field found => .field (found.moved (Span.shifted shift))
  | .elem found => .elem (found.moved (Span.shifted shift))
  | .receiver found => .receiver (found.moved (Span.shifted shift))
  | .packageClause found => .packageClause (found.map (Ident.moved (Span.shifted shift)))
  | .importSpec found => .importSpec (found.moved (Span.shifted shift))
  | .importDecl found => .importDecl (found.map (ImportSpec.moved (Span.shifted shift)))
  | .typeSpec found => .typeSpec (found.moved (Span.shifted shift))
  | .typeDecl found => .typeDecl (found.map (TypeSpec.moved (Span.shifted shift)))
  | .funcDecl found => .funcDecl (found.moved (Span.shifted shift))
  | .other => .other

/-- Whether the tokens among some parts keep their length under a shift. -/
def Rigid
    (shift : Nat → Nat)
    (parts : List Part) :
    Prop :=
  ∀ token, .token token ∈ parts → token.Rigid shift

section Accessors

variable
  (shift : Nat → Nat)
  (part : Part)

@[simp] theorem token?_shifted :
    (part.shifted shift).token? = part.token?.map (Token.shifted shift) := by
  cases part <;> rfl

@[simp] theorem name?_shifted :
    (part.shifted shift).name? = part.name?.map (Ident.moved (Span.shifted shift)) := by
  cases part <;> rfl

@[simp] theorem type?_shifted :
    (part.shifted shift).type? = part.type?.map (TypeExpr.moved (Span.shifted shift)) := by
  cases part <;> rfl

@[simp] theorem typeArgs?_shifted :
    (part.shifted shift).typeArgs? =
      part.typeArgs?.map (List.map (TypeExpr.moved (Span.shifted shift))) := by
  cases part <;> rfl

@[simp] theorem arrayLength?_shifted :
    (part.shifted shift).arrayLength? = part.arrayLength? := by
  cases part <;> rfl

@[simp] theorem params?_shifted :
    (part.shifted shift).params? = part.params?.map (ParamList.moved (Span.shifted shift)) := by
  cases part <;> rfl

@[simp] theorem param?_shifted :
    (part.shifted shift).param? = part.param?.map (Param.moved (Span.shifted shift)) := by
  cases part <;> rfl

@[simp] theorem result?_shifted :
    (part.shifted shift).result? = part.result?.map (Result.moved (Span.shifted shift)) := by
  cases part <;> rfl

@[simp] theorem field?_shifted :
    (part.shifted shift).field? = part.field?.map (FieldDecl.moved (Span.shifted shift)) := by
  cases part <;> rfl

@[simp] theorem elem?_shifted :
    (part.shifted shift).elem? = part.elem?.map (Elem.moved (Span.shifted shift)) := by
  cases part <;> rfl

@[simp] theorem receiver?_shifted :
    (part.shifted shift).receiver? = part.receiver?.map (Receiver.moved (Span.shifted shift)) := by
  cases part <;> rfl

@[simp] theorem packageClause?_shifted :
    (part.shifted shift).packageClause? =
      part.packageClause?.map (Option.map (Ident.moved (Span.shifted shift))) := by
  cases part <;> rfl

@[simp] theorem importSpec?_shifted :
    (part.shifted shift).importSpec? =
      part.importSpec?.map (ImportSpec.moved (Span.shifted shift)) := by
  cases part <;> rfl

@[simp] theorem typeSpec?_shifted :
    (part.shifted shift).typeSpec? = part.typeSpec?.map (TypeSpec.moved (Span.shifted shift)) := by
  cases part <;> rfl

@[simp] theorem imports_shifted :
    (part.shifted shift).imports = part.imports.map (ImportSpec.moved (Span.shifted shift)) := by
  cases part <;> rfl

@[simp] theorem types_shifted :
    (part.shifted shift).types = part.types.map (TypeSpec.moved (Span.shifted shift)) := by
  cases part <;> rfl

@[simp] theorem funcDecl?_shifted :
    (part.shifted shift).funcDecl? = part.funcDecl?.map (FuncDecl.moved (Span.shifted shift)) := by
  cases part <;> rfl

@[simp] theorem isToken_shifted
    (kind : Kind) :
    (part.shifted shift).isToken kind = part.isToken kind := by
  cases part <;> rfl

@[simp] theorem isTypeParams_shifted :
    (part.shifted shift).isTypeParams = part.isTypeParams := by
  cases part <;> rfl

end Accessors

end Part

/-! ## Reading shifted parts -/

namespace Read

open Implementers.Syntax.Part

variable
  {shift : Nat → Nat}
  (parts : List Part)

/-- Finding among shifted parts finds what is found, shifted. -/
theorem filterMap_shifted
    {find : Part → Option α}
    {move : α → α}
    (moves : ∀ part : Part, find (part.shifted shift) = (find part).map move) :
    (parts.map (Part.shifted shift)).filterMap find = (parts.filterMap find).map move := by
  rw [List.filterMap_map, List.map_filterMap]
  exact congrArg (parts.filterMap ·) (funext moves)

theorem findSome?_shifted
    {find : Part → Option α}
    {move : α → α}
    (moves : ∀ part : Part, find (part.shifted shift) = (find part).map move) :
    (parts.map (Part.shifted shift)).findSome? find = (parts.findSome? find).map move := by
  rw [List.findSome?_map, List.map_findSome?]
  exact congrArg (parts.findSome? ·) (funext moves)

theorem any_shifted
    {holds : Part → Bool}
    (same : ∀ part : Part, holds (part.shifted shift) = holds part) :
    (parts.map (Part.shifted shift)).any holds = parts.any holds := by
  rw [List.any_map]
  exact congrArg (parts.any ·) (funext same)

/-- The tokens among shifted parts are the shifted tokens. -/
theorem tokens_shifted :
    (parts.map (Part.shifted shift)).filterMap Part.token? =
      (parts.filterMap Part.token?).map (Token.shifted shift) :=
  filterMap_shifted parts (token?_shifted shift)

theorem arrayLength_shifted :
    arrayLength (parts.map (Part.shifted shift)) = arrayLength parts := by
  simp only [arrayLength, tokens_shifted, List.flatMap_map, Token.shifted_text]

theorem chanDirection_shifted :
    chanDirection (parts.map (Part.shifted shift)) = chanDirection parts := by
  simp only [chanDirection, tokens_shifted, List.map_map, Function.comp_def, Token.shifted_kind]

theorem typeAt_shifted
    (index : Nat)
    (span : Span) :
    typeAt index (span.shifted shift) (parts.map (Part.shifted shift)) =
      (typeAt index span parts).moved (Span.shifted shift) := by
  simp only [typeAt, filterMap_shifted parts (type?_shifted shift), List.getElem?_map]
  cases (parts.filterMap Part.type?)[index]? <;> rfl

theorem params_shifted :
    params (parts.map (Part.shifted shift)) = (params parts).moved (Span.shifted shift) := by
  simp only [params, findSome?_shifted parts (params?_shifted shift)]
  cases parts.findSome? Part.params? <;> rfl

theorem result_shifted :
    result (parts.map (Part.shifted shift)) = (result parts).moved (Span.shifted shift) := by
  simp only [result, findSome?_shifted parts (result?_shifted shift)]
  cases parts.findSome? Part.result? <;> rfl

theorem resultClause_shifted
    (span : Span) :
    resultClause (span.shifted shift) (parts.map (Part.shifted shift)) =
      (resultClause span parts).moved (Span.shifted shift) := by
  simp only [resultClause, findSome?_shifted parts (params?_shifted shift)]
  cases parts.findSome? Part.params? with
  | none => exact congrArg Result.single (typeAt_shifted parts 0 span)
  | some => rfl

theorem importSpec_shifted :
    importSpec (parts.map (Part.shifted shift)) =
      (importSpec parts).moved (Span.shifted shift) := by
  simp only [importSpec, ImportSpec.moved, tokens_shifted,
    findSome?_shifted parts (name?_shifted shift),
    any_shifted parts (isToken_shifted shift · .dot), List.find?_map, Option.map_map,
    Function.comp_def, Token.shifted_kind, Token.shifted_text]
  rfl

theorem typeSpec_shifted
    (span : Span) :
    typeSpec (span.shifted shift) (parts.map (Part.shifted shift)) =
      (typeSpec span parts).moved (Span.shifted shift) := by
  simp only [typeSpec, TypeSpec.moved, typeAt_shifted, findSome?_shifted parts (name?_shifted shift),
    any_shifted parts (isToken_shifted shift · .equals),
    any_shifted parts (isTypeParams_shifted shift)]

theorem funcDecl_shifted
    (span : Span) :
    funcDecl (span.shifted shift) (parts.map (Part.shifted shift)) =
      (funcDecl span parts).moved (Span.shifted shift) := by
  simp only [funcDecl, FuncDecl.moved, params_shifted, result_shifted,
    findSome?_shifted parts (name?_shifted shift),
    findSome?_shifted parts (receiver?_shifted shift),
    any_shifted parts (isTypeParams_shifted shift)]

theorem receiver_shifted
    (span : Span) :
    node .receiver (span.shifted shift) (parts.map (Part.shifted shift)) =
      (node .receiver span parts).shifted shift := by
  simp only [node, Part.shifted, Receiver.moved, findSome?_shifted parts (params?_shifted shift)]
  cases parts.findSome? Part.params? with
  | none => rfl
  | some list =>
      cases list with
      | absent => rfl
      | list span params => rcases params with _ | ⟨⟨⟩, _⟩ <;> rfl

section Rigid

variable
  {parts : List Part}
  (rigid : Part.Rigid shift parts)

include rigid

theorem idents_shifted :
    idents (parts.map (Part.shifted shift)) =
      (idents parts).map (Ident.moved (Span.shifted shift)) := by
  simp only [idents, tokens_shifted, List.filter_map, List.map_map]
  refine List.map_congr_left fun token member => ?_
  have listed : .token token ∈ parts := by
    obtain ⟨part, isPart, isToken⟩ := List.mem_filterMap.mp (List.mem_filter.mp member).1
    cases part <;> cases isToken
    exact isPart
  exact congrArg (fun stop => (⟨token.spelling, ⟨shift token.offset, stop⟩⟩ : Ident))
    (rigid token listed)

theorem name_shifted
    (span : Span) :
    name (span.shifted shift) (parts.map (Part.shifted shift)) =
      (name span parts).moved (Span.shifted shift) := by
  simp only [name, idents_shifted rigid, List.head?_map]
  cases (idents parts).head? <;> rfl

theorem typeName_shifted
    (span : Span) :
    typeName (span.shifted shift) (parts.map (Part.shifted shift)) =
      (typeName span parts).moved (Span.shifted shift) := by
  have qualifier (found : List Ident) :
      soleQualifier (found.map (Ident.moved (Span.shifted shift))) =
        (soleQualifier found).map (Ident.moved (Span.shifted shift)) := by
    rcases found with _ | ⟨_, _ | ⟨_, _ | _⟩⟩ <;> rfl
  have reads (span : Span) (parts : List Part) :
      typeName span parts =
        .name span (soleQualifier (idents parts)) (idents parts).getLast?
          (parts.findSome? Part.typeArgs?).isSome ((parts.findSome? Part.typeArgs?).getD []) :=
    rfl
  simp only [reads, TypeExpr.moved, idents_shifted rigid, qualifier, List.getLast?_map,
    findSome?_shifted parts (typeArgs?_shifted shift), Option.isSome_map, typesMoved_eq_map]
  cases parts.findSome? Part.typeArgs? <;> rfl

/-- A node is read in its other place as what it was read as, shifted. -/
theorem node_shifted
    (kind : Kind)
    (span : Span) :
    node kind (span.shifted shift) (parts.map (Part.shifted shift)) =
      (node kind span parts).shifted shift := by
  cases kind with
  | receiver => exact receiver_shifted parts span
  | name => exact congrArg Part.name (name_shifted rigid span)
  | typeName => exact congrArg Part.type (typeName_shifted rigid span)
  | typeArgs => exact congrArg Part.typeArgs (filterMap_shifted parts (type?_shifted shift))
  | arrayLength => exact congrArg Part.arrayLength (arrayLength_shifted parts)
  | importSpec => exact congrArg Part.importSpec (importSpec_shifted parts)
  | typeSpec => exact congrArg Part.typeSpec (typeSpec_shifted parts span)
  | funcDecl => exact congrArg Part.funcDecl (funcDecl_shifted parts span)
  | result => exact congrArg Part.result (resultClause_shifted parts span)
  | structType =>
      simp only [node, Part.shifted, TypeExpr.moved, fieldsMoved_eq_map,
        filterMap_shifted parts (field?_shifted shift)]
  | interfaceType =>
      simp only [node, Part.shifted, TypeExpr.moved, elemsMoved_eq_map,
        filterMap_shifted parts (elem?_shifted shift)]
  | paramList =>
      simp only [node, Part.shifted, ParamList.moved, paramsMoved_eq_map,
        filterMap_shifted parts (param?_shifted shift)]
  | fieldDecl =>
      simp only [node, Part.shifted, FieldDecl.moved, typeAt_shifted,
        filterMap_shifted parts (name?_shifted shift),
        any_shifted parts (isToken_shifted shift · .star)]
  | param =>
      simp only [node, Part.shifted, Param.moved, typeAt_shifted,
        findSome?_shifted parts (name?_shifted shift),
        any_shifted parts (isToken_shifted shift · .ellipsis)]
  | arrayType =>
      have length :
          (parts.map (Part.shifted shift)).findSome? Part.arrayLength? =
            parts.findSome? Part.arrayLength? := by
        rw [List.findSome?_map]
        exact congrArg (parts.findSome? ·) (funext (arrayLength?_shifted shift))
      simp only [node, Part.shifted, TypeExpr.moved, typeAt_shifted, length]
  | packageClause =>
      simp only [node, Part.shifted, findSome?_shifted parts (name?_shifted shift)]
  | importDecl =>
      exact congrArg Part.importDecl (filterMap_shifted parts (importSpec?_shifted shift))
  | typeDecl => exact congrArg Part.typeDecl (filterMap_shifted parts (typeSpec?_shifted shift))
  | _ =>
      simp only [node, Part.shifted, TypeExpr.moved, Elem.moved, typeAt_shifted, params_shifted,
        result_shifted, chanDirection_shifted, findSome?_shifted parts (name?_shifted shift)]

end Rigid

end Read

/-! ## Source files -/

namespace Part

/-- Whether a part counts among the parts of a source file. -/
def declares : Part → Bool
  | .packageClause _ | .importDecl _ | .typeDecl _ | .funcDecl _ => true
  | _ => false

theorem declares_shifted
    (shift : Nat → Nat)
    (part : Part) :
    (part.shifted shift).declares = part.declares := by
  cases part <;> rfl

theorem filter_declares_shifted
    (shift : Nat → Nat)
    (parts : List Part) :
    (parts.map (Part.shifted shift)).filter declares =
      (parts.filter declares).map (Part.shifted shift) := by
  rw [List.filter_map]
  exact congrArg _ (List.filter_congr fun part _ => declares_shifted shift part)

end Part

namespace SourceFile

/-- Only declarations count among the parts of a source file. -/
theorem ofParts_filter
    (parts : List Part) :
    ofParts (parts.filter Part.declares) = ofParts parts := by
  simp only [ofParts, SourceFile.mk.injEq]
  refine ⟨?package, ?imports, ?types, ?funcs⟩
  case package =>
    refine congrArg Option.join ?_
    induction parts with
    | nil => rfl
    | cons part rest inductionHypothesis =>
        cases part <;> first | rfl | exact inductionHypothesis
  case imports =>
    induction parts with
    | nil => rfl
    | cons part rest inductionHypothesis =>
        cases part <;> first | exact inductionHypothesis | exact congrArg (_ ++ ·) inductionHypothesis
  case types =>
    induction parts with
    | nil => rfl
    | cons part rest inductionHypothesis =>
        cases part <;> first | exact inductionHypothesis | exact congrArg (_ ++ ·) inductionHypothesis
  case funcs =>
    induction parts with
    | nil => rfl
    | cons part rest inductionHypothesis =>
        cases part <;> first | exact inductionHypothesis | exact congrArg (_ :: ·) inductionHypothesis

/-- The declarations among shifted parts are the declarations moved. -/
theorem ofParts_shifted
    (shift : Nat → Nat)
    (parts : List Part) :
    ofParts (parts.map (Part.shifted shift)) = (ofParts parts).moved (Span.shifted shift) := by
  have package :
      ((parts.findSome? Part.packageClause?).map
          (Option.map (Ident.moved (Span.shifted shift)))).join =
        (parts.findSome? Part.packageClause?).join.map (Ident.moved (Span.shifted shift)) := by
    cases parts.findSome? Part.packageClause? <;> rfl
  simp only [ofParts, moved, Read.filterMap_shifted parts (Part.funcDecl?_shifted shift),
    Read.findSome?_shifted parts (Part.packageClause?_shifted shift), package, List.flatMap_map,
    Part.imports_shifted, Part.types_shifted, List.map_flatMap]

end SourceFile

/-! ## Trees in their places -/

namespace Tree

mutual

/-- Whether all offsets in a tree have a property. -/
def Stands
    (holds : Nat → Prop) :
    Tree → Prop
  | .leaf token => holds token.offset ∧ holds token.stop
  | .node _ span children => holds span.start ∧ holds span.stop ∧ ForestStands holds children

/-- Whether all offsets in neighbouring trees have a property. -/
def ForestStands
    (holds : Nat → Prop) :
    List Tree → Prop
  | [] => True
  | tree :: rest => tree.Stands holds ∧ ForestStands holds rest

end

theorem forestParts_eq_map
    (trees : List Tree) :
    forestParts trees = trees.map part := by
  induction trees with
  | nil => rfl
  | cons tree rest inductionHypothesis => simp only [forestParts, inductionHypothesis, List.map_cons]

mutual

/-- The offsets in a tree that is part of a source file lie between its ends. -/
theorem stands_of_inside
    {holds : Nat → Prop}
    {start : Nat} :
    ∀ {tree : Tree}, tree.Inside start →
      (∀ offset, start ≤ offset → offset ≤ start + Token.width tree.tokens → holds offset) →
      tree.Stands holds
  | .leaf token, inside, covered => by
      subst inside
      have width : Token.width [token] = Text.byteLength token.text := by simp
      exact ⟨covered _ (Nat.le_refl _) (Nat.le_add_right _ _),
        covered _ (Nat.le_add_right _ _) (by simp [tokens, Token.stop])⟩
  | .node kind span children, inside, covered => by
      obtain ⟨-, rfl, within⟩ := inside
      exact ⟨covered _ (Nat.le_refl _) (Nat.le_add_right _ _),
        covered _ (Nat.le_add_right _ _) (Nat.le_refl _),
        forestStands_of_inside within covered⟩

theorem forestStands_of_inside
    {holds : Nat → Prop}
    {start : Nat} :
    ∀ {trees : List Tree}, ForestInside start trees →
      (∀ offset, start ≤ offset → offset ≤ start + Token.width (forestTokens trees) →
        holds offset) →
      ForestStands holds trees
  | [], _, _ => trivial
  | tree :: rest, inside, covered => by
      simp only [forestTokens, Token.width_append] at covered
      refine ⟨stands_of_inside inside.1 fun offset above below => covered offset above (by omega),
        forestStands_of_inside inside.2 fun offset above below =>
          covered offset (by omega) (by omega)⟩

end

theorem forestStands_iff
    {holds : Nat → Prop}
    {trees : List Tree} :
    ForestStands holds trees ↔ ∀ tree ∈ trees, tree.Stands holds := by
  induction trees with
  | nil => simp [ForestStands]
  | cons tree rest inductionHypothesis => simp [ForestStands, inductionHypothesis]

/-- A node is no token for the node around it. -/
theorem part_node_ne_token
    (kind : Kind)
    (span : Span)
    (children : List Tree)
    {token : Token} :
    (node kind span children).part ≠ .token token := by
  cases kind <;> exact nofun

/-- Tokens whose offsets a shift leaves alone keep their length. -/
theorem rigid_of_stands
    {shift : Nat → Nat}
    {trees : List Tree}
    (stands : ForestStands (fun offset => shift offset = offset) trees) :
    Part.Rigid shift (trees.map part) := by
  intro token member
  obtain ⟨tree, isTree, isToken⟩ := List.mem_map.mp member
  cases tree with
  | node kind span children => exact absurd isToken (part_node_ne_token kind span children)
  | leaf leaf =>
      cases isToken
      have ends := forestStands_iff.mp stands _ isTree
      rw [Token.Rigid, Token.shifted, ends.1, ends.2]

mutual

/-- A tree whose offsets a shift leaves alone is read as before. -/
theorem part_shifted_of_stands
    {shift : Nat → Nat} :
    ∀ {tree : Tree}, tree.Stands (fun offset => shift offset = offset) →
      tree.part.shifted shift = tree.part
  | .leaf token, stands => by
      have same : token.shifted shift = token := by rw [Token.shifted, stands.1]
      rw [part, Part.shifted, same]
  | .node kind span children, stands => by
      obtain ⟨start, stop, within⟩ := stands
      have sameSpan : span.shifted shift = span := by rw [Span.shifted, start, stop]
      have sameParts := parts_shifted_of_stands within
      have rigid : Part.Rigid shift (children.map part) := rigid_of_stands within
      rw [part, forestParts_eq_map, ← Read.node_shifted rigid, sameSpan, sameParts]

/-- Trees whose offsets a shift leaves alone are read as before. -/
theorem parts_shifted_of_stands
    {shift : Nat → Nat} :
    ∀ {trees : List Tree}, ForestStands (fun offset => shift offset = offset) trees →
      (trees.map part).map (Part.shifted shift) = trees.map part
  | [], _ => rfl
  | tree :: rest, stands => by
      rw [List.map_cons, List.map_cons, part_shifted_of_stands stands.1,
        parts_shifted_of_stands stands.2]

end

end Tree

end Implementers.Syntax
