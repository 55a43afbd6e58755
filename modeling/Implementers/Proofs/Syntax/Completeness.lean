import Implementers.Proofs.Syntax.Displacement
import Implementers.Proofs.Syntax.Productions

namespace Implementers.Syntax

/-!
# Texts without faults lack nothing

What is read from the tree of a text that parses without a fault lacks none of its parts: a reader
who asks a node for its name or its type finds one.  The grammar allows only phrases in which these
stand, so they are found among the children of every node of a derived tree.
-/

/-! ## Declarations that lack nothing -/

mutual

/-- A type expression that lacks no name and no type expression inside of it. -/
inductive TypeExpr.IsComplete : TypeExpr → Prop where
  | name
      {span : Span}
      {qualifier : Option Ident}
      {ident : Ident}
      {hasArgs : Bool}
      {args : List TypeExpr}
      (areArgs : ∀ arg ∈ args, arg.IsComplete) :
      TypeExpr.IsComplete (.name span qualifier (some ident) hasArgs args)
  | pointer
      {span : Span}
      {elem : TypeExpr}
      (isElem : elem.IsComplete) :
      TypeExpr.IsComplete (.pointer span elem)
  | slice
      {span : Span}
      {elem : TypeExpr}
      (isElem : elem.IsComplete) :
      TypeExpr.IsComplete (.slice span elem)
  | array
      {span : Span}
      {length : String}
      {elem : TypeExpr}
      (isElem : elem.IsComplete) :
      TypeExpr.IsComplete (.array span length elem)
  | map
      {span : Span}
      {key value : TypeExpr}
      (isKey : key.IsComplete)
      (isValue : value.IsComplete) :
      TypeExpr.IsComplete (.map span key value)
  | chan
      {span : Span}
      {direction : ChanDirection}
      {elem : TypeExpr}
      (isElem : elem.IsComplete) :
      TypeExpr.IsComplete (.chan span direction elem)
  | func
      {span : Span}
      {params : ParamList}
      {result : Result}
      (areParams : params.IsComplete)
      (isResult : result.IsComplete) :
      TypeExpr.IsComplete (.func span params result)
  | struct
      {span : Span}
      {fields : List FieldDecl}
      (areFields : ∀ field ∈ fields, field.IsComplete) :
      TypeExpr.IsComplete (.struct span fields)
  | interface
      {span : Span}
      {elems : List Elem}
      (areElems : ∀ elem ∈ elems, elem.IsComplete) :
      TypeExpr.IsComplete (.interface span elems)
  | paren
      {span : Span}
      {inner : TypeExpr}
      (isInner : inner.IsComplete) :
      TypeExpr.IsComplete (.paren span inner)

/-- A list of parameters that is there and whose entries have their types. -/
inductive ParamList.IsComplete : ParamList → Prop where
  | list
      {span : Span}
      {params : List Param}
      (areParams : ∀ param ∈ params, param.IsComplete) :
      ParamList.IsComplete (.list span params)

/-- An entry of a parameter list that has its type. -/
inductive Param.IsComplete : Param → Prop where
  | mk
      {span : Span}
      {name : Option Ident}
      {variadic : Bool}
      {type : TypeExpr}
      (isType : type.IsComplete) :
      Param.IsComplete (.mk span name variadic type)

/-- Results that have their type or their list, if there are any. -/
inductive Result.IsComplete : Result → Prop where
  | absent :
      Result.IsComplete .absent
  | single
      {type : TypeExpr}
      (isType : type.IsComplete) :
      Result.IsComplete (.single type)
  | list
      {params : ParamList}
      (areParams : params.IsComplete) :
      Result.IsComplete (.list params)

/-- A field declaration that has its type, which is a type name if the field is embedded. -/
inductive FieldDecl.IsComplete : FieldDecl → Prop where
  | named
      {span : Span}
      {names : List Ident}
      {starred : Bool}
      {type : TypeExpr}
      (isNamed : names ≠ [])
      (isType : type.IsComplete) :
      FieldDecl.IsComplete (.mk span names starred type)
  | embedded
      {span nameSpan : Span}
      {names : List Ident}
      {starred : Bool}
      {qualifier : Option Ident}
      {ident : Ident}
      {hasArgs : Bool}
      {args : List TypeExpr}
      (isType : TypeExpr.IsComplete (.name nameSpan qualifier (some ident) hasArgs args)) :
      FieldDecl.IsComplete
        (.mk span names starred (.name nameSpan qualifier (some ident) hasArgs args))

/-- An element of an interface that has its name and its signature, or its type. -/
inductive Elem.IsComplete : Elem → Prop where
  | method
      {span : Span}
      {name : Ident}
      {params : ParamList}
      {result : Result}
      (areParams : params.IsComplete)
      (isResult : result.IsComplete) :
      Elem.IsComplete (.method span (some name) params result)
  | embedded
      {span : Span}
      {type : TypeExpr}
      (isType : type.IsComplete) :
      Elem.IsComplete (.embedded span type)
  | typeSet
      {span : Span} :
      Elem.IsComplete (.typeSet span)

end

/-- A declared type that has its name and its type. -/
structure TypeSpec.IsComplete
    (spec : TypeSpec) :
    Prop where
  isNamed : spec.name.isSome
  isType : spec.type.IsComplete

/-- A function that has its name and its signature. -/
structure FuncDecl.IsComplete
    (func : FuncDecl) :
    Prop where
  isNamed : func.name.isSome
  isReceiver : ∀ receiver ∈ func.receiver, ∀ param ∈ receiver.param, param.IsComplete
  areParams : func.params.IsComplete
  isResult : func.result.IsComplete

/-- A source file that has its package clause and whose declarations lack nothing. -/
structure SourceFile.IsComplete
    (file : SourceFile) :
    Prop where
  isPackage : file.package.isSome
  areImports : ∀ spec ∈ file.imports, spec.path.isSome
  areTypes : ∀ spec ∈ file.types, spec.IsComplete
  areFuncs : ∀ func ∈ file.funcs, func.IsComplete

/-- Whether what a reader makes of a node lacks none of its parts. -/
def Part.IsComplete : Part → Prop
  | .token _ | .name _ | .typeParams | .arrayLength _ | .other => True
  | .type found => found.IsComplete
  | .typeArgs found => ∀ arg ∈ found, arg.IsComplete
  | .params found => found.IsComplete
  | .param found => found.IsComplete
  | .result found => found ≠ .absent ∧ found.IsComplete
  | .field found => found.IsComplete
  | .elem found => found.IsComplete
  | .receiver found => ∀ param ∈ found.param, param.IsComplete
  | .packageClause found => found.isSome
  | .importSpec found => found.path.isSome
  | .importDecl found => ∀ spec ∈ found, spec.path.isSome
  | .typeSpec found => found.IsComplete
  | .typeDecl found => ∀ spec ∈ found, spec.IsComplete
  | .funcDecl found => found.IsComplete

/-! ## What phrases need -/

/-- Whether a letter is a node of a kind of type expressions. -/
def Letter.isType : Letter → Bool
  | .token _ => false
  | .node kind => kind.isTypeExpression

namespace Phrases

/-- Every phrase has a number of letters of some sort at least. -/
def Needs
    (count : Nat)
    (sort : Letter → Bool)
    (phrases : Phrases) :
    Prop :=
  ∀ phrase ∈ phrases, count ≤ phrase.countP sort

variable
  {first second : Nat}
  {sort : Letter → Bool}
  {phrases others : Phrases}

/-- A phrase needs what its two halves need. -/
theorem Needs.mul
    (front : phrases.Needs first sort)
    (back : others.Needs second sort) :
    Needs (first + second) sort (phrases * others) := by
  rintro _ ⟨left, inFront, right, inBack, rfl⟩
  rw [List.countP_append]
  exact Nat.add_le_add (front left inFront) (back right inBack)

theorem Needs.left
    (front : phrases.Needs first sort) :
    Needs first sort (phrases * others) :=
  @Needs.mul first 0 sort phrases others front fun _ _ => Nat.zero_le _

theorem Needs.right
    (back : others.Needs first sort) :
    Needs first sort (phrases * others) :=
  Nat.zero_add first ▸ @Needs.mul 0 first sort phrases others (fun _ _ => Nat.zero_le _) back

/-- A phrase needs what it needs either way. -/
theorem Needs.add
    (left : phrases.Needs first sort)
    (right : others.Needs first sort) :
    Needs first sort (phrases + others) :=
  fun phrase isEither => isEither.elim (left phrase) (right phrase)

theorem needs_singleton
    {letter : Letter}
    (isSort : sort letter = true) :
    Needs 1 sort {[letter]} := by
  rintro _ rfl
  simp [isSort]

theorem needs_token
    (kind : Kind) :
    (token kind).Needs 1 (· == .token kind) :=
  needs_singleton (beq_self_eq_true (Letter.token kind))

theorem needs_node
    (kind : Kind) :
    (node kind).Needs 1 (· == .node kind) :=
  needs_singleton (beq_self_eq_true (Letter.node kind))

theorem needs_type :
    type.Needs 1 Letter.isType := by
  rintro _ ⟨kind, isType, rfl⟩
  simp [Letter.isType, isType]

end Phrases

namespace Tree

variable
  {children : List Tree}

/-- A letter that is needed stands for one of the trees. -/
theorem exists_of_needs
    {phrases : Phrases}
    {sort : Letter → Bool}
    (needs : phrases.Needs 1 sort)
    (isPhrase : phrase children ∈ phrases) :
    ∃ child ∈ children, sort child.letter = true := by
  obtain ⟨letter, member, isSort⟩ := List.countP_pos_iff.mp (needs _ isPhrase)
  obtain ⟨child, inChildren, rfl⟩ := List.mem_map.mp (List.mem_filter.mp member).1
  exact ⟨child, inChildren, isSort⟩

/-- A type expression is read from a node of its kind. -/
theorem isSome_type?_part
    (tree : Tree) :
    tree.part.type?.isSome = tree.letter.isType := by
  cases tree with
  | leaf token => rfl
  | node kind span children => cases kind <;> rfl

/-- There are as many type expressions to read as the phrase has. -/
theorem length_types
    (trees : List Tree) :
    ((forestParts trees).filterMap Part.type?).length = (phrase trees).countP Letter.isType := by
  have notTrivia (letter : Letter) :
      (letter.isType && !letter.isTrivia) = letter.isType := by
    cases letter with
    | token kind => rfl
    | node kind => exact Bool.and_true _
  rw [forestParts_eq_map, List.length_filterMap_eq_countP, List.countP_map, phrase,
    List.countP_filter, List.countP_map]
  congr 1
  funext tree
  simp only [Function.comp_apply, isSome_type?_part, notTrivia]

/-- A part that a needed letter is read as is found. -/
theorem isSome_findSome?_of_needs
    {phrases : Phrases}
    {letter : Letter}
    {find : Part → Option α}
    (reads : ∀ tree : Tree, tree.letter = letter → (find tree.part).isSome)
    (needs : phrases.Needs 1 (· == letter))
    (isPhrase : phrase children ∈ phrases) :
    ((forestParts children).findSome? find).isSome := by
  obtain ⟨child, member, isLetter⟩ := exists_of_needs needs isPhrase
  rw [forestParts_eq_map, List.findSome?_isSome_iff]
  exact ⟨child.part, List.mem_map_of_mem member, reads child (beq_iff_eq.mp isLetter)⟩

theorem isSome_name?_part
    (tree : Tree)
    (isName : tree.letter = .node .name) :
    tree.part.name?.isSome := by
  cases tree with
  | leaf token => cases isName
  | node kind span children =>
      cases isName
      rfl

theorem isSome_params?_part
    (tree : Tree)
    (isList : tree.letter = .node .paramList) :
    tree.part.params?.isSome := by
  cases tree with
  | leaf token => cases isList
  | node kind span children =>
      cases isList
      rfl

/-- A token that is needed is found. -/
theorem exists_token_of_needs
    {phrases : Phrases}
    {kind : Kind}
    (needs : phrases.Needs 1 (· == .token kind))
    (isPhrase : phrase children ∈ phrases) :
    ∃ token ∈ (forestParts children).filterMap Part.token?, token.kind = kind := by
  obtain ⟨child, member, isToken⟩ := exists_of_needs needs isPhrase
  cases child with
  | leaf token =>
      refine ⟨token, List.mem_filterMap.mpr ⟨.token token, ?_, rfl⟩,
        Letter.token.inj (beq_iff_eq.mp isToken)⟩
      rw [forestParts_eq_map]
      exact List.mem_map_of_mem member
  | node kind span children => cases beq_iff_eq.mp isToken

end Tree

/-! ## Reading what is there -/

namespace Read

open Syntax.Tree (phrase forestParts)
open Phrases (needs_type needs_token needs_node)

variable
  {children : List Tree}
  {span : Span}
  {phrases : Phrases}
  (complete : ∀ part ∈ forestParts children, part.IsComplete)

include complete

/-- What is found comes from a part that lacks nothing. -/
theorem exists_part_of_found
    {find : Part → Option α}
    {value : α}
    (found : (forestParts children).findSome? find = some value) :
    ∃ part : Part, find part = some value ∧ part.IsComplete := by
  obtain ⟨part, member, isFound⟩ := List.exists_of_findSome?_eq_some found
  exact ⟨part, isFound, complete part member⟩

/-- What is listed comes from a part that lacks nothing. -/
theorem exists_part_of_mem
    {find : Part → Option α}
    {value : α}
    (member : value ∈ (forestParts children).filterMap find) :
    ∃ part : Part, find part = some value ∧ part.IsComplete := by
  obtain ⟨part, inParts, isFound⟩ := List.mem_filterMap.mp member
  exact ⟨part, isFound, complete part inParts⟩

theorem isComplete_of_mem_types
    {type : TypeExpr}
    (member : type ∈ (forestParts children).filterMap Part.type?) :
    type.IsComplete := by
  obtain ⟨part, isFound, isComplete⟩ := exists_part_of_mem complete member
  cases part <;> cases isFound
  exact isComplete

theorem isComplete_list
    {list : ParamList}
    (found : (forestParts children).findSome? Part.params? = some list) :
    list.IsComplete := by
  obtain ⟨part, isFound, isComplete⟩ := exists_part_of_found complete found
  cases part <;> cases isFound
  exact isComplete

theorem isComplete_result :
    (result (forestParts children)).IsComplete := by
  unfold result
  rcases found : (forestParts children).findSome? Part.result? with _ | value
  · exact .absent
  · obtain ⟨part, isFound, isComplete⟩ := exists_part_of_found complete found
    cases part <;> cases isFound
    exact isComplete.2

/-- The receiver of a method is the first entry of its list. -/
theorem isComplete_receiver
    {param : Param}
    (isParam : param ∈
      ((forestParts children).findSome? Part.params?).bind fun list => list.entries.head?) :
    param.IsComplete := by
  obtain ⟨list, found, isHead⟩ := Option.bind_eq_some_iff.mp isParam
  cases isComplete_list complete found with
  | list areParams => exact areParams param (List.mem_of_mem_head? isHead)

section

variable
  (isPhrase : phrase children ∈ phrases)

include isPhrase

omit complete in
/-- A type expression that is needed is found. -/
theorem typeAt_mem
    {index : Nat}
    (needs : phrases.Needs (index + 1) Letter.isType) :
    typeAt index span (forestParts children) ∈ (forestParts children).filterMap Part.type? := by
  have enough : index < ((forestParts children).filterMap Part.type?).length := by
    rw [Tree.length_types]
    exact needs _ isPhrase
  rw [typeAt, List.getElem?_eq_getElem enough]
  exact List.getElem_mem enough

theorem isComplete_typeAt
    {index : Nat}
    (needs : phrases.Needs (index + 1) Letter.isType) :
    (typeAt index span (forestParts children)).IsComplete :=
  isComplete_of_mem_types complete (typeAt_mem isPhrase needs)

omit complete in
/-- A name that is needed is found. -/
theorem isSome_name?
    (needs : phrases.Needs 1 (· == .node .name)) :
    ((forestParts children).findSome? Part.name?).isSome :=
  Tree.isSome_findSome?_of_needs Tree.isSome_name?_part needs isPhrase

/-- A parameter list that is needed is found and lacks nothing. -/
theorem isComplete_params
    (needs : phrases.Needs 1 (· == .node .paramList)) :
    (params (forestParts children)).IsComplete := by
  obtain ⟨list, found⟩ := Option.isSome_iff_exists.mp
    (Tree.isSome_findSome?_of_needs Tree.isSome_params?_part needs isPhrase)
  rw [params, found]
  exact isComplete_list complete found

end

/-- The results of a function have their list or their type. -/
theorem isComplete_resultClause
    (allowed : phrase children ∈ production .result) :
    resultClause span (forestParts children) ≠ .absent ∧
      (resultClause span (forestParts children)).IsComplete := by
  unfold resultClause
  split
  · next found => exact ⟨nofun, .list (isComplete_list complete found)⟩
  · next none =>
      rcases allowed with isList | isType
      · have found := Tree.isSome_findSome?_of_needs Tree.isSome_params?_part
          (needs_node .paramList) isList
        rw [none] at found
        cases found
      · exact ⟨nofun, .single (isComplete_typeAt complete isType needs_type)⟩

/-- A type name has its identifier, and its arguments lack nothing. -/
theorem isComplete_typeName
    (allowed : phrase children ∈ production .typeName) :
    (typeName span (forestParts children)).IsComplete := by
  obtain ⟨token, member, isIdent⟩ :=
    Tree.exists_token_of_needs (needs_token .ident).left.left allowed
  have inIdents : ident token ∈ idents (forestParts children) :=
    List.mem_map_of_mem (List.mem_filter.mpr ⟨member, decide_eq_true isIdent⟩)
  have isLast := List.getLast?_eq_some_getLast (List.ne_nil_of_mem inIdents)
  unfold typeName
  dsimp only
  rw [isLast]
  refine .name ?_
  rcases found : (forestParts children).findSome? Part.typeArgs? with _ | args
  · exact nofun
  · obtain ⟨part, isFound, isComplete⟩ := exists_part_of_found complete found
    cases part <;> cases isFound
    exact isComplete

omit complete in
/-- A field declaration has a name, or a type name is its only type expression. -/
theorem named_or_typeName
    (allowed : phrase children ∈ production .fieldDecl) :
    ((forestParts children).findSome? Part.name?).isSome ∨
      ∀ letter ∈ phrase children, letter.isType = true → letter = .node .typeName := by
  obtain ⟨front, isFront, tag, isTag, (isPhrase : front ++ tag = phrase children)⟩ := allowed
  have noType : ∀ letter ∈ tag, letter.isType = true → letter = .node .typeName := by
    rcases isTag with rfl | rfl <;> simp [Letter.isType]
  rcases isFront with ⟨_, rfl, _, rfl, rfl⟩ | rfl | named
  · refine .inr (isPhrase ▸ List.forall_mem_append.mpr ⟨?_, noType⟩)
    simp [Letter.isType]
  · refine .inr (isPhrase ▸ List.forall_mem_append.mpr ⟨?_, noType⟩)
    simp
  · exact .inl (isSome_name? (isPhrase ▸ Language.append_mem_mul named isTag)
      (needs_node .name).left.left.left)

omit complete in
/-- A type expression that is read where all of them are type names is one. -/
theorem exists_typeName
    (only : ∀ letter ∈ phrase children, letter.isType = true → letter = .node .typeName)
    {type : TypeExpr}
    (member : type ∈ (forestParts children).filterMap Part.type?) :
    ∃ nameSpan qualifier ident hasArgs args,
      type = .name nameSpan qualifier ident hasArgs args := by
  obtain ⟨part, inParts, isType⟩ := List.mem_filterMap.mp member
  rw [Tree.forestParts_eq_map] at inParts
  obtain ⟨child, inChildren, rfl⟩ := List.mem_map.mp inParts
  have ofType : child.letter.isType = true := by
    rw [← Tree.isSome_type?_part, isType]
    rfl
  have inPhrase : child.letter ∈ phrase children := by
    refine List.mem_filter.mpr ⟨List.mem_map_of_mem inChildren, ?_⟩
    cases child with
    | leaf token => cases ofType
    | node kind span inner => rfl
  cases child with
  | leaf token => cases ofType
  | node kind span inner =>
      obtain rfl : kind = .typeName := Letter.node.inj (only _ inPhrase ofType)
      exact ⟨_, _, _, _, _, (Option.some.inj isType).symm⟩

/-- A field has its names and its type, or its type is the name of an embedded one. -/
theorem isComplete_field
    (allowed : phrase children ∈ production .fieldDecl)
    (starred : Bool) :
    FieldDecl.IsComplete (.mk span ((forestParts children).filterMap Part.name?) starred
      (typeAt 0 span (forestParts children))) := by
  have needs : (production .fieldDecl).Needs 1 Letter.isType :=
    ((Phrases.needs_singleton rfl).right.add
      ((Phrases.needs_singleton rfl).add needs_type.right)).left
  have isType : (typeAt 0 span (forestParts children)).IsComplete :=
    isComplete_typeAt complete allowed needs
  rcases named_or_typeName allowed with isNamed | only
  · refine .named (fun none => ?_) isType
    rw [List.findSome?_eq_none_iff.mpr (List.filterMap_eq_nil_iff.mp none)] at isNamed
    cases isNamed
  · obtain ⟨_, _, ident, _, _, isName⟩ := exists_typeName only (typeAt_mem allowed needs)
    rw [isName] at isType ⊢
    cases isType with
    | name areArgs => exact .embedded (.name areArgs)

/-- A method of an interface has its name and its signature. -/
theorem isComplete_method
    (allowed : phrase children ∈ production .methodSpec) :
    Elem.IsComplete (.method span ((forestParts children).findSome? Part.name?)
      (params (forestParts children)) (result (forestParts children))) := by
  obtain ⟨name, found⟩ := Option.isSome_iff_exists.mp
    (isSome_name? allowed (needs_node .name).left)
  rw [found]
  exact .method (isComplete_params complete allowed (needs_node .paramList).left.right)
    (isComplete_result complete)

omit complete in
/-- An import has its path. -/
theorem isSome_path
    (allowed : phrase children ∈ production .importSpec) :
    (importSpec (forestParts children)).path.isSome := by
  obtain ⟨token, member, isString⟩ :=
    Tree.exists_token_of_needs (needs_token .string).right allowed
  rw [importSpec, Option.isSome_map, List.find?_isSome]
  exact ⟨token, member, decide_eq_true isString⟩

/-- A declared type has its name and its type. -/
theorem isComplete_typeSpec
    (allowed : phrase children ∈ production .typeSpec) :
    (typeSpec span (forestParts children)).IsComplete where
  isNamed := isSome_name? allowed (needs_node .name).left.left.left
  isType := isComplete_typeAt complete allowed needs_type.right

/-- A function has its name and its signature. -/
theorem isComplete_funcDecl
    (allowed : phrase children ∈ production .funcDecl) :
    (funcDecl span (forestParts children)).IsComplete where
  isNamed := isSome_name? allowed (needs_node .name).left.left.left.right
  isReceiver := by
    intro receiver isReceiver
    obtain ⟨part, isFound, isComplete⟩ := exists_part_of_found complete isReceiver
    cases part <;> cases isFound
    exact isComplete
  areParams := isComplete_params complete allowed (needs_node .paramList).left.right.left.right
  isResult := isComplete_result complete

/-- A node whose children make an allowed phrase and lack nothing lacks nothing. -/
theorem isComplete_node
    {kind : Kind}
    (allowed : phrase children ∈ production kind) :
    (node kind span (forestParts children)).IsComplete := by
  have typeOf {phrases : Phrases} (isPhrase : phrase children ∈ phrases)
      (needs : phrases.Needs 1 Letter.isType) :
      (typeAt 0 span (forestParts children)).IsComplete :=
    isComplete_typeAt complete isPhrase needs
  cases kind with
  | typeName => exact isComplete_typeName complete allowed
  | typeArgs => exact fun arg member => isComplete_of_mem_types complete member
  | pointerType => exact .pointer (typeOf allowed needs_type.right)
  | sliceType => exact .slice (typeOf allowed needs_type.right)
  | arrayType => exact .array (typeOf allowed needs_type.right)
  | mapType =>
      refine .map (typeOf allowed needs_type.right) ?_
      exact isComplete_typeAt complete allowed (needs_type.right.left.mul needs_type)
  | chanType => exact .chan (typeOf allowed needs_type.right)
  | funcType =>
      exact .func (isComplete_params complete allowed (needs_node .paramList).left.right)
        (isComplete_result complete)
  | structType =>
      refine .struct fun field member => ?_
      obtain ⟨part, isFound, isComplete⟩ := exists_part_of_mem complete member
      cases part <;> cases isFound
      exact isComplete
  | interfaceType =>
      refine .interface fun elem member => ?_
      obtain ⟨part, isFound, isComplete⟩ := exists_part_of_mem complete member
      cases part <;> cases isFound
      exact isComplete
  | parenType => exact .paren (typeOf allowed needs_type.right.left)
  | paramList =>
      refine .list fun param member => ?_
      obtain ⟨part, isFound, isComplete⟩ := exists_part_of_mem complete member
      cases part <;> cases isFound
      exact isComplete
  | param => exact .mk (typeOf allowed needs_type.right)
  | result => exact isComplete_resultClause complete allowed
  | fieldDecl => exact isComplete_field complete allowed _
  | methodSpec => exact isComplete_method complete allowed
  | embeddedElem => exact .embedded (typeOf allowed needs_type)
  | typeSetElem => exact .typeSet
  | receiver => exact fun param isParam => isComplete_receiver complete isParam
  | packageClause => exact isSome_name? allowed (needs_node .name).right
  | importSpec => exact isSome_path allowed
  | importDecl =>
      intro spec member
      obtain ⟨part, isFound, isComplete⟩ := exists_part_of_mem complete member
      cases part <;> cases isFound
      exact isComplete
  | typeSpec => exact isComplete_typeSpec complete allowed
  | typeDecl =>
      intro spec member
      obtain ⟨part, isFound, isComplete⟩ := exists_part_of_mem complete member
      cases part <;> cases isFound
      exact isComplete
  | funcDecl => exact isComplete_funcDecl complete allowed
  | _ => trivial

end Read

namespace Tree

/-- What is read from a tree that the grammar derives lacks none of its parts. -/
theorem IsDerived.isComplete
    {tree : Tree}
    (derived : tree.IsDerived) :
    tree.part.IsComplete := by
  induction derived with
  | leaf token => exact trivial
  | node allowed _ inductionHypothesis =>
      refine Read.isComplete_node ?_ allowed
      rw [forestParts_eq_map]
      exact List.forall_mem_map.mpr inductionHypothesis

theorem IsDerived.isComplete_parts
    {kind : Kind}
    {span : Span}
    {children : List Tree}
    (derived : Tree.IsDerived (.node kind span children)) :
    ∀ part ∈ forestParts children, part.IsComplete := by
  cases derived with
  | node _ inside =>
      rw [forestParts_eq_map]
      exact List.forall_mem_map.mpr fun child member => (inside child member).isComplete

end Tree

/-- One tree is another one or stands somewhere below it. -/
inductive Tree.IsWithin
    (inner : Tree) :
    Tree → Prop where
  | itself :
      Tree.IsWithin inner inner
  | inside
      {tree child : Tree}
      (member : child ∈ tree.children)
      (within : inner.IsWithin child) :
      Tree.IsWithin inner tree

/-- What stands below a derived tree is derived. -/
theorem Tree.IsDerived.of_isWithin
    {inner tree : Tree}
    (derived : tree.IsDerived)
    (within : inner.IsWithin tree) :
    inner.IsDerived := by
  induction within with
  | itself => exact derived
  | inside member _ inductionHypothesis =>
      cases derived with
      | leaf token => cases member
      | node _ inside => exact inductionHypothesis (inside _ member)

/-- The declarations of a source file that the grammar derives lack nothing. -/
theorem SourceFile.isComplete_ofTree
    {span : Span}
    {children : List Tree}
    (derived : Tree.IsDerived (.node .sourceFile span children)) :
    (ofTree (.node .sourceFile span children)).IsComplete := by
  have complete := derived.isComplete_parts
  cases derived with
  | node allowed _ =>
      refine ⟨?_, fun spec member => ?_, fun spec member => ?_, fun func member => ?_⟩
      · have reads (tree : Tree) (isClause : tree.letter = .node .packageClause) :
            tree.part.packageClause?.isSome := by
          cases tree <;> cases isClause
          rfl
        obtain ⟨clause, found⟩ := Option.isSome_iff_exists.mp
          (Tree.isSome_findSome?_of_needs reads
            (Phrases.needs_node .packageClause).left.right.left allowed)
        obtain ⟨part, isFound, isComplete⟩ := Read.exists_part_of_found complete found
        change ((Tree.forestParts children).findSome? Part.packageClause?).join.isSome
        rw [found]
        cases part <;> cases isFound
        exact isComplete
      · obtain ⟨part, inParts, inSpecs⟩ := List.mem_flatMap.mp member
        have isComplete := complete part inParts
        cases part with
        | importDecl specs => exact isComplete spec inSpecs
        | _ => cases inSpecs
      · obtain ⟨part, inParts, inSpecs⟩ := List.mem_flatMap.mp member
        have isComplete := complete part inParts
        cases part with
        | typeDecl specs => exact isComplete spec inSpecs
        | _ => cases inSpecs
      · obtain ⟨part, isFound, isComplete⟩ := Read.exists_part_of_mem complete member
        cases part <;> cases isFound
        exact isComplete

namespace Parse

/-- A text with a node, or a token, that is read as a part. -/
def Holds
    (text : String)
    (part : Part) :
    Prop :=
  ∃ tree : Tree, tree.IsWithin (ofText text).tree ∧ tree.part = part

/-- Whatever is read from a text that parses without a fault lacks none of its parts. -/
theorem isComplete_ofText
    {text : String}
    (clean : (ofText text).errors = []) :
    (∀ part, Holds text part → part.IsComplete) ∧
      (SourceFile.ofTree (ofText text).tree).IsComplete := by
  obtain ⟨span, children, isTree, derived⟩ := isDerived_ofText clean
  constructor
  · rintro _ ⟨tree, within, rfl⟩
    exact (derived.of_isWithin within).isComplete
  · rw [isTree] at derived ⊢
    exact SourceFile.isComplete_ofTree derived

end Parse

end Implementers.Syntax
