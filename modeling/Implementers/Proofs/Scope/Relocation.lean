import Implementers.Scope.Lowering

/-!
# Declarations in other places

The same declarations may stand elsewhere: at other offsets, in a file with another text.  A
relocation moves spans and exchanges files but leaves every name, every import and the structure of
every type expression as they are.  Only positions and excerpts can tell the difference.
-/

namespace Implementers

namespace Syntax

/-- An identifier whose span is moved. -/
def Ident.moved
    (move : Span → Span)
    (ident : Ident) :
    Ident :=
  { ident with span := move ident.span }

mutual

/-- A type expression whose spans are moved. -/
def TypeExpr.moved
    (move : Span → Span) :
    TypeExpr → TypeExpr
  | .missing start => .missing (move ⟨start, start⟩).start
  | .name span qualifier ident hasArgs args =>
      .name (move span) (qualifier.map (Ident.moved move)) (ident.map (Ident.moved move)) hasArgs
        (typesMoved move args)
  | .pointer span elem => .pointer (move span) (elem.moved move)
  | .slice span elem => .slice (move span) (elem.moved move)
  | .array span length elem => .array (move span) length (elem.moved move)
  | .map span key value => .map (move span) (key.moved move) (value.moved move)
  | .chan span direction elem => .chan (move span) direction (elem.moved move)
  | .func span params result => .func (move span) (params.moved move) (result.moved move)
  | .struct span fields => .struct (move span) (fieldsMoved move fields)
  | .interface span elems => .interface (move span) (elemsMoved move elems)
  | .paren span inner => .paren (move span) (inner.moved move)

/-- Type expressions whose spans are moved. -/
def typesMoved
    (move : Span → Span) :
    List TypeExpr → List TypeExpr
  | [] => []
  | first :: rest => first.moved move :: typesMoved move rest

/-- A parameter list whose spans are moved. -/
def ParamList.moved
    (move : Span → Span) :
    ParamList → ParamList
  | .absent => .absent
  | .list span params => .list (move span) (paramsMoved move params)

/-- Entries of a parameter list whose spans are moved. -/
def paramsMoved
    (move : Span → Span) :
    List Param → List Param
  | [] => []
  | .mk span name variadic type :: rest =>
      .mk (move span) (name.map (Ident.moved move)) variadic (type.moved move) ::
        paramsMoved move rest

/-- Results whose spans are moved. -/
def Result.moved
    (move : Span → Span) :
    Result → Result
  | .absent => .absent
  | .single type => .single (type.moved move)
  | .list params => .list (params.moved move)

/-- Field declarations whose spans are moved. -/
def fieldsMoved
    (move : Span → Span) :
    List FieldDecl → List FieldDecl
  | [] => []
  | .mk span names starred type :: rest =>
      .mk (move span) (names.map (Ident.moved move)) starred (type.moved move) ::
        fieldsMoved move rest

/-- Elements of an interface whose spans are moved. -/
def elemsMoved
    (move : Span → Span) :
    List Elem → List Elem
  | [] => []
  | .method span name params result :: rest =>
      .method (move span) (name.map (Ident.moved move)) (params.moved move) (result.moved move) ::
        elemsMoved move rest
  | .embedded span type :: rest =>
      .embedded (move span) (type.moved move) :: elemsMoved move rest
  | .typeSet span :: rest => .typeSet (move span) :: elemsMoved move rest

end

/-- An entry of a parameter list whose spans are moved. -/
def Param.moved
    (move : Span → Span) :
    Param → Param
  | .mk span name variadic type =>
      .mk (move span) (name.map (Ident.moved move)) variadic (type.moved move)

/-- A field declaration whose spans are moved. -/
def FieldDecl.moved
    (move : Span → Span) :
    FieldDecl → FieldDecl
  | .mk span names starred type =>
      .mk (move span) (names.map (Ident.moved move)) starred (type.moved move)

/-- A declared type whose spans are moved. -/
def TypeSpec.moved
    (move : Span → Span)
    (spec : TypeSpec) :
    TypeSpec :=
  { spec with
    span := move spec.span
    name := spec.name.map (Ident.moved move)
    type := spec.type.moved move }

/-- A receiver clause whose spans are moved. -/
def Receiver.moved
    (move : Span → Span)
    (receiver : Receiver) :
    Receiver :=
  ⟨move receiver.span, receiver.param.map (Param.moved move)⟩

/-- A function or method whose spans are moved. -/
def FuncDecl.moved
    (move : Span → Span)
    (func : FuncDecl) :
    FuncDecl :=
  { func with
    span := move func.span
    receiver := func.receiver.map (Receiver.moved move)
    name := func.name.map (Ident.moved move)
    params := func.params.moved move
    result := func.result.moved move }

/-- The place of everything once places are forgotten. -/
def nowhere
    (_ : Span) :
    Span :=
  ⟨0, 0⟩

/-- Whether two type expressions differ in nothing but where they stand. -/
def TypeExpr.Alike
    (left right : TypeExpr) :
    Prop :=
  left.moved nowhere = right.moved nowhere

@[simp] theorem Ident.moved_text
    (move : Span → Span)
    (ident : Ident) :
    (ident.moved move).text = ident.text :=
  rfl

@[simp] theorem Ident.moved_id
    (ident : Ident) :
    ident.moved id = ident :=
  rfl

@[simp] theorem Ident.text_comp_moved
    (move : Span → Span) :
    Ident.text ∘ Ident.moved move = Ident.text :=
  rfl

/-! Moving keeps the form of a type expression, so it can be told from a moved one. -/

section Forms

variable {move : Span → Span} {expr : TypeExpr} {span : Span}

theorem TypeExpr.moved_eq_name
    {qualifier ident : Option Ident}
    {hasArgs : Bool}
    {args : List TypeExpr}
    (moved : expr.moved move = .name span qualifier ident hasArgs args) :
    ∃ span' qualifier' ident' args', expr = .name span' qualifier' ident' hasArgs args' ∧
      qualifier'.map (Ident.moved move) = qualifier ∧ ident'.map (Ident.moved move) = ident ∧
        typesMoved move args' = args := by
  cases expr with
  | name =>
      obtain ⟨-, sameQualifier, sameIdent, rfl, sameArgs⟩ := TypeExpr.name.inj moved
      exact ⟨_, _, _, _, rfl, sameQualifier, sameIdent, sameArgs⟩
  | _ => cases moved

theorem TypeExpr.moved_eq_pointer
    {elem : TypeExpr}
    (moved : expr.moved move = .pointer span elem) :
    ∃ span' elem', expr = .pointer span' elem' ∧ elem'.moved move = elem := by
  cases expr with
  | pointer => exact ⟨_, _, rfl, (TypeExpr.pointer.inj moved).2⟩
  | _ => cases moved

theorem TypeExpr.moved_eq_slice
    {elem : TypeExpr}
    (moved : expr.moved move = .slice span elem) :
    ∃ span' elem', expr = .slice span' elem' ∧ elem'.moved move = elem := by
  cases expr with
  | slice => exact ⟨_, _, rfl, (TypeExpr.slice.inj moved).2⟩
  | _ => cases moved

theorem TypeExpr.moved_eq_array
    {length : String}
    {elem : TypeExpr}
    (moved : expr.moved move = .array span length elem) :
    ∃ span' elem', expr = .array span' length elem' ∧ elem'.moved move = elem := by
  cases expr with
  | array =>
      obtain ⟨-, rfl, sameElem⟩ := TypeExpr.array.inj moved
      exact ⟨_, _, rfl, sameElem⟩
  | _ => cases moved

theorem TypeExpr.moved_eq_map
    {key value : TypeExpr}
    (moved : expr.moved move = .map span key value) :
    ∃ span' key' value', expr = .map span' key' value' ∧ key'.moved move = key ∧
      value'.moved move = value := by
  cases expr with
  | map => exact ⟨_, _, _, rfl, (TypeExpr.map.inj moved).2⟩
  | _ => cases moved

theorem TypeExpr.moved_eq_chan
    {direction : ChanDirection}
    {elem : TypeExpr}
    (moved : expr.moved move = .chan span direction elem) :
    ∃ span' elem', expr = .chan span' direction elem' ∧ elem'.moved move = elem := by
  cases expr with
  | chan =>
      obtain ⟨-, rfl, sameElem⟩ := TypeExpr.chan.inj moved
      exact ⟨_, _, rfl, sameElem⟩
  | _ => cases moved

theorem TypeExpr.moved_eq_func
    {params : ParamList}
    {result : Result}
    (moved : expr.moved move = .func span params result) :
    ∃ span' params' result', expr = .func span' params' result' ∧ params'.moved move = params ∧
      result'.moved move = result := by
  cases expr with
  | func => exact ⟨_, _, _, rfl, (TypeExpr.func.inj moved).2⟩
  | _ => cases moved

theorem TypeExpr.moved_eq_paren
    {inner : TypeExpr}
    (moved : expr.moved move = .paren span inner) :
    ∃ span' inner', expr = .paren span' inner' ∧ inner'.moved move = inner := by
  cases expr with
  | paren => exact ⟨_, _, rfl, (TypeExpr.paren.inj moved).2⟩
  | _ => cases moved

end Forms

/-- Moving entries moves each of them. -/
theorem paramsMoved_eq_map
    (move : Span → Span)
    (params : List Param) :
    paramsMoved move params = params.map (Param.moved move) := by
  induction params with
  | nil => rfl
  | cons param rest inductionHypothesis =>
      cases param
      simp only [paramsMoved, inductionHypothesis, List.map_cons, Param.moved]

/-- Moving fields moves each of them. -/
theorem fieldsMoved_eq_map
    (move : Span → Span)
    (fields : List FieldDecl) :
    fieldsMoved move fields = fields.map (FieldDecl.moved move) := by
  induction fields with
  | nil => rfl
  | cons field rest inductionHypothesis =>
      cases field
      simp only [fieldsMoved, inductionHypothesis, List.map_cons, FieldDecl.moved]

/-- Whether a parameter list has names does not depend on where it stands. -/
@[simp] theorem any_name_paramsMoved
    (move : Span → Span)
    (params : List Param) :
    (paramsMoved move params).any (fun param => param.name.isSome) =
      params.any fun param => param.name.isSome := by
  rw [paramsMoved_eq_map, List.any_map]
  congr 1
  funext param
  cases param
  simp [Param.moved, Param.name]

/-- The name that an embedded field goes by does not depend on where it stands. -/
@[simp] theorem FieldDecl.moved_embeddedName?
    (move : Span → Span)
    (field : FieldDecl) :
    (field.moved move).embeddedName? = field.embeddedName? := by
  obtain ⟨span, names, starred, type⟩ := field
  cases type <;> simp [FieldDecl.moved, TypeExpr.moved, embeddedName?]

@[simp] theorem FieldDecl.moved_names
    (move : Span → Span)
    (field : FieldDecl) :
    (field.moved move).names = field.names.map (Ident.moved move) := by
  obtain ⟨span, names, starred, type⟩ := field
  rfl

@[simp] theorem FieldDecl.moved_isEmbedded
    (move : Span → Span)
    (field : FieldDecl) :
    (field.moved move).isEmbedded = field.isEmbedded := by
  simp [isEmbedded]

@[simp] theorem FieldDecl.moved_embedsPointer
    (move : Span → Span)
    (field : FieldDecl) :
    (field.moved move).embedsPointer = field.embedsPointer := by
  obtain ⟨span, names, starred, type⟩ := field
  simp [FieldDecl.moved, embedsPointer]

mutual

/-- Moving nothing changes no type expression. -/
theorem TypeExpr.moved_id : ∀ expr : TypeExpr, expr.moved id = expr
  | .missing _ => rfl
  | .name _ qualifier ident _ args => by
      cases qualifier <;> cases ident <;> simp [TypeExpr.moved, typesMoved_id args]
  | .pointer _ elem => by simp [TypeExpr.moved, elem.moved_id]
  | .slice _ elem => by simp [TypeExpr.moved, elem.moved_id]
  | .array _ _ elem => by simp [TypeExpr.moved, elem.moved_id]
  | .map _ key value => by simp [TypeExpr.moved, key.moved_id, value.moved_id]
  | .chan _ _ elem => by simp [TypeExpr.moved, elem.moved_id]
  | .func _ params result => by simp [TypeExpr.moved, params.moved_id, result.moved_id]
  | .struct _ fields => by simp [TypeExpr.moved, fieldsMoved_id fields]
  | .interface _ elems => by simp [TypeExpr.moved, elemsMoved_id elems]
  | .paren _ inner => by simp [TypeExpr.moved, inner.moved_id]

/-- Moving nothing changes no type expressions. -/
theorem typesMoved_id : ∀ types : List TypeExpr, typesMoved id types = types
  | [] => rfl
  | first :: rest => by simp [typesMoved, first.moved_id, typesMoved_id rest]

/-- Moving nothing changes no parameter list. -/
theorem ParamList.moved_id : ∀ params : ParamList, params.moved id = params
  | .absent => rfl
  | .list _ params => by simp [ParamList.moved, paramsMoved_id params]

/-- Moving nothing changes no entries. -/
theorem paramsMoved_id : ∀ params : List Param, paramsMoved id params = params
  | [] => rfl
  | .mk _ name _ type :: rest => by
      cases name <;> simp [paramsMoved, type.moved_id, paramsMoved_id rest]

/-- Moving nothing changes no results. -/
theorem Result.moved_id : ∀ result : Result, result.moved id = result
  | .absent => rfl
  | .single type => by simp [Result.moved, type.moved_id]
  | .list params => by simp [Result.moved, params.moved_id]

/-- Moving nothing changes no fields. -/
theorem fieldsMoved_id : ∀ fields : List FieldDecl, fieldsMoved id fields = fields
  | [] => rfl
  | .mk _ names _ type :: rest => by
      have sameNames : names.map (Ident.moved id) = names := List.map_id names
      simp [fieldsMoved, type.moved_id, fieldsMoved_id rest, sameNames]

/-- Moving nothing changes no elements. -/
theorem elemsMoved_id : ∀ elems : List Elem, elemsMoved id elems = elems
  | [] => rfl
  | .method _ name params result :: rest => by
      cases name <;>
        simp [elemsMoved, params.moved_id, result.moved_id, elemsMoved_id rest]
  | .embedded _ type :: rest => by simp [elemsMoved, type.moved_id, elemsMoved_id rest]
  | .typeSet _ :: rest => by simp [elemsMoved, elemsMoved_id rest]

end

/-- Moving nothing changes no entry. -/
theorem Param.moved_id
    (param : Param) :
    param.moved id = param := by
  obtain ⟨_, name, _, type⟩ := param
  cases name <;> simp [Param.moved, type.moved_id]

/-- Moving nothing changes no function. -/
theorem FuncDecl.moved_id
    (func : FuncDecl) :
    func.moved id = func := by
  obtain ⟨_, receiver, name, _, params, result⟩ := func
  rcases receiver with _ | ⟨_, _ | param⟩ <;> cases name <;>
    simp [FuncDecl.moved, Receiver.moved, params.moved_id, result.moved_id, Param.moved_id]

end Syntax

/-- Where declarations stand instead of where they stood. -/
structure Relocation where
  span : Syntax.Span → Syntax.Span
  file : FileScope → FileScope
  imports : ∀ before, (file before).imports = before.imports
  dotImports : ∀ before, (file before).dotImports = before.dotImports

namespace Relocation

/-- The relocation that leaves everything in its place. -/
def stay : Relocation :=
  ⟨id, id, fun _ => rfl, fun _ => rfl⟩

/-- The relocation that forgets all spans and texts. -/
def forget : Relocation where
  span _ := ⟨0, 0⟩
  file before :=
    { before with
      text := ""
      lines := ⟨[]⟩
      source := ⟨none, [], [], []⟩ }
  imports _ := rfl
  dotImports _ := rfl

/-- A declared type in its new place. -/
def decl
    (relocation : Relocation)
    (before : TypeDecl) :
    TypeDecl :=
  { before with
    file := relocation.file before.file
    spec := before.spec.moved relocation.span
    offset := (relocation.span ⟨before.offset, before.offset⟩).start }

/-- What is underneath a name in its new place. -/
def underlying
    (relocation : Relocation) :
    Underlying → Underlying
  | .interface methods => .interface methods
  | .struct file fields =>
      .struct (relocation.file file) (Syntax.fieldsMoved relocation.span fields)
  | .imported path => .imported path
  | .other => .other

/-- The path of an import name does not depend on where the file stands. -/
@[simp] theorem importPath?_file
    (relocation : Relocation)
    (file : FileScope)
    (name : String) :
    (relocation.file file).importPath? name = file.importPath? name := by
  simp only [FileScope.importPath?, relocation.imports]

@[simp] theorem decl_name
    (relocation : Relocation)
    (decl : TypeDecl) :
    (relocation.decl decl).name = decl.name :=
  rfl

@[simp] theorem decl_isAlias
    (relocation : Relocation)
    (decl : TypeDecl) :
    (relocation.decl decl).spec.isAlias = decl.spec.isAlias :=
  rfl

@[simp] theorem decl_generic
    (relocation : Relocation)
    (decl : TypeDecl) :
    (relocation.decl decl).spec.generic = decl.spec.generic :=
  rfl

@[simp] theorem decl_type
    (relocation : Relocation)
    (decl : TypeDecl) :
    (relocation.decl decl).spec.type = decl.spec.type.moved relocation.span :=
  rfl

@[simp] theorem stay_span :
    stay.span = id :=
  rfl

@[simp] theorem stay_file
    (file : FileScope) :
    stay.file file = file :=
  rfl

/-- Staying changes no declared type. -/
@[simp] theorem stay_decl
    (decl : TypeDecl) :
    stay.decl decl = decl := by
  obtain ⟨name, file, ⟨span, ident, generic, isAlias, type⟩, offset⟩ := decl
  cases ident <;> simp [Relocation.decl, stay, Syntax.TypeSpec.moved, type.moved_id]

/-- Staying changes nothing underneath a name. -/
@[simp] theorem stay_underlying
    (underlying : Underlying) :
    stay.underlying underlying = underlying := by
  cases underlying <;> simp [Relocation.underlying, stay, Syntax.fieldsMoved_id]

end Relocation

end Implementers
