import Implementers.Proofs.Scope.Recollection

/-!
# How deep a resolution looks into declarations

The lowering of type expressions, the search for underlying types and the methods of interfaces call
each other through declared names.  Every call through a name enters a declaration that was not
entered before, and leaves it again, so that the calls nest no deeper than there are declarations.
Whatever stands below that depth is never asked.
-/

namespace Implementers

open Syntax (Ident TypeExpr ParamList Param FieldDecl Elem)

namespace ScopeState

/-- Whether a declaration is being looked into. -/
def enters
    (state : ScopeState)
    (decl : TypeDecl) :
    Bool :=
  if decl.spec.isAlias then
    state.expanding.contains decl.name
  else
    state.inProgress.contains decl.name

/-- The number of declarations that are not being looked into. -/
def unentered
    (scope : Scope)
    (state : ScopeState) :
    Nat :=
  scope.decls.countP fun decl => !state.enters decl

theorem unentered_le
    (scope : Scope)
    (state : ScopeState) :
    state.unentered scope ≤ scope.decls.length :=
  List.countP_le_length

/-- A state that looks into the same declarations as another one. -/
structure SameEntered
    (before after : ScopeState) :
    Prop where
  inProgress : after.inProgress = before.inProgress
  expanding : after.expanding = before.expanding

theorem SameEntered.unentered_eq
    {scope : Scope}
    {before after : ScopeState}
    (same : before.SameEntered after) :
    after.unentered scope = before.unentered scope := by
  simp only [unentered, enters, same.inProgress, same.expanding]

theorem SameEntered.trans
    {first second third : ScopeState}
    (firstStep : first.SameEntered second)
    (secondStep : second.SameEntered third) :
    first.SameEntered third :=
  ⟨secondStep.inProgress.trans firstStep.inProgress,
    secondStep.expanding.trans firstStep.expanding⟩

/-- Nothing is asked of the state behind a failure. -/
theorem SameEntered.of_failed
    {error : UnitError}
    {value : α}
    {before middle after : ScopeState}
    (answered : ((.error error : Except UnitError α), middle) = (.ok value, after)) :
    before.SameEntered after := by
  cases answered

/-- Entering a declaration leaves fewer of them that are not entered. -/
theorem unentered_lt
    {scope : Scope}
    {before after : ScopeState}
    {decl : TypeDecl}
    (member : decl ∈ scope.decls)
    (fresh : before.enters decl = false)
    (entered : after.enters decl = true)
    (kept : ∀ other, before.enters other = true → after.enters other = true) :
    after.unentered scope < before.unentered scope := by
  obtain ⟨earlier, later, shape⟩ := List.mem_iff_append.mp member
  have fewer (decls : List TypeDecl) :
      (decls.countP fun decl => !after.enters decl) ≤
        decls.countP fun decl => !before.enters decl := by
    apply List.countP_mono_left
    intro other _ outside
    cases within : before.enters other with
    | false => rfl
    | true => simp [kept other within] at outside
  have fewerEarlier := fewer earlier
  have fewerLater := fewer later
  simp only [unentered, shape, List.countP_append, List.countP_cons, fresh, entered]
  simp only [Bool.not_false, Bool.not_true, Bool.false_eq_true, ↓reduceIte]
  omega

/-- Looking into the right-hand side of one alias more. -/
theorem unentered_expand
    {scope : Scope}
    {state : ScopeState}
    {decl : TypeDecl}
    (member : decl ∈ scope.decls)
    (isAlias : decl.spec.isAlias = true)
    (fresh : state.expanding.contains decl.name = false) :
    { state with expanding := decl.name :: state.expanding }.unentered scope <
      state.unentered scope := by
  apply unentered_lt member
  · simp only [enters, isAlias, ↓reduceIte, fresh]
  · simp [enters, isAlias]
  · intro other within
    cases otherAlias : other.spec.isAlias <;>
      simp only [enters, otherAlias, Bool.false_eq_true, ↓reduceIte, List.contains_cons]
        at within ⊢
    · exact within
    · rw [within, Bool.or_true]

/-- Looking for what is underneath one name more. -/
theorem unentered_search
    {scope : Scope}
    {state : ScopeState}
    {decl : TypeDecl}
    (member : decl ∈ scope.decls)
    (notAlias : decl.spec.isAlias = false)
    (fresh : state.inProgress.contains decl.name = false) :
    { state with inProgress := decl.name :: state.inProgress }.unentered scope <
      state.unentered scope := by
  apply unentered_lt member
  · simp only [enters, notAlias, Bool.false_eq_true, ↓reduceIte, fresh]
  · simp [enters, notAlias]
  · intro other within
    cases otherAlias : other.spec.isAlias <;>
      simp only [enters, otherAlias, Bool.false_eq_true, ↓reduceIte, List.contains_cons]
        at within ⊢
    · rw [within, Bool.or_true]
    · exact within

end ScopeState

/--
Two resolutions that do the same in every state with fewer declarations that are not entered than a
bound, and that look into the same declarations before and after an answer.
-/
def Alike
    (scope : Scope)
    (bound : Nat)
    (left right : Resolve α) :
    Prop :=
  ∀ state, state.unentered scope < bound →
    left state = right state ∧
      ∀ value after, left state = (.ok value, after) → state.SameEntered after

namespace Alike

variable
  {scope : Scope}
  {bound : Nat}

theorem answer
    (value : α) :
    Alike scope bound (.answer value) (.answer value) := by
  refine fun state _ => ⟨rfl, fun _ _ answered => ?_⟩
  cases answered
  exact ⟨rfl, rfl⟩

theorem fail
    (error : UnitError) :
    Alike scope bound (.fail error : Resolve α) (.fail error) :=
  fun _ _ => ⟨rfl, fun _ _ => .of_failed⟩

theorem warn
    (warning : Warning) :
    Alike scope bound (.warn warning) (.warn warning) := by
  refine fun state _ => ⟨rfl, fun _ _ answered => ?_⟩
  cases answered
  exact ⟨rfl, rfl⟩

theorem andThen
    {left right : Resolve α}
    {leftNext rightNext : α → Resolve β}
    (first : Alike scope bound left right)
    (next : ∀ value, Alike scope bound (leftNext value) (rightNext value)) :
    Alike scope bound (left.andThen leftNext) (right.andThen rightNext) := by
  intro state fewer
  obtain ⟨sameFirst, restores⟩ := first state fewer
  simp only [Resolve.andThen, ← sameFirst]
  cases ran : left state with
  | mk outcome middle =>
      cases outcome with
      | error _ => exact ⟨rfl, fun _ _ => .of_failed⟩
      | ok value =>
          have restored := restores value middle ran
          obtain ⟨sameNext, restoresNext⟩ := next value middle (restored.unentered_eq.symm ▸ fewer)
          exact ⟨sameNext, fun result after answered =>
            restored.trans (restoresNext result after answered)⟩

/-- Looking into an alias lowers the number of declarations that are not entered. -/
theorem expanding
    {decl : TypeDecl}
    {left right : Resolve α}
    (member : decl ∈ scope.decls)
    (isAlias : decl.spec.isAlias = true)
    (inside : Alike scope bound left right) :
    Alike scope (bound + 1) (.expanding decl left) (.expanding decl right) := by
  intro state fewer
  simp only [Resolve.expanding]
  split
  · exact ⟨rfl, fun _ _ => .of_failed⟩
  · next fresh =>
      have lower := ScopeState.unentered_expand member isAlias (by simpa using fresh)
      obtain ⟨same, restores⟩ :=
        inside { state with expanding := decl.name :: state.expanding } (by omega)
      rw [← same]
      refine ⟨rfl, fun value after answered => ?_⟩
      cases ran : left { state with expanding := decl.name :: state.expanding } with
      | mk outcome middle =>
          rw [ran] at answered
          cases answered
          have restored := restores value middle ran
          exact ⟨restored.inProgress, by simp only [restored.expanding, List.tail_cons]⟩

/-- Looking for what is underneath a name lowers the number of declarations not entered. -/
theorem finding
    {decl : TypeDecl}
    {left right : Resolve Underlying}
    (member : decl ∈ scope.decls)
    (notAlias : decl.spec.isAlias = false)
    (inside : Alike scope bound left right) :
    Alike scope (bound + 1) (.finding decl left) (.finding decl right) := by
  intro state fewer
  cases known : state.finished.lookup decl.name with
  | some found =>
      have recalled (inside : Resolve Underlying) :
          Resolve.finding decl inside state = (.ok found, state) := by
        simp only [Resolve.finding, known]
      rw [recalled, recalled]
      refine ⟨rfl, fun value after answered => ?_⟩
      cases answered
      exact ⟨rfl, rfl⟩
  | none =>
      cases entered : state.inProgress.contains decl.name with
      | true =>
          have fails (inside : Resolve Underlying) :
              Resolve.finding decl inside state = (.error decl.recursive, state) := by
            simp only [Resolve.finding, known, entered, ↓reduceIte]
          rw [fails, fails]
          exact ⟨rfl, fun _ _ => .of_failed⟩
      | false =>
          have lower := ScopeState.unentered_search member notAlias entered
          obtain ⟨same, restores⟩ :=
            inside { state with inProgress := decl.name :: state.inProgress } (by omega)
          constructor
          · simp only [Resolve.finding, known, entered, Bool.false_eq_true, ↓reduceIte, same]
          · intro value after answered
            rcases Resolve.finding_ok answered with ⟨_, rfl⟩ | ⟨_, _, middle, ran, rfl⟩
            · exact ⟨rfl, rfl⟩
            · have restored := restores value middle ran
              exact ⟨by simp [ScopeState.finish, restored.inProgress], restored.expanding⟩

/-- What is known already is the same in every state. -/
theorem ofExcept
    (known : Except UnitError α) :
    Alike scope bound (.ofExcept known) (.ofExcept known) := by
  cases known with
  | ok value => exact answer value
  | error error => exact fail error

end Alike

/-- Meanings of the declared names of a package that do the same within a bound. -/
structure Meaning.Alike
    (scope : Scope)
    (bound : Nat)
    (left right : Meaning) :
    Prop where
  typeOfAlias :
    ∀ name decl, scope.lookup? name = some decl → decl.spec.isAlias = true →
      Implementers.Alike scope bound (left.typeOfAlias decl) (right.typeOfAlias decl)
  underlying :
    ∀ name decl, scope.lookup? name = some decl →
      Implementers.Alike scope bound (left.underlying decl) (right.underlying decl)

namespace Meaning.Alike

open Implementers.Alike (answer fail warn andThen ofExcept)

section Lowering

variable
  {scope : Scope}
  {bound : Nat}
  {left right : Meaning}
  (alike : left.Alike scope bound right)
  (file : FileScope)

/-- The type of an undeclared name. -/
theorem undeclaredType
    (file : FileScope)
    (ident : Ident)
    (args : List Ty) :
    Implementers.Alike scope bound
      (Scope.undeclaredType file ident args) (Scope.undeclaredType file ident args) := by
  unfold Scope.undeclaredType
  split
  · exact answer _
  · exact answer _
  · exact answer _
  · split
    · exact answer _
    · split
      · exact answer _
      · exact fail _

/-- What is underneath an undeclared name. -/
theorem undeclaredUnderlying
    (file : FileScope)
    (ident : Ident) :
    Implementers.Alike scope bound
      (scope.undeclaredUnderlying file ident) (scope.undeclaredUnderlying file ident) := by
  unfold Scope.undeclaredUnderlying
  split
  · exact answer _
  · exact answer _
  · exact answer _
  · split
    · exact answer _
    · split
      · exact answer _
      · exact fail _

/-- What an embedded name contributes to an interface. -/
theorem contribution
    (file : FileScope)
    (span : Syntax.Span)
    (position : Position)
    (underlying : Underlying) :
    Implementers.Alike scope bound
      (Scope.contribution file span position underlying)
      (Scope.contribution file span position underlying) := by
  cases underlying with
  | interface methods => exact answer _
  | struct _ _ => exact answer _
  | imported path => exact andThen (warn _) fun _ => answer _
  | other => exact answer _

include alike

/-- The type of a name. -/
theorem namedType
    (qualifier : Option Ident)
    (ident : Ident)
    (args : List Ty) :
    Implementers.Alike scope bound
      (scope.namedType left file qualifier ident args)
      (scope.namedType right file qualifier ident args) := by
  unfold Scope.namedType
  split
  · split
    · exact answer _
    · exact fail _
  · split
    · next decl found =>
        split
        · next isAlias => exact alike.typeOfAlias _ decl found isAlias
        · exact answer _
    · exact undeclaredType file ident args

/-- What is underneath a name without type arguments. -/
theorem plainNameUnderlying
    (span : Syntax.Span)
    (qualifier ident : Option Ident) :
    Implementers.Alike scope bound
      (scope.plainNameUnderlying left file span qualifier ident)
      (scope.plainNameUnderlying right file span qualifier ident) := by
  unfold Scope.plainNameUnderlying
  split
  · exact fail _
  · split
    · split
      · exact answer _
      · exact fail _
    · split
      · next decl found => exact alike.underlying _ decl found
      · exact undeclaredUnderlying file _

set_option linter.unusedSectionVars false in
mutual

/-- The type of a type expression. -/
theorem lowerTypeWith :
    ∀ expr : TypeExpr,
      Implementers.Alike scope bound
        (scope.lowerTypeWith left file expr) (scope.lowerTypeWith right file expr)
  | .missing _ => fail _
  | .name _ _ none _ _ => fail _
  | .name _ qualifier (some ident) _ args =>
      andThen (lowerTypesWith args) fun lowered => alike.namedType file qualifier ident lowered
  | .pointer _ elem => andThen (lowerTypeWith elem) fun _ => answer _
  | .slice _ elem => andThen (lowerTypeWith elem) fun _ => answer _
  | .array _ _ elem => andThen (lowerTypeWith elem) fun _ => answer _
  | .map _ key value =>
      andThen (lowerTypeWith key) fun _ => andThen (lowerTypeWith value) fun _ => answer _
  | .chan _ _ elem => andThen (lowerTypeWith elem) fun _ => answer _
  | .func _ params result =>
      andThen (lowerParamListWith params) fun _ =>
        andThen (lowerResultWith result) fun _ => answer _
  | .struct _ fields => andThen (lowerFieldsWith fields) fun _ => answer _
  | .interface _ elems => andThen (interfaceMethodsWith [] {} elems) fun _ => answer _
  | .paren _ inner => lowerTypeWith inner

/-- The types of type expressions. -/
theorem lowerTypesWith :
    ∀ types : List TypeExpr,
      Implementers.Alike scope bound
        (scope.lowerTypesWith left file types) (scope.lowerTypesWith right file types)
  | [] => answer _
  | first :: rest =>
      andThen (lowerTypeWith first) fun _ => andThen (lowerTypesWith rest) fun _ => answer _

/-- The fields that field declarations make. -/
theorem lowerFieldsWith :
    ∀ fields : List FieldDecl,
      Implementers.Alike scope bound
        (scope.lowerFieldsWith left file fields) (scope.lowerFieldsWith right file fields)
  | [] => answer _
  | .mk span names starred type :: rest => by
      apply andThen (lowerTypeWith type)
      intro lowered
      have others (declared : List StructField) :=
        andThen (lowerFieldsWith rest) fun others => answer (declared ++ others)
      split
      · split
        · exact andThen (fail _) others
        · exact others _
      · exact others _

/-- The types of a parameter list. -/
theorem lowerParamListWith :
    ∀ params : ParamList,
      Implementers.Alike scope bound
        (scope.lowerParamListWith left file params) (scope.lowerParamListWith right file params)
  | .absent => answer _
  | .list span params => lowerParamsWith span _ 0 params

/-- The types of parameter entries. -/
theorem lowerParamsWith
    (list : Syntax.Span)
    (grouped : Bool)
    (pending : Nat) :
    ∀ params : List Param,
      Implementers.Alike scope bound
        (scope.lowerParamsWith left file list grouped pending params)
        (scope.lowerParamsWith right file list grouped pending params)
  | [] => by
      simp only [Scope.lowerParamsWith]
      split
      · exact answer _
      · exact fail _
  | .mk _ name variadic type :: rest => by
      simp only [Scope.lowerParamsWith]
      split
      · exact lowerParamsWith list grouped (pending + 1) rest
      · exact andThen (lowerTypeWith type) fun _ =>
          andThen (lowerParamsWith list grouped 0 rest) fun _ => answer _

/-- The result types of a function. -/
theorem lowerResultWith :
    ∀ result : Syntax.Result,
      Implementers.Alike scope bound
        (scope.lowerResultWith left file result) (scope.lowerResultWith right file result)
  | .absent => answer _
  | .single type => andThen (lowerTypeWith type) fun _ => answer _
  | .list params => andThen (lowerParamListWith params) fun _ => answer _

/-- The methods of interface elements. -/
theorem interfaceMethodsWith
    (explicit : List String)
    (own : InterfaceMethods) :
    ∀ elems : List Elem,
      Implementers.Alike scope bound
        (scope.interfaceMethodsWith left file explicit own elems)
        (scope.interfaceMethodsWith right file explicit own elems)
  | [] => answer _
  | .method _ none _ _ :: _ => fail _
  | .method _ (some name) params result :: rest => by
      simp only [Scope.interfaceMethodsWith]
      split
      · exact interfaceMethodsWith explicit own rest
      · split
        · exact fail _
        · exact andThen (lowerParamListWith params) fun _ =>
            andThen (lowerResultWith result) fun _ =>
              andThen (ofExcept _) fun _ => interfaceMethodsWith _ _ rest
  | .embedded span type :: rest => by
      have embedded :=
        andThen (embeddedMethodsWith (file.position span.start) type) fun inner =>
          andThen (ofExcept (Scope.embed (file.position span.start) own inner)) fun joined =>
            interfaceMethodsWith explicit joined rest
      cases type with
      | missing _ => exact fail _
      | _ => exact embedded
  | .typeSet _ :: rest => interfaceMethodsWith explicit { own with isConstraint := true } rest

/-- What an embedded element contributes to an interface. -/
theorem embeddedMethodsWith
    (position : Position) :
    ∀ expr : TypeExpr,
      Implementers.Alike scope bound
        (scope.embeddedMethodsWith left file position expr)
        (scope.embeddedMethodsWith right file position expr)
  | .missing _ => fail _
  | .paren _ inner => embeddedMethodsWith position inner
  | .interface _ elems => interfaceMethodsWith [] {} elems
  | .name span qualifier ident hasArgs _ => by
      simp only [Scope.embeddedMethodsWith]
      split
      · exact answer _
      · exact andThen (alike.plainNameUnderlying file span qualifier ident) fun underlying =>
          contribution file span position underlying
  | .pointer _ _ => answer _
  | .slice _ _ => answer _
  | .array _ _ _ => answer _
  | .map _ _ _ => answer _
  | .chan _ _ _ => answer _
  | .func _ _ _ => answer _
  | .struct _ _ => answer _

end

/-- What is underneath a type expression that is neither a name nor written out. -/
theorem lowered
    (expr : TypeExpr) :
    Implementers.Alike scope bound
      ((scope.lowerTypeWith left file expr).andThen fun _ => .answer Underlying.other)
      ((scope.lowerTypeWith right file expr).andThen fun _ => .answer Underlying.other) :=
  andThen (alike.lowerTypeWith file expr) fun _ => answer _

/-- What is underneath a type expression. -/
theorem underlyingWith :
    ∀ expr : TypeExpr,
      Implementers.Alike scope bound
        (scope.underlyingWith left file expr) (scope.underlyingWith right file expr)
  | .paren _ inner => underlyingWith inner
  | .interface _ elems => andThen (alike.interfaceMethodsWith file [] {} elems) fun _ => answer _
  | .struct _ fields => andThen (alike.lowerFieldsWith file fields) fun _ => answer _
  | .name span qualifier ident hasArgs args => by
      simp only [Scope.underlyingWith]
      split
      · exact alike.lowered file _
      · exact alike.plainNameUnderlying file span qualifier ident
  | .missing start => alike.lowered file (.missing start)
  | .pointer span elem => alike.lowered file (.pointer span elem)
  | .slice span elem => alike.lowered file (.slice span elem)
  | .array span length elem => alike.lowered file (.array span length elem)
  | .map span key value => alike.lowered file (.map span key value)
  | .chan span direction elem => alike.lowered file (.chan span direction elem)
  | .func span params result => alike.lowered file (.func span params result)

end Lowering

end Meaning.Alike

namespace Scope

/-- What declared names mean over a bottom that is asked once a depth of declarations is passed. -/
def meaningOver
    (scope : Scope)
    (bottom : Meaning) :
    Nat → Meaning
  | 0 => bottom
  | depth + 1 =>
      let inner := scope.meaningOver bottom depth
      { typeOfAlias := fun decl =>
          .expanding decl (scope.lowerTypeWith inner decl.file decl.spec.type)
        underlying := fun decl =>
          if decl.spec.isAlias then
            .expanding decl (scope.underlyingWith inner decl.file decl.spec.type)
          else
            .finding decl (scope.underlyingWith inner decl.file decl.spec.type) }

/-- The meaning of declared names fails at the bottom. -/
theorem meaning_eq_meaningOver
    (scope : Scope)
    (depth : Nat) :
    scope.meaning depth = scope.meaningOver (scope.meaning 0) depth := by
  induction depth with
  | zero => rfl
  | succ depth inductionHypothesis =>
      simp only [meaning, meaningOver, inductionHypothesis]

/-- Neither the depth nor the bottom matters to states with less to enter than the depth. -/
theorem alike_meaningOver
    (scope : Scope)
    (left right : Meaning)
    (bound : Nat) :
    ∀ {depth reach : Nat}, bound ≤ depth → bound ≤ reach →
      (scope.meaningOver left depth).Alike scope bound (scope.meaningOver right reach) := by
  induction bound with
  | zero =>
      intro depth reach _ _
      exact ⟨fun _ _ _ _ _ fewer => absurd fewer (Nat.not_lt_zero _),
        fun _ _ _ _ fewer => absurd fewer (Nat.not_lt_zero _)⟩
  | succ bound inductionHypothesis =>
      intro depth reach deep far
      obtain ⟨depth, rfl⟩ := Nat.exists_eq_add_of_le' (Nat.le_of_add_left_le deep)
      obtain ⟨reach, rfl⟩ := Nat.exists_eq_add_of_le' (Nat.le_of_add_left_le far)
      have inner := inductionHypothesis (Nat.le_of_succ_le_succ deep) (Nat.le_of_succ_le_succ far)
      constructor
      · intro name decl found isAlias
        exact (inner.lowerTypeWith decl.file decl.spec.type).expanding
          (List.mem_of_find?_eq_some found) isAlias
      · intro name decl found
        have inside := inner.underlyingWith decl.file decl.spec.type
        simp only [meaningOver]
        cases isAlias : decl.spec.isAlias with
        | true => exact inside.expanding (List.mem_of_find?_eq_some found) isAlias
        | false => exact inside.finding (List.mem_of_find?_eq_some found) isAlias

/-- Below the number of declarations nothing is ever asked. -/
theorem alike_declMeaning
    (scope : Scope)
    (bottom : Meaning)
    {depth : Nat}
    (deep : scope.decls.length < depth) :
    (scope.meaningOver bottom depth).Alike scope (scope.decls.length + 1) scope.declMeaning := by
  rw [declMeaning, meaning_eq_meaningOver]
  exact scope.alike_meaningOver bottom _ _ deep (Nat.le_refl _)

/-- Resolutions that are alike in every state are the same. -/
theorem eq_of_alike
    {scope : Scope}
    {left right : Resolve α}
    (alike : Alike scope (scope.decls.length + 1) left right) :
    left = right :=
  funext fun state => (alike state (Nat.lt_succ_of_le (state.unentered_le scope))).1

section Equations

variable
  {scope : Scope}
  {name : String}
  {decl : TypeDecl}
  (found : scope.lookup? name = some decl)

include found

/-- An alias stands for the type of its right-hand side. -/
theorem typeOfAlias_declMeaning
    (isAlias : decl.spec.isAlias = true) :
    scope.declMeaning.typeOfAlias decl =
      .expanding decl (scope.lowerType decl.file decl.spec.type) := by
  have alike := scope.alike_declMeaning (scope.meaning 0) (Nat.lt_add_of_pos_right (Nat.succ_pos 1))
  rw [← eq_of_alike (alike.typeOfAlias name decl found isAlias), meaningOver,
    ← meaning_eq_meaningOver]
  rfl

/-- What is underneath a declared name is what is underneath its right-hand side. -/
theorem underlying_declMeaning :
    scope.declMeaning.underlying decl =
      if decl.spec.isAlias then
        .expanding decl (scope.underlyingWith scope.declMeaning decl.file decl.spec.type)
      else
        .finding decl (scope.underlyingWith scope.declMeaning decl.file decl.spec.type) := by
  have alike := scope.alike_declMeaning (scope.meaning 0) (Nat.lt_add_of_pos_right (Nat.succ_pos 1))
  rw [← eq_of_alike (alike.underlying name decl found), meaningOver, ← meaning_eq_meaningOver]
  rfl

end Equations

end Scope

end Implementers
