import Implementers.Proofs.Scope.Recollection
import Implementers.Proofs.TypeEquivalence
import Implementers.Scope.Package

/-!
# What types inherit from their parts

A package makes types out of types, signatures out of types, and method sets by putting signatures
into them one by one.  Whatever is passed on from the parts to the whole in each of these ways
therefore holds of everything that a package resolves to: of the types and signatures that are
lowered, of what is found underneath names, of declared and of promoted methods.
-/

namespace Implementers

open Syntax (TypeExpr ParamList Param FieldDecl Elem FuncDecl)

/-- What holds of types, signatures and method sets whenever it holds of their parts. -/
structure Hereditary where
  type : Ty → Prop
  signature : Signature → Prop
  methods : MethodSet → Prop
  named :
    ∀ {owner : Owner} {name : String} {args : List Ty},
      (∀ arg ∈ args, type arg) → type (.named owner name args)
  pointer : ∀ {elem : Ty}, type elem → type (.pointer elem)
  slice : ∀ {elem : Ty}, type elem → type (.slice elem)
  array : ∀ {length : String} {elem : Ty}, type elem → type (.array length elem)
  map : ∀ {key value : Ty}, type key → type value → type (.map key value)
  chan : ∀ {direction : Syntax.ChanDirection} {elem : Ty}, type elem → type (.chan direction elem)
  func : ∀ {own : Signature}, signature own → type (.func own)
  struct : ∀ {fields : List StructField}, (∀ field ∈ fields, type field.type) → type (.struct fields)
  interface : ∀ {set : MethodSet}, methods set → type (.interface set)
  /-- A parameter that repeats makes a slice, so a variadic signature has one. -/
  made :
    ∀ {params results : List Ty} {variadic : Bool},
      (∀ param ∈ params, type param) → (∀ result ∈ results, type result) →
        (variadic = true → ∃ elem, Ty.slice elem ∈ params) →
          signature (.mk params results variadic)
  empty : methods .empty
  insert :
    ∀ {set : MethodSet} {own : Signature} (name : MethodName),
      methods set → signature own → methods (set.insert name own)
  held : ∀ {set : MethodSet}, methods set → ∀ method ∈ set.methods, signature method.signature

/-- Method sets with at most one method for each name, at every depth, are made of such ones. -/
def distinctness : Hereditary where
  type := Ty.Distinct
  signature := Signature.Distinct
  methods := MethodSet.Distinct
  named := Ty.allDistinct_iff.mpr
  pointer := id
  slice := id
  array := id
  map := And.intro
  chan := id
  func := id
  struct fields := by
    refine StructField.allDistinct_iff.mpr fun field member => ?_
    obtain ⟨_, _, _⟩ := field
    exact fields _ member
  interface := id
  made params results _ := ⟨Ty.allDistinct_iff.mpr params, Ty.allDistinct_iff.mpr results⟩
  empty := MethodSet.distinct_iff.mpr ⟨.nil, fun _ member => nomatch member⟩
  insert name distinct wellFormed := MethodSet.distinct_insert distinct wellFormed name
  held distinct := (MethodSet.distinct_iff.mp distinct).2

namespace Hereditary

variable
  (kept : Hereditary)

/-- What is underneath a name inherits a property when the methods of an interface do. -/
def OfUnderlying : Underlying → Prop
  | .interface interface => kept.methods interface.methods
  | _ => True

/-- What a state remembers inherits a property. -/
def OfState
    (state : ScopeState) :
    Prop :=
  ∀ name found, state.finished.lookup name = some found → kept.OfUnderlying found

/-- Whether a resolution from a state that inherits a property answers well and leaves one behind. -/
def Passes
    (good : α → Prop)
    (resolution : Resolve α) :
    Prop :=
  ∀ state value after, kept.OfState state → resolution state = (.ok value, after) →
    good value ∧ kept.OfState after

/-- At first nothing is remembered. -/
theorem ofState_initial : kept.OfState .initial :=
  fun _ _ found => nomatch found

namespace Passes

variable
  {kept}
  {good : α → Prop}
  {goodNext : β → Prop}

theorem answer
    {value : α}
    (isGood : good value) :
    kept.Passes good (.answer value) := by
  intro _ _ _ inherits answered
  cases answered
  exact ⟨isGood, inherits⟩

theorem fail
    (error : UnitError) :
    kept.Passes good (.fail error) := by
  intro _ _ _ _ answered
  cases answered

theorem warn
    (warning : Warning) :
    kept.Passes (fun _ => True) (.warn warning) := by
  intro _ _ _ inherits answered
  cases answered
  exact ⟨trivial, inherits⟩

theorem andThen
    {first : Resolve α}
    {next : α → Resolve β}
    (passes : kept.Passes good first)
    (passesNext : ∀ value, good value → kept.Passes goodNext (next value)) :
    kept.Passes goodNext (first.andThen next) := by
  intro _ _ _ inherits answered
  obtain ⟨value, middle, ran, answeredNext⟩ := Resolve.andThen_ok answered
  obtain ⟨isGood, inheritsMiddle⟩ := passes _ value middle inherits ran
  exact passesNext value isGood middle _ _ inheritsMiddle answeredNext

theorem ofExcept
    {known : Except UnitError α}
    (isGood : ∀ value, known = .ok value → good value) :
    kept.Passes good (.ofExcept known) := by
  cases known with
  | ok value => exact answer (isGood value rfl)
  | error error => exact fail error

/-- Looking into an alias remembers nothing by itself. -/
theorem expanding
    {decl : TypeDecl}
    {inside : Resolve α}
    (passes : kept.Passes good inside) :
    kept.Passes good (.expanding decl inside) := by
  intro state value after inherits answered
  obtain ⟨-, middle, ran, rfl⟩ := Resolve.expanding_ok answered
  exact passes { state with expanding := decl.name :: state.expanding } value middle inherits ran

/-- A search finds what is remembered, or remembers what it finds. -/
theorem finding
    {decl : TypeDecl}
    {inside : Resolve Underlying}
    (passes : kept.Passes kept.OfUnderlying inside) :
    kept.Passes kept.OfUnderlying (.finding decl inside) := by
  intro state value after inherits answered
  rcases Resolve.finding_ok answered with ⟨remembered, rfl⟩ | ⟨_, _, middle, ran, rfl⟩
  · exact ⟨inherits _ value remembered, inherits⟩
  · obtain ⟨isGood, inheritsMiddle⟩ :=
      passes { state with inProgress := decl.name :: state.inProgress } value middle inherits ran
    refine ⟨isGood, fun name found finished => ?_⟩
    rw [ScopeState.lookup_finish] at finished
    split at finished
    · cases finished
      exact isGood
    · exact inheritsMiddle name found finished

end Passes

/-! ## Lowering -/

/-- What declared names mean inherits a property. -/
structure OfMeaning
    (meaning : Meaning) :
    Prop where
  typeOfAlias : ∀ decl, kept.Passes kept.type (meaning.typeOfAlias decl)
  underlying : ∀ decl, kept.Passes kept.OfUnderlying (meaning.underlying decl)

/-- Parameter types inherit a property, and a list that repeats a parameter has a slice. -/
def OfParams
    (params : List Ty × Bool) :
    Prop :=
  (∀ param ∈ params.1, kept.type param) ∧
    (params.2 = true → ∃ elem, Ty.slice elem ∈ params.1)

/-- No parameters. -/
theorem ofParams_nil : kept.OfParams ([], false) := by
  refine ⟨fun _ member => ?_, fun variadic => ?_⟩
  · cases member
  · cases variadic

/-- The methods of an interface inherit a property. -/
def OfInterface
    (interface : InterfaceMethods) :
    Prop :=
  kept.methods interface.methods

/-- A method added to a set makes no difference, or is put into it. -/
theorem methods_addMethod
    {position : Position}
    {set added : MethodSet}
    {method : Method}
    (inherits : kept.methods set)
    (own : kept.signature method.signature)
    (answered : Scope.addMethod position set method = .ok added) :
    kept.methods added := by
  unfold Scope.addMethod at answered
  split at answered
  · cases answered
    exact kept.insert method.name inherits own
  · split at answered
    · cases answered
      exact inherits
    · cases answered

/-- Methods are added to a set one by one. -/
theorem methods_addMethods
    {position : Position}
    (methods : List Method) :
    ∀ {set added : MethodSet}, kept.methods set →
      (∀ method ∈ methods, kept.signature method.signature) →
        Scope.addMethods position set methods = .ok added → kept.methods added := by
  induction methods with
  | nil =>
      intro set added inherits _ answered
      cases answered
      exact inherits
  | cons method rest inductionHypothesis =>
      intro set added inherits own answered
      simp only [Scope.addMethods] at answered
      split at answered
      · next next answeredFirst =>
          exact inductionHypothesis
            (kept.methods_addMethod inherits (own method List.mem_cons_self) answeredFirst)
            (fun other member => own other (List.mem_cons_of_mem _ member)) answered
      · cases answered

/-- Joined interfaces inherit what both of them do. -/
theorem ofInterface_embed
    {position : Position}
    {own inner joined : InterfaceMethods}
    (inherits : kept.OfInterface own)
    (inheritsInner : kept.OfInterface inner)
    (answered : Scope.embed position own inner = .ok joined) :
    kept.OfInterface joined := by
  unfold Scope.embed at answered
  split at answered
  · next added =>
      cases answered
      exact kept.methods_addMethods _ inherits (kept.held inheritsInner) added
  · cases answered

/-- The interface without methods. -/
theorem ofInterface_nothing
    (isConstraint isPartial : Bool) :
    kept.OfInterface ⟨.empty, isConstraint, isPartial⟩ :=
  kept.empty

/-- The predeclared `error` interface. -/
theorem methods_errorMethods
    (scope : Scope) :
    kept.methods scope.errorMethods := by
  refine kept.insert _ kept.empty (kept.made (fun _ member => nomatch member) ?_ (by simp))
  intro result member
  rw [List.mem_singleton.mp member]
  exact kept.named fun _ member => nomatch member

section Lowering

variable
  {kept}
  (scope : Scope)
  {meaning : Meaning}
  (ofMeaning : kept.OfMeaning meaning)
  (file : FileScope)

theorem undeclaredType
    (ident : Syntax.Ident)
    {args : List Ty}
    (ofArgs : ∀ arg ∈ args, kept.type arg) :
    kept.Passes kept.type (Scope.undeclaredType file ident args) := by
  have plain (name : String) : kept.type (.predeclared name) :=
    kept.named fun _ member => nomatch member
  unfold Scope.undeclaredType
  split
  · exact .answer (plain _)
  · exact .answer (plain _)
  · exact .answer (kept.interface kept.empty)
  · split
    · exact .answer (plain _)
    · split
      · exact .answer (kept.named ofArgs)
      · exact .fail _

theorem contribution
    (span : Syntax.Span)
    (position : Position)
    {underlying : Underlying}
    (ofUnderlying : kept.OfUnderlying underlying) :
    kept.Passes kept.OfInterface (Scope.contribution file span position underlying) := by
  cases underlying with
  | interface methods => exact .answer ofUnderlying
  | imported path =>
      exact .andThen (.warn _) fun _ _ => .answer (kept.ofInterface_nothing false true)
  | _ => exact .answer (kept.ofInterface_nothing true false)

theorem undeclaredUnderlying
    (ident : Syntax.Ident) :
    kept.Passes kept.OfUnderlying (scope.undeclaredUnderlying file ident) := by
  unfold Scope.undeclaredUnderlying
  split
  · exact .answer (kept.methods_errorMethods scope)
  · exact .answer kept.empty
  · exact .answer kept.empty
  · split
    · exact .answer trivial
    · split
      · exact .answer trivial
      · exact .fail _

include ofMeaning

theorem namedType
    (qualifier : Option Syntax.Ident)
    (ident : Syntax.Ident)
    {args : List Ty}
    (ofArgs : ∀ arg ∈ args, kept.type arg) :
    kept.Passes kept.type (scope.namedType meaning file qualifier ident args) := by
  unfold Scope.namedType
  split
  · split
    · exact .answer (kept.named ofArgs)
    · exact .fail _
  · split
    · split
      · exact ofMeaning.typeOfAlias _
      · exact .answer (kept.named ofArgs)
    · exact undeclaredType file ident ofArgs

theorem plainNameUnderlying
    (span : Syntax.Span)
    (qualifier ident : Option Syntax.Ident) :
    kept.Passes kept.OfUnderlying
      (scope.plainNameUnderlying meaning file span qualifier ident) := by
  unfold Scope.plainNameUnderlying
  split
  · exact .fail _
  · split
    · split
      · exact .answer trivial
      · exact .fail _
    · split
      · exact ofMeaning.underlying _
      · exact undeclaredUnderlying scope file _

set_option linter.unusedSectionVars false in
mutual

/-- The type of a type expression. -/
theorem lowerTypeWith :
    ∀ expr : TypeExpr, kept.Passes kept.type (scope.lowerTypeWith meaning file expr)
  | .missing _ => .fail _
  | .name _ _ none _ _ => .fail _
  | .name _ qualifier (some ident) _ args =>
      .andThen (lowerTypesWith args) fun _ ofArgs =>
        namedType scope ofMeaning file qualifier ident ofArgs
  | .pointer _ elem => .andThen (lowerTypeWith elem) fun _ good => .answer (kept.pointer good)
  | .slice _ elem => .andThen (lowerTypeWith elem) fun _ good => .answer (kept.slice good)
  | .array _ _ elem => .andThen (lowerTypeWith elem) fun _ good => .answer (kept.array good)
  | .map _ key value =>
      .andThen (lowerTypeWith key) fun _ goodKey =>
        .andThen (lowerTypeWith value) fun _ goodValue => .answer (kept.map goodKey goodValue)
  | .chan _ _ elem => .andThen (lowerTypeWith elem) fun _ good => .answer (kept.chan good)
  | .func _ params result =>
      .andThen (lowerParamListWith params) fun _ goodParams =>
        .andThen (lowerResultWith result) fun _ goodResults =>
          .answer (kept.func (kept.made goodParams.1 goodResults goodParams.2))
  | .struct _ fields => .andThen (lowerFieldsWith fields) fun _ good => .answer (kept.struct good)
  | .interface _ elems =>
      .andThen (interfaceMethodsWith [] {} elems kept.empty) fun _ good =>
        .answer (kept.interface good)
  | .paren _ inner => lowerTypeWith inner

/-- The types of type expressions. -/
theorem lowerTypesWith :
    ∀ types : List TypeExpr,
      kept.Passes (fun lowered => ∀ type ∈ lowered, kept.type type)
        (scope.lowerTypesWith meaning file types)
  | [] => .answer fun _ member => nomatch member
  | first :: rest =>
      .andThen (lowerTypeWith first) fun _ good =>
        .andThen (lowerTypesWith rest) fun _ goodRest =>
          .answer (List.forall_mem_cons.mpr ⟨good, goodRest⟩)

/-- The fields that field declarations make. -/
theorem lowerFieldsWith :
    ∀ fields : List FieldDecl,
      kept.Passes (fun made => ∀ field ∈ made, kept.type field.type)
        (scope.lowerFieldsWith meaning file fields)
  | [] => .answer fun _ member => nomatch member
  | .mk span names starred type :: rest => by
      refine .andThen (lowerTypeWith type) fun lowered good => ?_
      have others (declared : List StructField)
          (ofDeclared : ∀ field ∈ declared, kept.type field.type) :
          kept.Passes (fun made => ∀ field ∈ made, kept.type field.type)
            ((scope.lowerFieldsWith meaning file rest).andThen fun others =>
              .answer (declared ++ others)) :=
        .andThen (lowerFieldsWith rest) fun _ goodRest =>
          .answer (List.forall_mem_append.mpr ⟨ofDeclared, goodRest⟩)
      split
      · split
        · exact fun _ _ _ _ answered => nomatch answered
        · refine others _ fun field member => ?_
          rw [List.mem_singleton.mp member]
          cases starred
          · exact good
          · exact kept.pointer good
      · refine others _ fun field member => ?_
        obtain ⟨_, _, rfl⟩ := List.mem_map.mp member
        exact good

/-- The types of a parameter list. -/
theorem lowerParamListWith :
    ∀ params : ParamList, kept.Passes kept.OfParams (scope.lowerParamListWith meaning file params)
  | .absent => .answer kept.ofParams_nil
  | .list span params => lowerParamsWith span _ 0 params

/-- The types of parameter entries. -/
theorem lowerParamsWith
    (list : Syntax.Span)
    (grouped : Bool)
    (pending : Nat) :
    ∀ params : List Param,
      kept.Passes kept.OfParams (scope.lowerParamsWith meaning file list grouped pending params)
  | [] => by
      simp only [Scope.lowerParamsWith]
      split
      · exact .answer kept.ofParams_nil
      · exact .fail _
  | .mk _ name variadic type :: rest => by
      simp only [Scope.lowerParamsWith]
      split
      · exact lowerParamsWith list grouped (pending + 1) rest
      · refine .andThen (lowerTypeWith type) fun lowered good =>
          .andThen (lowerParamsWith list grouped 0 rest) fun others goodOthers => .answer ?_
        refine ⟨List.forall_mem_append.mpr ⟨fun param member => ?_, goodOthers.1⟩, ?_⟩
        · rw [List.eq_of_mem_replicate member]
          cases variadic
          · exact good
          · exact kept.slice good
        · intro isVariadic
          cases variadic
          · obtain ⟨elem, member⟩ := goodOthers.2 (by simpa using isVariadic)
            exact ⟨elem, List.mem_append_right _ member⟩
          · exact ⟨lowered, List.mem_append_left _ (by simp)⟩

/-- The result types of a function. -/
theorem lowerResultWith :
    ∀ result : Syntax.Result,
      kept.Passes (fun results => ∀ type ∈ results, kept.type type)
        (scope.lowerResultWith meaning file result)
  | .absent => .answer fun _ member => nomatch member
  | .single type => .andThen (lowerTypeWith type) fun _ good => .answer (by simpa using good)
  | .list params => .andThen (lowerParamListWith params) fun _ good => .answer good.1

/-- The methods of interface elements. -/
theorem interfaceMethodsWith
    (explicit : List String)
    (own : InterfaceMethods) :
    ∀ elems : List Elem, kept.OfInterface own →
      kept.Passes kept.OfInterface
        (scope.interfaceMethodsWith meaning file explicit own elems)
  | [], inherits => .answer inherits
  | .method _ none _ _ :: _, _ => .fail _
  | .method _ (some name) params result :: rest, inherits => by
      simp only [Scope.interfaceMethodsWith]
      split
      · exact interfaceMethodsWith explicit own rest inherits
      · split
        · exact .fail _
        · refine .andThen (lowerParamListWith params) fun _ goodParams =>
            .andThen (lowerResultWith result) fun _ goodResults =>
              .andThen (.ofExcept fun methods added => ?_) fun methods good =>
                interfaceMethodsWith _ { own with methods } rest good
          have own : kept.signature (Method.mk (scope.methodName name.text) _).signature :=
            kept.made goodParams.1 goodResults goodParams.2
          exact kept.methods_addMethod inherits own added
  | .embedded span type :: rest, inherits => by
      have joins {inner : InterfaceMethods} (good : kept.OfInterface inner) :
          kept.Passes kept.OfInterface
            (.ofExcept (Scope.embed (file.position span.start) own inner)) :=
        .ofExcept fun _ answered => kept.ofInterface_embed inherits good answered
      have embedded :=
        Passes.andThen (embeddedMethodsWith (file.position span.start) type) fun _ good =>
          .andThen (joins good) fun joined goodJoined =>
            interfaceMethodsWith explicit joined rest goodJoined
      cases type with
      | missing _ => exact .fail _
      | _ => exact embedded
  | .typeSet _ :: rest, inherits =>
      interfaceMethodsWith explicit { own with isConstraint := true } rest inherits

/-- What an embedded element contributes to an interface. -/
theorem embeddedMethodsWith
    (position : Position) :
    ∀ expr : TypeExpr,
      kept.Passes kept.OfInterface (scope.embeddedMethodsWith meaning file position expr)
  | .missing _ => .fail _
  | .paren _ inner => embeddedMethodsWith position inner
  | .interface _ elems => interfaceMethodsWith [] {} elems kept.empty
  | .name span qualifier ident hasArgs _ => by
      simp only [Scope.embeddedMethodsWith]
      split
      · exact .answer kept.empty
      · exact .andThen (plainNameUnderlying scope ofMeaning file span qualifier ident)
          fun _ good => contribution file span position good
  | .pointer _ _ => .answer kept.empty
  | .slice _ _ => .answer kept.empty
  | .array _ _ _ => .answer kept.empty
  | .map _ _ _ => .answer kept.empty
  | .chan _ _ _ => .answer kept.empty
  | .func _ _ _ => .answer kept.empty
  | .struct _ _ => .answer kept.empty

end

/-- What is underneath a type expression that is neither a name nor written out. -/
theorem lowered
    (expr : TypeExpr) :
    kept.Passes kept.OfUnderlying
      ((scope.lowerTypeWith meaning file expr).andThen fun _ => .answer Underlying.other) :=
  .andThen (lowerTypeWith scope ofMeaning file expr) fun _ _ => .answer trivial

/-- What is underneath a type expression. -/
theorem underlyingWith :
    ∀ expr : TypeExpr, kept.Passes kept.OfUnderlying (scope.underlyingWith meaning file expr)
  | .paren _ inner => underlyingWith inner
  | .interface _ elems =>
      .andThen (interfaceMethodsWith scope ofMeaning file [] {} elems kept.empty)
        fun _ good => .answer good
  | .struct _ fields =>
      .andThen (lowerFieldsWith scope ofMeaning file fields) fun _ _ => .answer trivial
  | .name span qualifier ident hasArgs args => by
      simp only [Scope.underlyingWith]
      split
      · exact lowered scope ofMeaning file _
      · exact plainNameUnderlying scope ofMeaning file span qualifier ident
  | .missing start => lowered scope ofMeaning file (.missing start)
  | .pointer span elem => lowered scope ofMeaning file (.pointer span elem)
  | .slice span elem => lowered scope ofMeaning file (.slice span elem)
  | .array span length elem => lowered scope ofMeaning file (.array span length elem)
  | .map span key value => lowered scope ofMeaning file (.map span key value)
  | .chan span direction elem => lowered scope ofMeaning file (.chan span direction elem)
  | .func span params result => lowered scope ofMeaning file (.func span params result)

end Lowering

variable
  (scope : Scope)

/-- Declared names mean what inherits a property, however deep they are looked into. -/
theorem ofMeaning_meaning
    (depth : Nat) :
    kept.OfMeaning (scope.meaning depth) := by
  induction depth with
  | zero => exact ⟨fun _ => .fail _, fun _ => .fail _⟩
  | succ depth inner =>
      constructor
      · intro decl
        exact .expanding (lowerTypeWith scope inner decl.file decl.spec.type)
      · intro decl
        have inside := underlyingWith scope inner decl.file decl.spec.type
        simp only [Scope.meaning]
        split
        · exact .expanding inside
        · exact .finding inside

theorem ofMeaning_declMeaning :
    kept.OfMeaning scope.declMeaning :=
  kept.ofMeaning_meaning scope _

/-- A signature inherits what its parameters and results do. -/
theorem lowerSignature
    (file : FileScope)
    (params : ParamList)
    (result : Syntax.Result) :
    kept.Passes kept.signature (scope.lowerSignature file params result) :=
  .andThen (lowerParamListWith scope (kept.ofMeaning_declMeaning scope) file params)
    fun _ goodParams =>
      .andThen (lowerResultWith scope (kept.ofMeaning_declMeaning scope) file result)
        fun _ goodResults => .answer (kept.made goodParams.1 goodResults goodParams.2)

/-- What is underneath a name inherits a property. -/
theorem underlyingOf
    (name : String) :
    kept.Passes kept.OfUnderlying (scope.underlyingOf name) := by
  unfold Scope.underlyingOf
  split
  · exact (kept.ofMeaning_declMeaning scope).underlying _
  · exact .answer trivial

end Hereditary

end Implementers
