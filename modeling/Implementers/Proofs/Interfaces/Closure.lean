import Implementers.Scope.Lowering
import Mathlib.Logic.Relation

namespace Implementers

/-!
# What an interface embeds

A type expression leads through parentheses, aliases and definitions to the source of what is
underneath it: an interface that is written out, a predeclared one, a type of another package, or
something that is no interface.  The elements that an interface embeds have sources in turn, and the
closure of a source is whatever can be reached in this way.  Nothing here runs a resolution; the
sources are read off the declarations.
-/

open Syntax (Ident TypeExpr Elem ParamList)

/-- Where the methods of an interface come from, or what a type is instead. -/
inductive InterfaceSource where
  /-- An interface that is written out in a file. -/
  | body (file : FileScope) (elems : List Elem)
  | errorInterface
  | anyInterface
  | comparableInterface
  /-- A type of another package. -/
  | imported
  /-- A type that is no interface, or an instantiation of a generic type. -/
  | restriction

namespace InterfaceSource

/-- Whether a source is an interface of the package or a predeclared one. -/
def isInterface : InterfaceSource → Bool
  | .imported | .restriction => false
  | _ => true

/-- A source that restricts types otherwise than by methods. -/
inductive Restricts : InterfaceSource → Prop where
  | typeSet
      {file : FileScope}
      {elems : List Elem}
      {span : Syntax.Span}
      (member : .typeSet span ∈ elems) :
      Restricts (.body file elems)
  | comparableInterface : Restricts .comparableInterface
  | restriction : Restricts .restriction

end InterfaceSource

/-- Whether a type expression is made of other types and is no interface. -/
def isComposite : TypeExpr → Bool
  | .pointer _ _ | .slice _ _ | .array _ _ _ | .map _ _ _ | .chan _ _ _ | .func _ _ _
  | .struct _ _ => true
  | _ => false

namespace Scope

/-- The source of a name that the package does not declare. -/
def undeclaredSource?
    (file : FileScope)
    (name : String) :
    Option InterfaceSource :=
  match name with
  | "error" => some .errorInterface
  | "any" => some .anyInterface
  | "comparable" => some .comparableInterface
  | name =>
      if isPredeclared name then
        some .restriction
      else if file.dotImports.isEmpty then
        none
      else
        some .imported

/-- A type expression of a file leads to a source. -/
inductive Denotes
    (scope : Scope) :
    FileScope → TypeExpr → InterfaceSource → Prop where
  | paren
      {file : FileScope}
      {span : Syntax.Span}
      {inner : TypeExpr}
      {source : InterfaceSource}
      (within : Denotes scope file inner source) :
      Denotes scope file (.paren span inner) source
  | interface
      {file : FileScope}
      {span : Syntax.Span}
      {elems : List Elem} :
      Denotes scope file (.interface span elems) (.body file elems)
  | composite
      {file : FileScope}
      {type : TypeExpr}
      (shape : isComposite type = true) :
      Denotes scope file type .restriction
  | instantiation
      {file : FileScope}
      {span : Syntax.Span}
      {ident : Option Ident}
      {args : List TypeExpr} :
      Denotes scope file (.name span none ident true args) .restriction
  | qualified
      {file : FileScope}
      {span : Syntax.Span}
      {package ident : Ident}
      {hasArgs : Bool}
      {args : List TypeExpr}
      {path : String}
      (known : file.importPath? package.text = some path) :
      Denotes scope file (.name span (some package) (some ident) hasArgs args) .imported
  | declared
      {file : FileScope}
      {span : Syntax.Span}
      {ident : Ident}
      {args : List TypeExpr}
      {decl : TypeDecl}
      {source : InterfaceSource}
      (found : scope.lookup? ident.text = some decl)
      (leads : Denotes scope decl.file decl.spec.type source) :
      Denotes scope file (.name span none (some ident) false args) source
  | undeclared
      {file : FileScope}
      {span : Syntax.Span}
      {ident : Ident}
      {args : List TypeExpr}
      {source : InterfaceSource}
      (absent : scope.lookup? ident.text = none)
      (known : undeclaredSource? file ident.text = some source) :
      Denotes scope file (.name span none (some ident) false args) source

/-- An element that is embedded in an interface of a file leads to a source. -/
inductive Embeds
    (scope : Scope)
    (file : FileScope) :
    TypeExpr → InterfaceSource → Prop where
  | paren
      {span : Syntax.Span}
      {inner : TypeExpr}
      {source : InterfaceSource}
      (within : Embeds scope file inner source) :
      Embeds scope file (.paren span inner) source
  | interface
      {span : Syntax.Span}
      {elems : List Elem} :
      Embeds scope file (.interface span elems) (.body file elems)
  | composite
      {type : TypeExpr}
      (shape : isComposite type = true) :
      Embeds scope file type .restriction
  | instantiation
      {span : Syntax.Span}
      {qualifier ident : Option Ident}
      {args : List TypeExpr} :
      Embeds scope file (.name span qualifier ident true args) .restriction
  | named
      {span : Syntax.Span}
      {qualifier ident : Option Ident}
      {args : List TypeExpr}
      {source : InterfaceSource}
      (denotes : scope.Denotes file (.name span qualifier ident false args) source) :
      Embeds scope file (.name span qualifier ident false args) source

/-- A source whose body embeds an element that leads to another source. -/
inductive Direct
    (scope : Scope) :
    InterfaceSource → InterfaceSource → Prop where
  | embedded
      {file : FileScope}
      {elems : List Elem}
      {span : Syntax.Span}
      {type : TypeExpr}
      {inner : InterfaceSource}
      (member : .embedded span type ∈ elems)
      (embeds : scope.Embeds file type inner) :
      Direct scope (.body file elems) inner

/-- The closure of a source: the source itself and whatever those in the closure embed. -/
def Reaches
    (scope : Scope) :
    InterfaceSource → InterfaceSource → Prop :=
  Relation.ReflTransGen scope.Direct

/--
A source declares a method itself: a name that is not blank, with the resolution of the signature
that is written behind it.
-/
inductive Declares
    (scope : Scope) :
    InterfaceSource → String → Resolve Signature → Prop where
  | written
      {file : FileScope}
      {elems : List Elem}
      {span : Syntax.Span}
      {ident : Ident}
      {params : ParamList}
      {result : Syntax.Result}
      (member : .method span (some ident) params result ∈ elems)
      (notBlank : ident.text ≠ blankName) :
      Declares scope (.body file elems) ident.text (scope.lowerSignature file params result)
  | predeclared :
      Declares scope .errorInterface "Error" (.answer (.mk [] [.predeclared "string"] false))

/-- A source in the closure of another one has a property. -/
def Finds
    (scope : Scope)
    (property : InterfaceSource → Prop)
    (source : InterfaceSource) :
    Prop :=
  ∃ inner, scope.Reaches source inner ∧ property inner

/-- A source or one in its closure declares a method. -/
def Contributes
    (scope : Scope)
    (source : InterfaceSource)
    (name : String)
    (signature : Resolve Signature) :
    Prop :=
  scope.Finds (fun inner => scope.Declares inner name signature) source

variable {scope : Scope}

/-! ## One source for each expression -/

/-- A type expression leads to one source only. -/
theorem Denotes.unique
    {file : FileScope}
    {type : TypeExpr}
    {source other : InterfaceSource}
    (denotes : scope.Denotes file type source)
    (denotesOther : scope.Denotes file type other) :
    source = other := by
  induction denotes generalizing other with
  | paren _ inductionHypothesis =>
      cases denotesOther with
      | paren within => exact inductionHypothesis within
      | composite shape => cases shape
  | interface =>
      cases denotesOther with
      | interface => rfl
      | composite shape => cases shape
  | composite shape =>
      cases denotesOther with
      | composite _ => rfl
      | _ => cases shape
  | instantiation =>
      cases denotesOther with
      | instantiation => rfl
      | composite shape => cases shape
  | qualified _ =>
      cases denotesOther with
      | qualified _ => rfl
      | composite shape => cases shape
  | declared found _ inductionHypothesis =>
      cases denotesOther with
      | composite shape => cases shape
      | declared otherFound leads =>
          obtain rfl := Option.some.inj (found.symm.trans otherFound)
          exact inductionHypothesis leads
      | undeclared absent _ => cases found.symm.trans absent
  | undeclared absent known =>
      cases denotesOther with
      | composite shape => cases shape
      | declared found _ => cases found.symm.trans absent
      | undeclared _ otherKnown => exact Option.some.inj (known.symm.trans otherKnown)

/-- An embedded element leads to one source only. -/
theorem Embeds.unique
    {file : FileScope}
    {type : TypeExpr}
    {source other : InterfaceSource}
    (embeds : scope.Embeds file type source)
    (embedsOther : scope.Embeds file type other) :
    source = other := by
  induction embeds with
  | paren _ inductionHypothesis =>
      cases embedsOther with
      | paren within => exact inductionHypothesis within
      | composite shape => cases shape
  | interface =>
      cases embedsOther with
      | interface => rfl
      | composite shape => cases shape
  | composite shape =>
      cases embedsOther with
      | composite _ => rfl
      | _ => cases shape
  | instantiation =>
      cases embedsOther with
      | instantiation => rfl
      | composite shape => cases shape
  | named denotes =>
      cases embedsOther with
      | composite shape => cases shape
      | named otherDenotes => exact denotes.unique otherDenotes

/-! ## Closures -/

/-- What is found in a closure is found at once or behind an element. -/
theorem finds_iff
    {property : InterfaceSource → Prop}
    {source : InterfaceSource} :
    scope.Finds property source ↔
      property source ∨ ∃ inner, scope.Direct source inner ∧ scope.Finds property inner := by
  constructor
  · rintro ⟨last, reaches, holds⟩
    rcases Relation.ReflTransGen.cases_head reaches with rfl | ⟨inner, direct, later⟩
    · exact Or.inl holds
    · exact Or.inr ⟨inner, direct, last, later, holds⟩
  · rintro (holds | ⟨inner, direct, last, later, holds⟩)
    · exact ⟨source, .refl, holds⟩
    · exact ⟨last, .head direct later, holds⟩

/-- Only an interface that is written out embeds anything. -/
theorem finds_iff_of_not_body
    {property : InterfaceSource → Prop}
    {source : InterfaceSource}
    (notBody : ∀ file elems, source ≠ .body file elems) :
    scope.Finds property source ↔ property source := by
  rw [finds_iff, or_iff_left]
  rintro ⟨inner, direct, _⟩
  cases direct with
  | embedded _ _ => exact notBody _ _ rfl

/-- A property that a body has when some of its elements gives it. -/
def Elementwise
    (property : InterfaceSource → Prop) :
    Prop :=
  ∀ file front back,
    property (.body file (front ++ back)) ↔
      property (.body file front) ∨ property (.body file back)

/-- What is found behind some elements and behind others is found behind both. -/
theorem finds_append
    {property : InterfaceSource → Prop}
    (elementwise : Elementwise property)
    (file : FileScope)
    (front back : List Elem) :
    scope.Finds property (.body file (front ++ back)) ↔
      scope.Finds property (.body file front) ∨ scope.Finds property (.body file back) := by
  have direct (inner : InterfaceSource) :
      scope.Direct (.body file (front ++ back)) inner ↔
        scope.Direct (.body file front) inner ∨ scope.Direct (.body file back) inner := by
    constructor
    · rintro ⟨member, embeds⟩
      rcases List.mem_append.mp member with inFront | inBack
      · exact Or.inl ⟨inFront, embeds⟩
      · exact Or.inr ⟨inBack, embeds⟩
    · rintro (⟨member, embeds⟩ | ⟨member, embeds⟩)
      · exact ⟨List.mem_append_left _ member, embeds⟩
      · exact ⟨List.mem_append_right _ member, embeds⟩
  rw [finds_iff, elementwise]
  simp only [direct]
  rw [@finds_iff scope property (.body file front), @finds_iff scope property (.body file back)]
  constructor
  · rintro ((own | own) | ⟨inner, inFront | inBack, later⟩)
    · exact Or.inl (Or.inl own)
    · exact Or.inr (Or.inl own)
    · exact Or.inl (Or.inr ⟨inner, inFront, later⟩)
    · exact Or.inr (Or.inr ⟨inner, inBack, later⟩)
  · rintro ((own | ⟨inner, inFront, later⟩) | (own | ⟨inner, inBack, later⟩))
    · exact Or.inl (Or.inl own)
    · exact Or.inr ⟨inner, Or.inl inFront, later⟩
    · exact Or.inl (Or.inr own)
    · exact Or.inr ⟨inner, Or.inr inBack, later⟩

/-- An element that embeds a source gives what is found in the closure of that source. -/
theorem finds_embedded
    {property : InterfaceSource → Prop}
    {file : FileScope}
    {span : Syntax.Span}
    {type : TypeExpr}
    {source : InterfaceSource}
    (embeds : scope.Embeds file type source)
    (nothing : ¬property (.body file [.embedded span type])) :
    scope.Finds property (.body file [.embedded span type]) ↔ scope.Finds property source := by
  rw [finds_iff, or_iff_right nothing]
  constructor
  · rintro ⟨inner, ⟨member, embedsInner⟩, later⟩
    cases List.mem_singleton.mp member
    rwa [embeds.unique embedsInner]
  · intro later
    exact ⟨source, ⟨List.mem_singleton_self _, embeds⟩, later⟩

/-- An element that embeds nothing gives what it is itself. -/
theorem finds_own
    {property : InterfaceSource → Prop}
    {file : FileScope}
    {elem : Elem}
    (embedsNothing : ∀ span type, elem ≠ .embedded span type) :
    scope.Finds property (.body file [elem]) ↔ property (.body file [elem]) := by
  rw [finds_iff, or_iff_left]
  rintro ⟨inner, ⟨member, _⟩, _⟩
  exact embedsNothing _ _ (List.mem_singleton.mp member).symm

/-- Methods are declared by single elements. -/
theorem elementwise_declares
    (name : String)
    (signature : Resolve Signature) :
    Elementwise fun source => scope.Declares source name signature := by
  intro file front back
  constructor
  · intro declares
    cases declares with
    | written member notBlank =>
        rcases List.mem_append.mp member with inFront | inBack
        · exact Or.inl (.written inFront notBlank)
        · exact Or.inr (.written inBack notBlank)
  · intro declares
    rcases declares with inFront | inBack
    · cases inFront with
      | written member notBlank => exact .written (List.mem_append_left _ member) notBlank
    · cases inBack with
      | written member notBlank => exact .written (List.mem_append_right _ member) notBlank

/-- Types are restricted by single elements. -/
theorem elementwise_restricts : Elementwise InterfaceSource.Restricts := by
  intro file front back
  constructor
  · intro restricts
    cases restricts with
    | typeSet member =>
        rcases List.mem_append.mp member with inFront | inBack
        · exact Or.inl (.typeSet inFront)
        · exact Or.inr (.typeSet inBack)
  · intro restricts
    rcases restricts with inFront | inBack
    · cases inFront with
      | typeSet member => exact .typeSet (List.mem_append_left _ member)
    · cases inBack with
      | typeSet member => exact .typeSet (List.mem_append_right _ member)

/-- No interface that is written out is a type of another package. -/
theorem elementwise_imported : Elementwise (· = InterfaceSource.imported) := by
  intro file front back
  simp

end Scope

end Implementers
