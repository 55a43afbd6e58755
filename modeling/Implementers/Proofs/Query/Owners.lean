import Implementers.Proofs.Identity
import Implementers.Query.ImportIndex
import Mathlib.Data.List.Forall2

namespace Implementers

/-!
# Owners of imported types

Replacing the owners of scanned packages walks through method sets to any depth and changes
nothing but the owners of the named types that occur there.  Which package an import path stands
for is decided by the first symbol of the universe that comes from a package of that path, so of
several packages in one directory only one is ever meant.
-/

mutual

/-- The named types that occur in a type with their owners, from left to right. -/
def Ty.occurrences : Ty → List (Owner × String)
  | .named owner name args => (owner, name) :: Ty.listOccurrences args
  | .pointer elem => elem.occurrences
  | .slice elem => elem.occurrences
  | .array _ elem => elem.occurrences
  | .map key value => key.occurrences ++ value.occurrences
  | .chan _ elem => elem.occurrences
  | .func signature => signature.occurrences
  | .struct fields => StructField.listOccurrences fields
  | .interface methods => methods.occurrences

/-- The named types that occur in the types of a list. -/
def Ty.listOccurrences : List Ty → List (Owner × String)
  | [] => []
  | first :: rest => first.occurrences ++ Ty.listOccurrences rest

/-- The named types that occur in a signature. -/
def Signature.occurrences : Signature → List (Owner × String)
  | .mk params results _ => Ty.listOccurrences params ++ Ty.listOccurrences results

/-- The named types that occur in the fields of a list. -/
def StructField.listOccurrences : List StructField → List (Owner × String)
  | [] => []
  | .mk _ type _ :: rest => type.occurrences ++ StructField.listOccurrences rest

/-- The named types that occur in the methods of a list. -/
def Method.listOccurrences : List Method → List (Owner × String)
  | [] => []
  | .mk _ signature :: rest => signature.occurrences ++ Method.listOccurrences rest

/-- The named types that occur in a method set. -/
def MethodSet.occurrences : MethodSet → List (Owner × String)
  | .mk methods => Method.listOccurrences methods

end

section Occurrences

variable (scanned : ScannedPackages)

/-- An occurrence of a named type after the owners of scanned packages are replaced. -/
def localizedOccurrence
    (occurrence : Owner × String) :
    Owner × String :=
  (occurrence.1.localize scanned, occurrence.2)

mutual

/-- Replacing owners in a type replaces the owner of every occurrence and nothing else. -/
theorem Ty.occurrences_localize : ∀ type : Ty,
    (type.localize scanned).occurrences = type.occurrences.map (localizedOccurrence scanned)
  | .named _ _ args => by
      simp [Ty.localize, Ty.occurrences, localizedOccurrence, Ty.listOccurrences_localize args]
  | .pointer elem => elem.occurrences_localize
  | .slice elem => elem.occurrences_localize
  | .array _ elem => elem.occurrences_localize
  | .map key value => by
      simp [Ty.localize, Ty.occurrences, key.occurrences_localize, value.occurrences_localize]
  | .chan _ elem => elem.occurrences_localize
  | .func signature => signature.occurrences_localize
  | .struct fields => StructField.listOccurrences_localize fields
  | .interface methods => methods.occurrences_localize

/-- Replacing owners in the types of a list. -/
theorem Ty.listOccurrences_localize : ∀ types : List Ty,
    Ty.listOccurrences (Ty.localizeList scanned types) =
      (Ty.listOccurrences types).map (localizedOccurrence scanned)
  | [] => rfl
  | first :: rest => by
      simp [Ty.localizeList, Ty.listOccurrences, first.occurrences_localize,
        Ty.listOccurrences_localize rest]

/-- Replacing owners in a signature. -/
theorem Signature.occurrences_localize : ∀ signature : Signature,
    (signature.localize scanned).occurrences =
      signature.occurrences.map (localizedOccurrence scanned)
  | .mk params results _ => by
      simp [Signature.localize, Signature.occurrences, Ty.listOccurrences_localize params,
        Ty.listOccurrences_localize results]

/-- Replacing owners in the fields of a list. -/
theorem StructField.listOccurrences_localize : ∀ fields : List StructField,
    StructField.listOccurrences (StructField.localizeList scanned fields) =
      (StructField.listOccurrences fields).map (localizedOccurrence scanned)
  | [] => rfl
  | .mk _ type _ :: rest => by
      simp [StructField.localizeList, StructField.listOccurrences, type.occurrences_localize,
        StructField.listOccurrences_localize rest]

/-- Replacing owners in the methods of a list. -/
theorem Method.listOccurrences_localize : ∀ methods : List Method,
    Method.listOccurrences (Method.localizeList scanned methods) =
      (Method.listOccurrences methods).map (localizedOccurrence scanned)
  | [] => rfl
  | .mk _ signature :: rest => by
      simp [Method.localizeList, Method.listOccurrences, signature.occurrences_localize,
        Method.listOccurrences_localize rest]

/-- Replacing owners in a method set. -/
theorem MethodSet.occurrences_localize : ∀ methods : MethodSet,
    (methods.localize scanned).occurrences =
      methods.occurrences.map (localizedOccurrence scanned)
  | .mk methods => Method.listOccurrences_localize methods

end

end Occurrences

section Agreement

variable {scanned other : ScannedPackages}

/-- Whether two lists of scanned packages give the same owners to the named types that occur. -/
def Owner.AgreeOn
    (scanned other : ScannedPackages)
    (occurrences : List (Owner × String)) :
    Prop :=
  ∀ occurrence ∈ occurrences, occurrence.1.localize scanned = occurrence.1.localize other

theorem Owner.agreeOn_append
    {first second : List (Owner × String)} :
    Owner.AgreeOn scanned other (first ++ second) ↔
      Owner.AgreeOn scanned other first ∧ Owner.AgreeOn scanned other second := by
  simp [Owner.AgreeOn, or_imp, forall_and]

mutual

/-- What replacing owners makes of a type depends only on the owners that occur in it. -/
theorem Ty.localize_congr : ∀ type : Ty, Owner.AgreeOn scanned other type.occurrences →
    type.localize scanned = type.localize other
  | .named owner name args, agree => by
      rw [Ty.localize, Ty.localize, agree (owner, name) List.mem_cons_self,
        Ty.localizeList_congr args fun occurrence member =>
          agree occurrence (List.mem_cons_of_mem _ member)]
  | .pointer elem, agree => congrArg _ (elem.localize_congr agree)
  | .slice elem, agree => congrArg _ (elem.localize_congr agree)
  | .array _ elem, agree => congrArg _ (elem.localize_congr agree)
  | .map key value, agree => by
      obtain ⟨keyAgrees, valueAgrees⟩ := Owner.agreeOn_append.mp agree
      rw [Ty.localize, Ty.localize, key.localize_congr keyAgrees, value.localize_congr valueAgrees]
  | .chan _ elem, agree => congrArg _ (elem.localize_congr agree)
  | .func signature, agree => congrArg _ (signature.localize_congr agree)
  | .struct fields, agree => congrArg _ (StructField.localizeList_congr fields agree)
  | .interface methods, agree => congrArg _ (methods.localize_congr agree)

/-- The same for the types of a list. -/
theorem Ty.localizeList_congr : ∀ types : List Ty,
    Owner.AgreeOn scanned other (Ty.listOccurrences types) →
      Ty.localizeList scanned types = Ty.localizeList other types
  | [], _ => rfl
  | first :: rest, agree => by
      obtain ⟨firstAgrees, restAgrees⟩ := Owner.agreeOn_append.mp agree
      rw [Ty.localizeList, Ty.localizeList, first.localize_congr firstAgrees,
        Ty.localizeList_congr rest restAgrees]

/-- The same for a signature. -/
theorem Signature.localize_congr : ∀ signature : Signature,
    Owner.AgreeOn scanned other signature.occurrences →
      signature.localize scanned = signature.localize other
  | .mk params results _, agree => by
      obtain ⟨paramsAgree, resultsAgree⟩ := Owner.agreeOn_append.mp agree
      rw [Signature.localize, Signature.localize, Ty.localizeList_congr params paramsAgree,
        Ty.localizeList_congr results resultsAgree]

/-- The same for the fields of a list. -/
theorem StructField.localizeList_congr : ∀ fields : List StructField,
    Owner.AgreeOn scanned other (StructField.listOccurrences fields) →
      StructField.localizeList scanned fields = StructField.localizeList other fields
  | [], _ => rfl
  | .mk _ type _ :: rest, agree => by
      obtain ⟨typeAgrees, restAgrees⟩ := Owner.agreeOn_append.mp agree
      rw [StructField.localizeList, StructField.localizeList, type.localize_congr typeAgrees,
        StructField.localizeList_congr rest restAgrees]

/-- The same for the methods of a list. -/
theorem Method.localizeList_congr : ∀ methods : List Method,
    Owner.AgreeOn scanned other (Method.listOccurrences methods) →
      Method.localizeList scanned methods = Method.localizeList other methods
  | [], _ => rfl
  | .mk _ signature :: rest, agree => by
      obtain ⟨signatureAgrees, restAgrees⟩ := Owner.agreeOn_append.mp agree
      rw [Method.localizeList, Method.localizeList, signature.localize_congr signatureAgrees,
        Method.localizeList_congr rest restAgrees]

/-- The same for a method set. -/
theorem MethodSet.localize_congr : ∀ methods : MethodSet,
    Owner.AgreeOn scanned other methods.occurrences →
      methods.localize scanned = methods.localize other
  | .mk methods, agree => congrArg _ (Method.localizeList_congr methods agree)

end

end Agreement

namespace ImportIndex

/-- Whether the package of a symbol can be imported by a path. -/
def provides
    (index : ImportIndex)
    (path : String)
    (symbol : Symbol) :
    Bool :=
  !symbol.package.isExternalTest && index.importPath? symbol.package.unit == some path

/-- A symbol is importable by the path that its package can be imported by. -/
theorem importable?_eq_some_iff
    {index : ImportIndex}
    {symbol : Symbol}
    {entry : String × PackageId} :
    index.importable? symbol = some entry ↔
      index.provides entry.1 symbol ∧ symbol.package = entry.2 := by
  obtain ⟨path, package⟩ := entry
  cases external : symbol.package.isExternalTest with
  | true => simp [importable?, provides, external]
  | false =>
      cases provided : index.importPath? symbol.package.unit <;>
        simp [importable?, provides, external, provided]

/-- The package scanned for an import path is that of the first symbol that provides the path. -/
theorem scannedIn_packages
    (index : ImportIndex)
    (symbols : Universe)
    (path : String) :
    scannedIn (index.packages symbols) path =
      (symbols.find? (index.provides path)).map Symbol.package := by
  induction symbols with
  | nil => rfl
  | cons symbol rest inductionHypothesis =>
      simp only [scannedIn, packages] at inductionHypothesis ⊢
      cases importable : index.importable? symbol with
      | none =>
          have provided : index.provides path symbol = false := by
            by_contra provided
            have imported : index.importable? symbol = some (path, symbol.package) :=
              importable?_eq_some_iff.mpr ⟨by simpa using provided, rfl⟩
            rw [importable] at imported
            cases imported
          simp [importable, provided, inductionHypothesis]
      | some entry =>
          obtain ⟨key, package⟩ := entry
          obtain ⟨provided, owned⟩ := importable?_eq_some_iff.mp importable
          by_cases same : path = key
          · subst same
            simp [importable, provided, owned]
          · have elsewhere : index.provides path symbol = false := by
              simp only [provides, Bool.and_eq_true, beq_iff_eq] at provided
              simp [provides, provided.2, Ne.symm same]
            simp [importable, elsewhere, List.lookup_cons, beq_false_of_ne same,
              inductionHypothesis]

/--
Imported owners become the package of the first symbol that comes from a package of their import
path.  Every occurrence of a named type in the method set of any symbol keeps its place and its
name, and one whose owner was the import path is owned by that package afterwards.
-/
theorem localize_owners
    (units : List SourceUnit)
    (symbols : Universe)
    {path : String}
    {first : Symbol}
    (found : symbols.find? ((ofUnits units).provides path) = some first) :
    List.Forall₂
      (fun before after : Symbol =>
        List.Forall₂
          (fun occurs becomes =>
            becomes.2 = occurs.2 ∧
              (occurs.1 = .imported path → becomes.1 = .local first.package))
          before.methods.occurrences after.methods.occurrences)
      symbols ((ofUnits units).localize symbols) := by
  have scanned :
      scannedIn ((ofUnits units).packages symbols) path = some first.package := by
    simp [scannedIn_packages, found]
  simp only [localize, List.forall₂_map_right_iff, List.forall₂_same]
  intro symbol _
  simp only [Symbol.localize, MethodSet.occurrences_localize, List.forall₂_map_right_iff,
    List.forall₂_same]
  rintro ⟨owner, name⟩ _
  refine ⟨rfl, ?_⟩
  rintro rfl
  simp [localizedOccurrence, Owner.localize, scanned]

/-! ## Two packages in one directory -/

namespace SharedDirectory

/-- A symbol that is declared in a package of a unit. -/
def declared
    (unit package name : String)
    (kind : SymbolKind)
    (methods : MethodSet) :
    Symbol :=
  { name
    package := ⟨⟨unit⟩, package⟩
    kind
    pointer := false
    position := ⟨⟨unit⟩, 1, 1⟩
    declaration := ⟨⟨unit⟩, 1, 1⟩
    methods
    isPartial := false }

/-- The directory `d` with the import path `m/d`, and the directory `c` that imports it. -/
def units : List SourceUnit :=
  [ { SourceUnit.directory ⟨"d"⟩ [] with importPath := some "m/d" },
    { SourceUnit.directory ⟨"c"⟩ [] with importPath := some "m/c" }]

/-- The type `Req` as `c` sees it. -/
def imported : Ty :=
  .named (.imported "m/d") "Req" []

/-- The first symbol of the directory `d`, which belongs to a package `x` there. -/
def first : Symbol :=
  declared "d" "x" "X" .concrete .empty

/--
The directory `d` holds the packages `x`, with a type `X`, and `d`, with a type `Req` that the
interface `I` of `c` mentions.
-/
def symbols : Universe :=
  [ first,
    declared "d" "d" "Req" .concrete .empty,
    declared "c" "c" "I" .interface
      (.mk [.mk ⟨"M", none⟩ (.mk [.slice imported] [] false)])]

/-- The package `x` has the first symbol for the import path, so its owners become `x`. -/
theorem localize_owners_shared :
    symbols.find? ((ofUnits units).provides "m/d") = some first ∧
      List.Forall₂
        (fun before after : Symbol =>
          List.Forall₂
            (fun occurs becomes =>
              becomes.2 = occurs.2 ∧
                (occurs.1 = .imported "m/d" → becomes.1 = .local first.package))
            before.methods.occurrences after.methods.occurrences)
        symbols ((ofUnits units).localize symbols) := by
  have found : symbols.find? ((ofUnits units).provides "m/d") = some first := by rfl
  exact ⟨found, localize_owners units symbols found⟩

/--
Only the package `d` among those of the import path declares a `Req`, and still the `Req` that was
imported by this path is not owned by `d` afterwards.
-/
theorem not_owned_by_declarer :
    let package : PackageId := ⟨⟨"d"⟩, "d"⟩
    (∀ symbol ∈ symbols, (ofUnits units).provides "m/d" symbol → symbol.name = "Req" →
        symbol.package = package) ∧
      (∃ symbol ∈ symbols, (ofUnits units).provides "m/d" symbol ∧ symbol.name = "Req" ∧
        symbol.package = package) ∧
      symbols.flatMap (fun symbol => symbol.methods.occurrences) = [(.imported "m/d", "Req")] ∧
      ((ofUnits units).localize symbols).flatMap (fun symbol => symbol.methods.occurrences) ≠
        [(.local package, "Req")] := by
  decide +kernel

end SharedDirectory

end ImportIndex

end Implementers
