import Implementers.Proofs.Order.Symbols

/-!
# The order of declarations

Whatever the order of its declarations, a package that resolves comes to the same symbols.  Whether
it resolves may depend on the order, since an alias that is being expanded counts as a way back even
where it is met behind a declared type.  Then a single declaration that is asked about first in its
file already makes the difference.
-/

namespace Implementers

/-- States that cover each other have found the same. -/
theorem ScopeState.Covers.lookup_eq
    {left right : ScopeState}
    (covers : left.Covers right)
    (covers' : right.Covers left)
    (name : String) :
    left.finished.lookup name = right.finished.lookup name := by
  ext found
  exact ⟨covers' name found, covers name found⟩

/-- Two arrangements that resolve know the same and have the same methods. -/
theorem Rearranged.agrees
    {package : PackageId}
    {files arranged : List FileScope}
    (rearranged : Rearranged files arranged)
    (distinct : ((Scope.opened package files).decls.map TypeDecl.name).Nodup)
    (left : (Scope.opened package files).Resolution)
    (right : (Scope.opened package arranged).Resolution) :
    Scope.Resolution.Agrees (Scope.opened package files).forgotten left right := by
  have inPlace : Rearranged files files := List.forall₂_same.mpr fun file _ => .refl file
  obtain ⟨entries, surveyed, answered, mirrors, alike, _⟩ := inPlace.survey package distinct left
  obtain ⟨entries', surveyed', answered', mirrors', alike', _⟩ :=
    rearranged.survey package distinct right
  have perm := rearranged.perm_questions
  have coherent := ScopeState.initial_coherent (Scope.opened package files).forgotten
  have eager := (Scope.opened package files).forgotten.eager_ask
  refine ⟨inPlace.moves package distinct, rearranged.moves package distinct, ?_, ?_⟩
  · exact alike.trans ((Scope.alike_of_perm perm answered answered').trans alike'.symm)
  · intro name
    rw [← mirrors.lookup, ← mirrors'.lookup]
    exact (ahead_of_perm eager perm coherent answered answered').covers.lookup_eq
      (ahead_of_perm eager perm.symm coherent answered' answered).covers name

/-- Two arrangements that resolve come to like symbols. -/
theorem Rearranged.symbols
    {package : PackageId}
    {files arranged : List FileScope}
    (rearranged : Rearranged files arranged)
    {symbols symbols' : List Symbol}
    {warnings warnings' : List Warning}
    (resolved : resolvePackage package files = .ok (symbols, warnings))
    (resolved' : resolvePackage package arranged = .ok (symbols', warnings')) :
    Paired Symbol.Alike symbols symbols' := by
  obtain ⟨scope, left, opened, rfl, _⟩ := resolvePackage_ok resolved
  obtain ⟨scope', right, opened', rfl, _⟩ := resolvePackage_ok resolved'
  obtain ⟨rfl, distinct⟩ := Scope.ofFiles_ok.mp opened
  obtain ⟨rfl, distinct'⟩ := Scope.ofFiles_ok.mp opened'
  exact (rearranged.agrees distinct left right).symbols (rearranged.perm_decls package) distinct
    distinct'

/--
All arrangements of a package that resolve come to like symbols.  All of them resolve or none,
unless some of them resolves and moving one declaration to the front of its file makes it fail: the
order of declarations matters exactly then.
-/
theorem resolvePackage_rearranged
    (package : PackageId)
    (files : List FileScope) :
    (∀ arranged, Rearranged files arranged → ∀ symbols warnings symbols' warnings',
      resolvePackage package files = .ok (symbols, warnings) →
      resolvePackage package arranged = .ok (symbols', warnings') →
      Paired Symbol.Alike symbols symbols') ∧
    ((∀ arranged, Rearranged files arranged →
        (resolvePackage package arranged).isOk = (resolvePackage package files).isOk) ↔
      ((∃ resolving, Rearranged files resolving ∧
          (resolvePackage package resolving).isOk = true) →
        ∀ fronted, Fronted files fronted → (resolvePackage package fronted).isOk = true)) := by
  have inPlace : Rearranged files files := List.forall₂_same.mpr fun file _ => .refl file
  refine ⟨fun arranged rearranged _ _ _ _ => rearranged.symbols, ?_, ?_⟩
  · rintro orderFree ⟨resolving, rearranged, resolves⟩ fronted isFronted
    rw [orderFree fronted isFronted.rearranged, ← orderFree resolving rearranged]
    exact resolves
  · intro frontable arranged rearranged
    rw [Bool.eq_iff_iff]
    constructor
    · intro resolves
      exact isOk_of_fronted rearranged resolves (frontable ⟨arranged, rearranged, resolves⟩) inPlace
    · intro resolves
      exact isOk_of_fronted inPlace resolves (frontable ⟨files, inPlace, resolves⟩) rearranged

/-! ## An alias met behind a declared type -/

namespace Detour

open Sketch (declares ident named package)

/-- The declaration `type S A`. -/
def definition : Syntax.TypeSpec :=
  declares 16 "S" false (named 18 "A")

/-- The declarations `type A = T` and `type T struct{ next *A }`. -/
def others : List Syntax.TypeSpec :=
  [declares 26 "A" true (named 30 "T"),
    declares 38 "T" false
      (.struct ⟨40, 57⟩
        [.mk ⟨48, 55⟩ [ident 48 "next"] false (.pointer ⟨53, 55⟩ (named 54 "A"))])]

/-- A file with declarations of types. -/
def file
    (types : List Syntax.TypeSpec) :
    FileScope :=
  Sketch.file types []

/--
With `S` declared last the package resolves in both orders of the others, to like symbols.  That it
fails with `S` moved to the front makes the order matter.
-/
theorem resolvePackage_rearranged_others :
    Rearranged [file (others ++ [definition])] [file (others.reverse ++ [definition])] ∧
      ∃ symbols warnings symbols' warnings',
        resolvePackage package [file (others ++ [definition])] = .ok (symbols, warnings) ∧
        resolvePackage package [file (others.reverse ++ [definition])] =
          .ok (symbols', warnings') ∧
        Paired Symbol.Alike symbols symbols' ∧
        Fronted [file (others ++ [definition])] [file (definition :: others)] ∧
        ¬∀ arranged, Rearranged [file (others ++ [definition])] arranged →
          (resolvePackage package arranged).isOk =
            (resolvePackage package [file (others ++ [definition])]).isOk := by
  have rearranged :
      Rearranged [file (others ++ [definition])] [file (others.reverse ++ [definition])] :=
    .cons ⟨rfl, rfl, rfl, rfl, ((List.reverse_perm others).symm.append_right _).map _, .refl _⟩ .nil
  have resolves : (resolvePackage package [file (others ++ [definition])]).isOk = true := by
    decide +kernel
  have resolvesToo :
      (resolvePackage package [file (others.reverse ++ [definition])]).isOk = true := by
    decide +kernel
  have fails : (resolvePackage package [file (definition :: others)]).isOk = false := by
    decide +kernel
  have fronted : Fronted [file (others ++ [definition])] [file (definition :: others)] :=
    ⟨[], _, _, [], rfl, .type others [] definition rfl, rfl⟩
  obtain ⟨⟨symbols, warnings⟩, first⟩ := exists_ok_of_isOk resolves
  obtain ⟨⟨symbols', warnings'⟩, second⟩ := exists_ok_of_isOk resolvesToo
  obtain ⟨alike, orderFree⟩ :=
    resolvePackage_rearranged package [file (others ++ [definition])]
  refine ⟨rearranged, symbols, warnings, symbols', warnings', first, second,
    alike _ rearranged _ _ _ _ first second, fronted, fun same => ?_⟩
  have resolvesFronted := orderFree.mp same ⟨_, rearranged, resolvesToo⟩ _ fronted
  rw [fails] at resolvesFronted
  cases resolvesFronted

/-- The package fails when `S` is declared first, and resolves when it is declared last. -/
theorem resolvePackage_detour :
    Rearranged [file (definition :: others)] [file (others ++ [definition])] ∧
      (resolvePackage package [file (definition :: others)]).isOk = false ∧
      (resolvePackage package [file (others ++ [definition])]).isOk = true := by
  refine ⟨.cons ?_ .nil, by decide +kernel, by decide +kernel⟩
  exact ⟨rfl, rfl, rfl, rfl, (List.perm_append_singleton definition others).symm.map _, .refl _⟩

end Detour

end Implementers
