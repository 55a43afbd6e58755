import Implementers.Proofs.Promotion.Declared
import Mathlib.Data.List.Perm.Subperm

/-!
# Embedded fields through aliases

The name of an embedded field leads through any number of aliases to a declared type or to the
predeclared `error`.  The promotion follows the aliases with a bound on their number and with a list
of those met before; neither of the two ever cuts a way short.
-/

namespace Implementers

open Syntax (FieldDecl)

namespace Scope

/-- Aliases for plain names lead from a name to a type, by the names on the way. -/
inductive LeadsTo
    (scope : Scope) :
    String → List String → EmbeddedTarget → Prop where
  | declared
      {name : String}
      {decl : TypeDecl}
      (found : scope.lookup? name = some decl)
      (notAlias : decl.spec.isAlias = false) :
      LeadsTo scope name [name] (.declared decl.name)
  | predeclared
      (undeclared : scope.lookup? "error" = none) :
      LeadsTo scope "error" ["error"] .errorInterface
  | through
      {name : String}
      {decl : TypeDecl}
      {span : Syntax.Span}
      {ident : Syntax.Ident}
      {hasArgs : Bool}
      {args : List Syntax.TypeExpr}
      {path : List String}
      {target : EmbeddedTarget}
      (found : scope.lookup? name = some decl)
      (isAlias : decl.spec.isAlias = true)
      (written : decl.spec.type = .name span none (some ident) hasArgs args)
      (leads : LeadsTo scope ident.text path target) :
      LeadsTo scope name (name :: path) target

namespace LeadsTo

variable
  {scope : Scope}
  {name : String}
  {path : List String}
  {target : EmbeddedTarget}

/-- There is one way from a name. -/
theorem path_unique
    {path' : List String}
    {target' : EmbeddedTarget}
    (leads : scope.LeadsTo name path target)
    (leads' : scope.LeadsTo name path' target') :
    path = path' := by
  induction leads generalizing path' with
  | declared found notAlias =>
      cases leads' with
      | declared _ _ => rfl
      | predeclared undeclared => simp [undeclared] at found
      | through found' isAlias _ _ =>
          rw [found] at found'
          cases found'
          simp [notAlias] at isAlias
  | predeclared undeclared =>
      cases leads' with
      | declared found _ => simp [undeclared] at found
      | predeclared _ => rfl
      | through found _ _ _ => simp [undeclared] at found
  | through found isAlias written _ inductionHypothesis =>
      cases leads' with
      | declared found' notAlias =>
          rw [found] at found'
          cases found'
          simp [notAlias] at isAlias
      | predeclared undeclared => simp [undeclared] at found
      | through found' _ written' leads' =>
          rw [found] at found'
          cases found'
          rw [written] at written'
          cases written'
          rw [inductionHypothesis leads']

/-- A way leads on from each of its names. -/
theorem of_mem
    {later : String}
    (leads : scope.LeadsTo name path target)
    (member : later ∈ path) :
    ∃ rest, rest.length ≤ path.length ∧ scope.LeadsTo later rest target := by
  induction leads with
  | declared found notAlias =>
      obtain rfl := List.mem_singleton.mp member
      exact ⟨_, Nat.le_refl _, .declared found notAlias⟩
  | predeclared undeclared =>
      obtain rfl := List.mem_singleton.mp member
      exact ⟨_, Nat.le_refl _, .predeclared undeclared⟩
  | through found isAlias written leads inductionHypothesis =>
      rcases List.mem_cons.mp member with rfl | inRest
      · exact ⟨_, Nat.le_refl _, .through found isAlias written leads⟩
      · obtain ⟨rest, shorter, leadsOn⟩ := inductionHypothesis inRest
        exact ⟨rest, Nat.le_succ_of_le shorter, leadsOn⟩

/-- No way comes back to a name that it has met. -/
theorem nodup_path
    (leads : scope.LeadsTo name path target) :
    path.Nodup := by
  induction leads with
  | declared _ _ => exact List.nodup_singleton _
  | predeclared _ => exact List.nodup_singleton _
  | through found isAlias written leads inductionHypothesis =>
      refine List.nodup_cons.mpr ⟨fun member => ?_, inductionHypothesis⟩
      obtain ⟨rest, shorter, again⟩ := leads.of_mem member
      have same := (LeadsTo.through found isAlias written leads).path_unique again
      rw [← same, List.length_cons] at shorter
      exact Nat.not_succ_le_self _ shorter

/-- Every name on a way is declared, or is the predeclared `error`. -/
theorem path_subset
    (leads : scope.LeadsTo name path target) :
    path ⊆ "error" :: scope.decls.map TypeDecl.name := by
  have declared {name : String} {decl : TypeDecl} (found : scope.lookup? name = some decl) :
      name ∈ "error" :: scope.decls.map TypeDecl.name := by
    refine List.mem_cons_of_mem _ (List.mem_map.mpr ⟨decl, ?_, lookup?_name found⟩)
    exact List.mem_of_find?_eq_some found
  induction leads with
  | declared found _ => exact List.cons_subset.mpr ⟨declared found, List.nil_subset _⟩
  | predeclared _ => exact List.cons_subset.mpr ⟨List.mem_cons_self, List.nil_subset _⟩
  | through found _ _ _ inductionHypothesis =>
      exact List.cons_subset.mpr ⟨declared found, inductionHypothesis⟩

theorem length_path_le
    (leads : scope.LeadsTo name path target) :
    path.length ≤ scope.decls.length + 1 := by
  simpa using (leads.nodup_path.subperm leads.path_subset).length_le

/-- A way is followed to its end if it meets nothing met before and is not too long. -/
theorem embeddedThroughAliases?
    {hops : Nat}
    {visited : List String}
    (leads : scope.LeadsTo name path target)
    (fresh : ∀ later ∈ path, later ∉ visited)
    (enough : path.length ≤ hops) :
    scope.embeddedThroughAliases? hops visited name = some target := by
  induction leads generalizing hops visited with
  | @declared name _ found notAlias =>
      obtain ⟨hops, rfl⟩ := Nat.exists_eq_add_of_le' enough
      simp [Scope.embeddedThroughAliases?, fresh name List.mem_cons_self, found, notAlias]
  | predeclared undeclared =>
      obtain ⟨hops, rfl⟩ := Nat.exists_eq_add_of_le' enough
      simp [Scope.embeddedThroughAliases?, fresh "error" List.mem_cons_self, undeclared]
  | @through name _ _ ident _ _ path _ found isAlias written leads inductionHypothesis =>
      cases hops with
      | zero => cases enough
      | succ hops =>
          have freshRest : ∀ later ∈ path, later ∉ name :: visited := by
            intro later member again
            rcases List.mem_cons.mp again with rfl | metBefore
            · exact (List.nodup_cons.mp (through found isAlias written leads).nodup_path).1 member
            · exact fresh later (List.mem_cons_of_mem _ member) metBefore
          have followed := inductionHypothesis freshRest (Nat.le_of_succ_le_succ enough)
          simp [Scope.embeddedThroughAliases?, fresh name List.mem_cons_self, found, isAlias,
            written, followed]

end LeadsTo

/-- A way that is followed to its end leads there. -/
theorem leadsTo_of_embeddedThroughAliases?
    {scope : Scope}
    {hops : Nat}
    {visited : List String}
    {name : String}
    {target : EmbeddedTarget}
    (followed : scope.embeddedThroughAliases? hops visited name = some target) :
    ∃ path, scope.LeadsTo name path target := by
  induction hops generalizing visited name with
  | zero => cases followed
  | succ hops inductionHypothesis =>
      simp only [embeddedThroughAliases?] at followed
      split at followed
      · cases followed
      · split at followed
        · next decl found =>
            split at followed
            · next isAlias =>
                split at followed
                · next written =>
                    obtain ⟨path, leads⟩ := inductionHypothesis followed
                    exact ⟨name :: path, .through found isAlias written leads⟩
                · cases followed
            · next notAlias =>
                cases followed
                exact ⟨[name], .declared found (by simpa using notAlias)⟩
        · next undeclared =>
            split at followed
            · next isError =>
                cases followed
                obtain rfl : name = "error" := by simpa using isError
                exact ⟨["error"], .predeclared undeclared⟩
            · cases followed

/-- An embedded field promotes from the type that its name leads to through aliases, if any. -/
theorem embeddedTarget?_eq_some_iff
    {scope : Scope}
    {field : FieldDecl}
    {target : EmbeddedTarget} :
    scope.embeddedTarget? field = some target ↔
      ∃ span ident args path,
        field.type = .name span none (some ident) false args ∧
          scope.LeadsTo ident.text path target := by
  constructor
  · intro leads
    unfold embeddedTarget? at leads
    split at leads
    · next span ident args written =>
        obtain ⟨path, leadsTo⟩ := leadsTo_of_embeddedThroughAliases? leads
        exact ⟨span, ident, args, path, written, leadsTo⟩
    · cases leads
  · rintro ⟨span, ident, args, path, written, leads⟩
    simp only [embeddedTarget?, written]
    exact leads.embeddedThroughAliases? (fun _ _ => List.not_mem_nil)
      (Nat.le_succ_of_le leads.length_path_le)

end Scope

end Implementers
