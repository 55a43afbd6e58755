import Implementers.Proofs.Query.Owners
import Implementers.Proofs.TypeIdentity

namespace Implementers

/-!
# What replacing owners changes

The outline of a type is what is left of it without the owners of its named types.  Outline and
owners together make up the type, and replacing the owners of scanned packages keeps the outline.
So it changes the imported owners of scanned packages and nothing else, it reports a change exactly
when there is one, and doing it twice is doing it once.  Types, signatures and method sets that are
identical stay identical, and a set goes on to satisfy what it satisfied before.
-/

namespace Owner

/-- What becomes of an owner: that of a scanned package is replaced, any other one is kept. -/
inductive Becomes
    (scanned : ScannedPackages) :
    Owner → Owner → Prop where
  | replaced
      {path : String}
      {package : PackageId}
      (found : scanned path = some package) :
      Becomes scanned (.imported path) (.local package)
  | kept
      {owner : Owner}
      (notScanned : ∀ path, owner = .imported path → scanned path = none) :
      Becomes scanned owner owner

/-- An owner becomes what it is replaced by. -/
theorem becomes_iff
    {scanned : ScannedPackages}
    {before after : Owner} :
    Becomes scanned before after ↔ after = before.localize scanned := by
  constructor
  · intro becomes
    cases becomes with
    | replaced found => simp [localize, found]
    | kept notScanned =>
        cases before with
        | imported path => simp [localize, notScanned path rfl]
        | _ => rfl
  · rintro rfl
    cases before with
    | imported path =>
        cases found : scanned path with
        | some package => simpa [localize, found] using Becomes.replaced found
        | none =>
            have kept : Becomes scanned (.imported path) (.imported path) := .kept (by simp [found])
            simpa [localize, found] using kept
    | _ => exact .kept (by simp)

/-- An owner that has been replaced is not replaced once more. -/
@[simp] theorem localize_localize
    (scanned : ScannedPackages)
    (owner : Owner) :
    (owner.localize scanned).localize scanned = owner.localize scanned := by
  cases owner with
  | imported path => cases found : scanned path <;> simp [localize, found]
  | _ => rfl

/-- The owners that are replaced are those of scanned packages. -/
theorem isScanned_iff
    {scanned : ScannedPackages}
    {owner : Owner} :
    owner.isScanned scanned ↔ owner.localize scanned ≠ owner := by
  cases owner with
  | imported path => cases found : scanned path <;> simp [isScanned, localize, found]
  | _ => simp [isScanned, localize]

end Owner

/-! ## Outlines -/

mutual

/-- A type without the owners of the named types in it. -/
def Ty.outline : Ty → Ty
  | .named _ name args => .named .predeclared name (Ty.listOutline args)
  | .pointer elem => .pointer elem.outline
  | .slice elem => .slice elem.outline
  | .array length elem => .array length elem.outline
  | .map key value => .map key.outline value.outline
  | .chan direction elem => .chan direction elem.outline
  | .func signature => .func signature.outline
  | .struct fields => .struct (StructField.listOutline fields)
  | .interface methods => .interface methods.outline

/-- The types of a list without owners. -/
def Ty.listOutline : List Ty → List Ty
  | [] => []
  | first :: rest => first.outline :: Ty.listOutline rest

/-- A signature without owners. -/
def Signature.outline : Signature → Signature
  | .mk params results variadic => .mk (Ty.listOutline params) (Ty.listOutline results) variadic

/-- The fields of a list without owners. -/
def StructField.listOutline : List StructField → List StructField
  | [] => []
  | .mk name type embedded :: rest =>
      .mk name type.outline embedded :: StructField.listOutline rest

/-- The methods of a list without owners. -/
def Method.listOutline : List Method → List Method
  | [] => []
  | .mk name signature :: rest => .mk name signature.outline :: Method.listOutline rest

/-- A method set without owners. -/
def MethodSet.outline : MethodSet → MethodSet
  | .mk methods => .mk (Method.listOutline methods)

end

section Outlines

variable (scanned : ScannedPackages)

mutual

/-- Replacing owners keeps the outline of a type. -/
theorem Ty.outline_localize : ∀ type : Ty, (type.localize scanned).outline = type.outline
  | .named _ _ args => by
      simp only [Ty.localize, Ty.outline, Ty.listOutline_localize args]
  | .pointer elem => congrArg Ty.pointer elem.outline_localize
  | .slice elem => congrArg Ty.slice elem.outline_localize
  | .array length elem => congrArg (Ty.array length) elem.outline_localize
  | .map key value => by
      simp only [Ty.localize, Ty.outline, key.outline_localize, value.outline_localize]
  | .chan direction elem => congrArg (Ty.chan direction) elem.outline_localize
  | .func signature => congrArg Ty.func signature.outline_localize
  | .struct fields => congrArg Ty.struct (StructField.listOutline_localize fields)
  | .interface methods => congrArg Ty.interface methods.outline_localize

/-- Replacing owners keeps the outlines of the types of a list. -/
theorem Ty.listOutline_localize : ∀ types : List Ty,
    Ty.listOutline (Ty.localizeList scanned types) = Ty.listOutline types
  | [] => rfl
  | first :: rest => by
      simp only [Ty.localizeList, Ty.listOutline, first.outline_localize,
        Ty.listOutline_localize rest]

/-- Replacing owners keeps the outline of a signature. -/
theorem Signature.outline_localize : ∀ signature : Signature,
    (signature.localize scanned).outline = signature.outline
  | .mk params results _ => by
      simp only [Signature.localize, Signature.outline, Ty.listOutline_localize params,
        Ty.listOutline_localize results]

/-- Replacing owners keeps the outlines of the fields of a list. -/
theorem StructField.listOutline_localize : ∀ fields : List StructField,
    StructField.listOutline (StructField.localizeList scanned fields) =
      StructField.listOutline fields
  | [] => rfl
  | .mk _ type _ :: rest => by
      simp only [StructField.localizeList, StructField.listOutline, type.outline_localize,
        StructField.listOutline_localize rest]

/-- Replacing owners keeps the outlines of the methods of a list. -/
theorem Method.listOutline_localize : ∀ methods : List Method,
    Method.listOutline (Method.localizeList scanned methods) = Method.listOutline methods
  | [] => rfl
  | .mk _ signature :: rest => by
      simp only [Method.localizeList, Method.listOutline, signature.outline_localize,
        Method.listOutline_localize rest]

/-- Replacing owners keeps the outline of a method set. -/
theorem MethodSet.outline_localize : ∀ methods : MethodSet,
    (methods.localize scanned).outline = methods.outline
  | .mk methods => congrArg MethodSet.mk (Method.listOutline_localize methods)

end

end Outlines

-- The occurrences are read from the left, so what comes behind a type is carried along: only then
-- does it show where the occurrences in the type end.
mutual

/-- Types with one outline and the same named types in it are equal. -/
theorem Ty.eq_of_outline : ∀ {left right : Ty}, left.outline = right.outline →
    ∀ {more others : List (Owner × String)},
      left.occurrences ++ more = right.occurrences ++ others → left = right ∧ more = others
  | .named owner name args, right, same, more, others, leaves => by
      cases right <;> simp only [Ty.outline, reduceCtorEq, Ty.named.injEq, true_and] at same
      simp only [Ty.occurrences, List.cons_append, List.cons.injEq, Prod.mk.injEq] at leaves
      obtain ⟨⟨rfl, rfl⟩, rest⟩ := leaves
      obtain ⟨rfl, rfl⟩ := Ty.eq_of_listOutline same.2 rest
      exact ⟨rfl, rfl⟩
  | .pointer elem, right, same, _, _, leaves => by
      cases right <;> simp only [Ty.outline, reduceCtorEq, Ty.pointer.injEq] at same
      obtain ⟨rfl, rfl⟩ := Ty.eq_of_outline same leaves
      exact ⟨rfl, rfl⟩
  | .slice elem, right, same, _, _, leaves => by
      cases right <;> simp only [Ty.outline, reduceCtorEq, Ty.slice.injEq] at same
      obtain ⟨rfl, rfl⟩ := Ty.eq_of_outline same leaves
      exact ⟨rfl, rfl⟩
  | .array _ elem, right, same, _, _, leaves => by
      cases right <;> simp only [Ty.outline, reduceCtorEq, Ty.array.injEq] at same
      obtain ⟨rfl, rfl⟩ := Ty.eq_of_outline same.2 leaves
      exact ⟨by rw [same.1], rfl⟩
  | .map key value, right, same, _, _, leaves => by
      cases right <;> simp only [Ty.outline, reduceCtorEq, Ty.map.injEq] at same
      simp only [Ty.occurrences, List.append_assoc] at leaves
      obtain ⟨rfl, rest⟩ := Ty.eq_of_outline same.1 leaves
      obtain ⟨rfl, rfl⟩ := Ty.eq_of_outline same.2 rest
      exact ⟨rfl, rfl⟩
  | .chan _ elem, right, same, _, _, leaves => by
      cases right <;> simp only [Ty.outline, reduceCtorEq, Ty.chan.injEq] at same
      obtain ⟨rfl, rfl⟩ := Ty.eq_of_outline same.2 leaves
      exact ⟨by rw [same.1], rfl⟩
  | .func signature, right, same, _, _, leaves => by
      cases right <;> simp only [Ty.outline, reduceCtorEq, Ty.func.injEq] at same
      obtain ⟨rfl, rfl⟩ := Signature.eq_of_outline same leaves
      exact ⟨rfl, rfl⟩
  | .struct fields, right, same, _, _, leaves => by
      cases right <;> simp only [Ty.outline, reduceCtorEq, Ty.struct.injEq] at same
      obtain ⟨rfl, rfl⟩ := StructField.eq_of_listOutline same leaves
      exact ⟨rfl, rfl⟩
  | .interface methods, right, same, _, _, leaves => by
      cases right <;> simp only [Ty.outline, reduceCtorEq, Ty.interface.injEq] at same
      obtain ⟨rfl, rfl⟩ := MethodSet.eq_of_outline same leaves
      exact ⟨rfl, rfl⟩

/-- The same for the types of a list. -/
theorem Ty.eq_of_listOutline : ∀ {left right : List Ty}, Ty.listOutline left = Ty.listOutline right →
    ∀ {more others : List (Owner × String)},
      Ty.listOccurrences left ++ more = Ty.listOccurrences right ++ others →
        left = right ∧ more = others
  | [], right, same, _, _, leaves => by
      cases right <;> simp only [Ty.listOutline, reduceCtorEq] at same
      exact ⟨rfl, leaves⟩
  | first :: rest, right, same, _, _, leaves => by
      cases right <;> simp only [Ty.listOutline, reduceCtorEq, List.cons.injEq] at same
      simp only [Ty.listOccurrences, List.append_assoc] at leaves
      obtain ⟨rfl, behind⟩ := Ty.eq_of_outline same.1 leaves
      obtain ⟨rfl, rfl⟩ := Ty.eq_of_listOutline same.2 behind
      exact ⟨rfl, rfl⟩

/-- The same for signatures. -/
theorem Signature.eq_of_outline : ∀ {left right : Signature}, left.outline = right.outline →
    ∀ {more others : List (Owner × String)},
      left.occurrences ++ more = right.occurrences ++ others → left = right ∧ more = others
  | .mk params results variadic, .mk _ _ _, same, _, _, leaves => by
      simp only [Signature.outline, Signature.mk.injEq] at same
      simp only [Signature.occurrences, List.append_assoc] at leaves
      obtain ⟨rfl, behind⟩ := Ty.eq_of_listOutline same.1 leaves
      obtain ⟨rfl, rfl⟩ := Ty.eq_of_listOutline same.2.1 behind
      exact ⟨by rw [same.2.2], rfl⟩

/-- The same for the fields of a list. -/
theorem StructField.eq_of_listOutline : ∀ {left right : List StructField},
    StructField.listOutline left = StructField.listOutline right →
      ∀ {more others : List (Owner × String)},
        StructField.listOccurrences left ++ more = StructField.listOccurrences right ++ others →
          left = right ∧ more = others
  | [], right, same, _, _, leaves => by
      rcases right with _ | ⟨⟨_, _, _⟩, _⟩ <;>
        simp only [StructField.listOutline, reduceCtorEq] at same
      exact ⟨rfl, leaves⟩
  | .mk name type embedded :: rest, right, same, _, _, leaves => by
      rcases right with _ | ⟨⟨_, _, _⟩, _⟩ <;>
        simp only [StructField.listOutline, reduceCtorEq, List.cons.injEq,
          StructField.mk.injEq] at same
      simp only [StructField.listOccurrences, List.append_assoc] at leaves
      obtain ⟨⟨rfl, sameType, rfl⟩, sameRest⟩ := same
      obtain ⟨rfl, behind⟩ := Ty.eq_of_outline sameType leaves
      obtain ⟨rfl, rfl⟩ := StructField.eq_of_listOutline sameRest behind
      exact ⟨rfl, rfl⟩

/-- The same for the methods of a list. -/
theorem Method.eq_of_listOutline : ∀ {left right : List Method},
    Method.listOutline left = Method.listOutline right →
      ∀ {more others : List (Owner × String)},
        Method.listOccurrences left ++ more = Method.listOccurrences right ++ others →
          left = right ∧ more = others
  | [], right, same, _, _, leaves => by
      rcases right with _ | ⟨⟨_, _⟩, _⟩ <;> simp only [Method.listOutline, reduceCtorEq] at same
      exact ⟨rfl, leaves⟩
  | .mk name signature :: rest, right, same, _, _, leaves => by
      rcases right with _ | ⟨⟨_, _⟩, _⟩ <;>
        simp only [Method.listOutline, reduceCtorEq, List.cons.injEq, Method.mk.injEq] at same
      simp only [Method.listOccurrences, List.append_assoc] at leaves
      obtain ⟨⟨rfl, sameSignature⟩, sameRest⟩ := same
      obtain ⟨rfl, behind⟩ := Signature.eq_of_outline sameSignature leaves
      obtain ⟨rfl, rfl⟩ := Method.eq_of_listOutline sameRest behind
      exact ⟨rfl, rfl⟩

/-- The same for method sets. -/
theorem MethodSet.eq_of_outline : ∀ {left right : MethodSet}, left.outline = right.outline →
    ∀ {more others : List (Owner × String)},
      left.occurrences ++ more = right.occurrences ++ others → left = right ∧ more = others
  | .mk methods, .mk _, same, _, _, leaves => by
      simp only [MethodSet.outline, MethodSet.mk.injEq] at same
      obtain ⟨rfl, rfl⟩ := Method.eq_of_listOutline same leaves
      exact ⟨rfl, rfl⟩

end

/-! ## Reported changes -/

section Reports

variable (scanned : ScannedPackages)

/-- Whether the owner of an occurrence is replaced. -/
def occursScanned
    (occurrence : Owner × String) :
    Bool :=
  occurrence.1.isScanned scanned

mutual

/-- A type is reported when an owner that occurs in it is replaced. -/
theorem Ty.mentionsScanned_eq : ∀ type : Ty,
    type.mentionsScanned scanned = type.occurrences.any (occursScanned scanned)
  | .named _ _ args => by
      simp [Ty.mentionsScanned, Ty.occurrences, occursScanned, Ty.listMentionsScanned_eq args]
  | .pointer elem => elem.mentionsScanned_eq
  | .slice elem => elem.mentionsScanned_eq
  | .array _ elem => elem.mentionsScanned_eq
  | .map key value => by
      simp only [Ty.mentionsScanned, Ty.occurrences, List.any_append, key.mentionsScanned_eq,
        value.mentionsScanned_eq]
  | .chan _ elem => elem.mentionsScanned_eq
  | .func signature => signature.mentionsScanned_eq
  | .struct fields => StructField.listMentionsScanned_eq fields
  | .interface methods => methods.mentionsScanned_eq

/-- The same for the types of a list. -/
theorem Ty.listMentionsScanned_eq : ∀ types : List Ty,
    Ty.listMentionsScanned scanned types =
      (Ty.listOccurrences types).any (occursScanned scanned)
  | [] => rfl
  | first :: rest => by
      simp only [Ty.listMentionsScanned, Ty.listOccurrences, List.any_append,
        first.mentionsScanned_eq, Ty.listMentionsScanned_eq rest]

/-- The same for a signature. -/
theorem Signature.mentionsScanned_eq : ∀ signature : Signature,
    signature.mentionsScanned scanned = signature.occurrences.any (occursScanned scanned)
  | .mk params results _ => by
      simp only [Signature.mentionsScanned, Signature.occurrences, List.any_append,
        Ty.listMentionsScanned_eq params, Ty.listMentionsScanned_eq results]

/-- The same for the fields of a list. -/
theorem StructField.listMentionsScanned_eq : ∀ fields : List StructField,
    StructField.listMentionsScanned scanned fields =
      (StructField.listOccurrences fields).any (occursScanned scanned)
  | [] => rfl
  | .mk _ type _ :: rest => by
      simp only [StructField.listMentionsScanned, StructField.listOccurrences, List.any_append,
        type.mentionsScanned_eq, StructField.listMentionsScanned_eq rest]

/-- The same for the methods of a list. -/
theorem Method.listMentionsScanned_eq : ∀ methods : List Method,
    Method.listMentionsScanned scanned methods =
      (Method.listOccurrences methods).any (occursScanned scanned)
  | [] => rfl
  | .mk _ signature :: rest => by
      simp only [Method.listMentionsScanned, Method.listOccurrences, List.any_append,
        signature.mentionsScanned_eq, Method.listMentionsScanned_eq rest]

/-- The same for a method set. -/
theorem MethodSet.mentionsScanned_eq : ∀ methods : MethodSet,
    methods.mentionsScanned scanned = methods.occurrences.any (occursScanned scanned)
  | .mk methods => Method.listMentionsScanned_eq methods

end

end Reports

/-! ## Identity -/

section Identity

variable (scanned : ScannedPackages)

/-- Owners that are the same are replaced by owners that are the same. -/
theorem Owner.localize_same
    {left right : Owner}
    (same : left.same right) :
    (left.localize scanned).same (right.localize scanned) := by
  cases left <;> cases right <;> simp only [Owner.same, Bool.false_eq_true, beq_iff_eq] at same
  · rfl
  · exact same
  · subst same
    simp only [localize]
    split <;> simp [Owner.same]

/-- Replacing owners takes no method away and adds none. -/
theorem Method.length_localizeList
    (methods : List Method) :
    (Method.localizeList scanned methods).length = methods.length := by
  induction methods with
  | nil => rfl
  | cons method rest inductionHypothesis =>
      cases method
      simp [Method.localizeList, inductionHypothesis]

/-- Every method after the replacement was there before under its name. -/
theorem Method.exists_of_mem_localizeList
    {methods : List Method}
    {method : Method}
    (member : method ∈ Method.localizeList scanned methods) :
    ∃ original ∈ methods, method = .mk original.name (original.signature.localize scanned) := by
  induction methods with
  | nil => cases member
  | cons first rest inductionHypothesis =>
      obtain ⟨name, signature⟩ := first
      rcases List.mem_cons.mp member with rfl | later
      · exact ⟨_, List.mem_cons_self, rfl⟩
      · obtain ⟨original, inRest, same⟩ := inductionHypothesis later
        exact ⟨original, List.mem_cons_of_mem _ inRest, same⟩

mutual

/-- Identical types stay identical when owners are replaced in both. -/
theorem Ty.localize_same : ∀ left : Ty, ∀ {right : Ty}, left.same right →
    (left.localize scanned).same (right.localize scanned)
  | .named _ _ args, right, same => by
      cases right <;>
        simp only [Ty.same, Ty.localize, Bool.false_eq_true, Bool.and_eq_true] at same ⊢
      exact ⟨⟨Owner.localize_same scanned same.1.1, same.1.2⟩,
        Ty.localizeList_same args same.2⟩
  | .pointer elem, right, same => by
      cases right <;> simp only [Ty.same, Ty.localize, Bool.false_eq_true] at same ⊢
      exact elem.localize_same same
  | .slice elem, right, same => by
      cases right <;> simp only [Ty.same, Ty.localize, Bool.false_eq_true] at same ⊢
      exact elem.localize_same same
  | .array _ elem, right, same => by
      cases right <;>
        simp only [Ty.same, Ty.localize, Bool.false_eq_true, Bool.and_eq_true] at same ⊢
      exact ⟨same.1, elem.localize_same same.2⟩
  | .map key value, right, same => by
      cases right <;>
        simp only [Ty.same, Ty.localize, Bool.false_eq_true, Bool.and_eq_true] at same ⊢
      exact ⟨key.localize_same same.1, value.localize_same same.2⟩
  | .chan _ elem, right, same => by
      cases right <;>
        simp only [Ty.same, Ty.localize, Bool.false_eq_true, Bool.and_eq_true] at same ⊢
      exact ⟨same.1, elem.localize_same same.2⟩
  | .func signature, right, same => by
      cases right <;> simp only [Ty.same, Ty.localize, Bool.false_eq_true] at same ⊢
      exact signature.localize_same same
  | .struct fields, right, same => by
      cases right <;> simp only [Ty.same, Ty.localize, Bool.false_eq_true] at same ⊢
      exact StructField.localizeList_same fields same
  | .interface methods, right, same => by
      cases right <;> simp only [Ty.same, Ty.localize, Bool.false_eq_true] at same ⊢
      exact methods.localize_same same

/-- The same for the types of a list. -/
theorem Ty.localizeList_same : ∀ left : List Ty, ∀ {right : List Ty}, Ty.sameList left right →
    Ty.sameList (Ty.localizeList scanned left) (Ty.localizeList scanned right)
  | [], right, same => by
      cases right <;> simp only [Ty.sameList, Ty.localizeList, Bool.false_eq_true] at same ⊢
  | first :: rest, right, same => by
      cases right <;>
        simp only [Ty.sameList, Ty.localizeList, Bool.false_eq_true, Bool.and_eq_true] at same ⊢
      exact ⟨first.localize_same same.1, Ty.localizeList_same rest same.2⟩

/-- The same for signatures. -/
theorem Signature.localize_same : ∀ left : Signature, ∀ {right : Signature}, left.same right →
    (left.localize scanned).same (right.localize scanned)
  | .mk params results _, .mk _ _ _, same => by
      simp only [Signature.same, Signature.localize, Bool.and_eq_true] at same ⊢
      exact ⟨⟨Ty.localizeList_same params same.1.1, Ty.localizeList_same results same.1.2⟩, same.2⟩

/-- The same for the fields of a list. -/
theorem StructField.localizeList_same : ∀ left : List StructField, ∀ {right : List StructField},
    StructField.sameList left right →
      StructField.sameList (StructField.localizeList scanned left)
        (StructField.localizeList scanned right)
  | [], right, same => by
      cases right <;>
        simp only [StructField.sameList, StructField.localizeList, Bool.false_eq_true] at same ⊢
  | .mk _ type _ :: rest, right, same => by
      rcases right with _ | ⟨⟨_, _, _⟩, _⟩ <;>
        simp only [StructField.sameList, StructField.same, StructField.localizeList,
          Bool.false_eq_true, Bool.and_eq_true] at same ⊢
      exact ⟨⟨⟨same.1.1.1, type.localize_same same.1.1.2⟩, same.1.2⟩,
        StructField.localizeList_same rest same.2⟩

/-- What a list of methods provides it still provides when owners are replaced. -/
theorem Method.localizeList_provides : ∀ (methods : List Method) {name : MethodName}
    {signature : Signature}, Method.provides methods name signature →
      Method.provides (Method.localizeList scanned methods) name (signature.localize scanned)
  | [], _, _, provided => by simp [Method.provides] at provided
  | .mk _ ownSignature :: rest, _, _, provided => by
      simp only [Method.provides, Method.localizeList] at provided ⊢
      split at provided
      · next isOwn =>
          rw [if_pos isOwn]
          exact ownSignature.localize_same provided
      · next isOther =>
          rw [if_neg isOther]
          exact Method.localizeList_provides rest provided

/-- The same for method sets. -/
theorem MethodSet.localize_same : ∀ left : MethodSet, ∀ {right : MethodSet}, left.same right →
    (left.localize scanned).same (right.localize scanned)
  | .mk methods, .mk _, same => by
      simp only [MethodSet.same, MethodSet.localize, Method.length_localizeList,
        Bool.and_eq_true, List.all_eq_true] at same ⊢
      refine ⟨same.1, fun method member => ?_⟩
      obtain ⟨original, isMember, rfl⟩ := Method.exists_of_mem_localizeList scanned member
      exact Method.localizeList_provides methods (same.2 original isMember)

end

/-- A set still satisfies another one when owners are replaced in both. -/
theorem MethodSet.localize_satisfies
    {set required : MethodSet}
    (satisfies : set.satisfies required) :
    (set.localize scanned).satisfies (required.localize scanned) := by
  obtain ⟨methods⟩ := set
  obtain ⟨others⟩ := required
  simp only [MethodSet.satisfies, List.all_eq_true] at satisfies ⊢
  intro method member
  obtain ⟨original, isMember, rfl⟩ := Method.exists_of_mem_localizeList scanned member
  exact Method.localizeList_provides scanned methods (satisfies original isMember)

end Identity

/-! ## Types, signatures and method sets alike -/

/-- Values that owners are replaced in, with what is told of them and how they are compared. -/
structure Localizable (α : Type) where
  localize : ScannedPackages → α → α
  /-- Whether an owner of a scanned package occurs. -/
  mentions : ScannedPackages → α → Bool
  same : α → α → Bool
  outline : α → α
  occurrences : α → List (Owner × String)

/-- Types as values that owners are replaced in. -/
def Ty.localizable : Localizable Ty :=
  ⟨Ty.localize, Ty.mentionsScanned, Ty.same, Ty.outline, Ty.occurrences⟩

/-- Signatures as values that owners are replaced in. -/
def Signature.localizable : Localizable Signature :=
  ⟨Signature.localize, Signature.mentionsScanned, Signature.same, Signature.outline,
    Signature.occurrences⟩

/-- Method sets as values that owners are replaced in. -/
def MethodSet.localizable : Localizable MethodSet :=
  ⟨MethodSet.localize, MethodSet.mentionsScanned, MethodSet.same, MethodSet.outline,
    MethodSet.occurrences⟩

namespace Localizable

/--
What holds when nothing but the owners of scanned packages is replaced.  A value is replaced by the
only one with its outline in which every owner has become what it has to.
-/
structure Exact
    (kind : Localizable α)
    (scanned : ScannedPackages) :
    Prop where
  replaces :
    ∀ before after, after = kind.localize scanned before ↔
      kind.outline after = kind.outline before ∧
        List.Forall₂
          (fun occurs becomes =>
            Owner.Becomes scanned occurs.1 becomes.1 ∧ becomes.2 = occurs.2)
          (kind.occurrences before) (kind.occurrences after)
  reports : ∀ value, kind.mentions scanned value ↔ kind.localize scanned value ≠ value
  settles :
    ∀ value, kind.localize scanned (kind.localize scanned value) = kind.localize scanned value ∧
      kind.mentions scanned (kind.localize scanned value) = false
  same :
    ∀ left right, kind.same left right →
      kind.same (kind.localize scanned left) (kind.localize scanned right)

/-- An occurrence becomes what it is replaced by, and keeps its name. -/
theorem forall₂_becomes_iff
    {scanned : ScannedPackages}
    {before after : List (Owner × String)} :
    List.Forall₂
        (fun occurs becomes => Owner.Becomes scanned occurs.1 becomes.1 ∧ becomes.2 = occurs.2)
        before after ↔
      after = before.map (localizedOccurrence scanned) := by
  have each (occurs becomes : Owner × String) :
      (Owner.Becomes scanned occurs.1 becomes.1 ∧ becomes.2 = occurs.2) ↔
        localizedOccurrence scanned occurs = becomes := by
    rw [Owner.becomes_iff, localizedOccurrence, Prod.ext_iff]
    exact and_congr eq_comm eq_comm
  simp only [each, eq_comm (a := after)]
  rw [← List.forall₂_eq_eq_eq, List.forall₂_map_left_iff]

/-- Whatever is made up of outline and occurrences is replaced exactly. -/
theorem exact_of
    {kind : Localizable α}
    {scanned : ScannedPackages}
    (outline : ∀ value, kind.outline (kind.localize scanned value) = kind.outline value)
    (occurrences :
      ∀ value, kind.occurrences (kind.localize scanned value) =
        (kind.occurrences value).map (localizedOccurrence scanned))
    (determined :
      ∀ left right, kind.outline left = kind.outline right →
        kind.occurrences left = kind.occurrences right → left = right)
    (mentions :
      ∀ value, kind.mentions scanned value =
        (kind.occurrences value).any (occursScanned scanned))
    (same :
      ∀ left right, kind.same left right →
        kind.same (kind.localize scanned left) (kind.localize scanned right)) :
    kind.Exact scanned := by
  have replaces (before after : α) :
      after = kind.localize scanned before ↔
        kind.outline after = kind.outline before ∧
          kind.occurrences after = (kind.occurrences before).map (localizedOccurrence scanned) := by
    constructor
    · rintro rfl
      exact ⟨outline before, occurrences before⟩
    · rintro ⟨sameOutline, replaced⟩
      exact determined _ _ (sameOutline.trans (outline before).symm)
        (replaced.trans (occurrences before).symm)
  have reports (value : α) :
      kind.mentions scanned value ↔ kind.localize scanned value ≠ value := by
    have unchanged :
        kind.localize scanned value = value ↔
          ∀ occurrence ∈ kind.occurrences value, ¬ occursScanned scanned occurrence := by
      rw [eq_comm, replaces, and_iff_right rfl, eq_comm]
      conv => lhs; rhs; rw [← List.map_id (kind.occurrences value)]
      rw [List.map_inj_left]
      refine forall₂_congr fun occurrence _ => ?_
      rw [occursScanned, Owner.isScanned_iff, not_not, Prod.ext_iff]
      exact and_iff_left rfl
    rw [mentions, List.any_eq_true, Ne, unchanged]
    simp
  have settled (value : α) :
      kind.localize scanned (kind.localize scanned value) = kind.localize scanned value := by
    refine ((replaces _ _).mpr ⟨rfl, ?_⟩).symm
    rw [occurrences, List.map_map]
    refine List.map_congr_left fun occurrence _ => ?_
    simp [localizedOccurrence]
  exact
    { replaces := fun before after => by rw [forall₂_becomes_iff]; exact replaces before after
      reports
      settles := fun value =>
        ⟨settled value, Bool.eq_false_iff.mpr fun mentioned =>
          (reports _).mp mentioned (settled value)⟩
      same }

end Localizable

section Exact

variable (scanned : ScannedPackages)

theorem Ty.localizable_exact : Ty.localizable.Exact scanned :=
  Localizable.exact_of (Ty.outline_localize scanned) (Ty.occurrences_localize scanned)
    (fun _ _ outline occurrences =>
      (Ty.eq_of_outline outline (congrArg (· ++ []) occurrences)).1)
    (Ty.mentionsScanned_eq scanned) fun left _ => left.localize_same scanned

theorem Signature.localizable_exact : Signature.localizable.Exact scanned :=
  Localizable.exact_of (Signature.outline_localize scanned) (Signature.occurrences_localize scanned)
    (fun _ _ outline occurrences =>
      (Signature.eq_of_outline outline (congrArg (· ++ []) occurrences)).1)
    (Signature.mentionsScanned_eq scanned) fun left _ => left.localize_same scanned

theorem MethodSet.localizable_exact : MethodSet.localizable.Exact scanned :=
  Localizable.exact_of (MethodSet.outline_localize scanned) (MethodSet.occurrences_localize scanned)
    (fun _ _ outline occurrences =>
      (MethodSet.eq_of_outline outline (congrArg (· ++ []) occurrences)).1)
    (MethodSet.mentionsScanned_eq scanned) fun left _ => left.localize_same scanned

end Exact

/-! ## Universes -/

namespace ImportIndex

/-- Which packages are scanned for import paths does not depend on the method sets of symbols. -/
theorem packages_localize
    (index : ImportIndex)
    (symbols : Universe) :
    index.packages (index.localize symbols) = index.packages symbols := by
  simp only [packages, localize, List.filterMap_map]
  rfl

/-- Replacing owners in a universe twice is doing it once. -/
theorem localize_localize
    (index : ImportIndex)
    (symbols : Universe) :
    index.localize (index.localize symbols) = index.localize symbols := by
  rw [localize, packages_localize, localize, List.map_map]
  refine List.map_congr_left fun symbol _ => ?_
  have settled := ((MethodSet.localizable_exact (scannedIn (index.packages symbols))).settles
    symbol.methods).1
  exact congrArg (fun methods => { symbol with methods }) settled

/-- The symbols that are counted are those whose method set has changed. -/
theorem changedCount_eq
    (index : ImportIndex)
    (symbols : Universe)
    {changes : Symbol × Symbol → Bool}
    (tells : ∀ before after, changes (before, after) ↔ after.methods ≠ before.methods) :
    index.changedCount symbols = (symbols.zip (index.localize symbols)).countP changes := by
  rw [changedCount, localize, List.zip_eq_zipWith, List.zipWith_map_right, List.zipWith_self,
    List.countP_map, ← List.countP_eq_length_filter]
  refine List.countP_congr fun symbol _ => ?_
  have reported := (MethodSet.localizable_exact (scannedIn (index.packages symbols))).reports
    symbol.methods
  exact reported.trans (tells symbol (symbol.localize (scannedIn (index.packages symbols)))).symm

/--
Replacing the owners of scanned packages changes these owners, at every depth, and nothing else; it
is reported exactly when it changes something; what has been replaced stays as it is; identical
values stay identical, and satisfied method sets stay satisfied.  In a universe only method sets
are replaced, a second time nothing is, and the symbols that are counted are those that change.
-/
theorem localize_exact :
    (∀ scanned,
        Ty.localizable.Exact scanned ∧ Signature.localizable.Exact scanned ∧
          MethodSet.localizable.Exact scanned ∧
          ∀ set required : MethodSet, set.satisfies required →
            (set.localize scanned).satisfies (required.localize scanned)) ∧
      ∀ (index : ImportIndex) (symbols : Universe),
        List.Forall₂
            (fun before after : Symbol =>
              after =
                { before with
                  methods := before.methods.localize (scannedIn (index.packages symbols)) })
            symbols (index.localize symbols) ∧
          index.localize (index.localize symbols) = index.localize symbols ∧
          index.changedCount (index.localize symbols) = 0 ∧
          ∃ changes : Symbol × Symbol → Bool,
            (∀ before after, changes (before, after) ↔ after.methods ≠ before.methods) ∧
              index.changedCount symbols =
                (symbols.zip (index.localize symbols)).countP changes := by
  constructor
  · intro scanned
    exact ⟨Ty.localizable_exact scanned, Signature.localizable_exact scanned,
      MethodSet.localizable_exact scanned,
      fun _ _ satisfies => MethodSet.localize_satisfies scanned satisfies⟩
  · intro index symbols
    classical
    let changes : Symbol × Symbol → Bool := fun pair => pair.2.methods ≠ pair.1.methods
    have tells (before after : Symbol) :
        changes (before, after) ↔ after.methods ≠ before.methods := by
      simp [changes]
    refine ⟨?_, localize_localize index symbols, ?_, changes, tells,
      changedCount_eq index symbols tells⟩
    · exact List.forall₂_map_right_iff.mpr (List.forall₂_same.mpr fun _ _ => rfl)
    · have unchanged : ∀ pair ∈ (index.localize symbols).zip (index.localize symbols),
          ¬ changes pair := by
        rintro ⟨before, after⟩ member changed
        rw [List.zip_eq_zipWith, List.zipWith_self] at member
        obtain ⟨_, _, same⟩ := List.mem_map.mp member
        cases same
        exact (tells before before).mp changed rfl
      rw [changedCount_eq index (index.localize symbols) tells, localize_localize]
      exact List.countP_eq_zero.mpr unchanged

/-! ## An owner deep inside -/

namespace Buried

/-- The package `q` is scanned for its import path, and no other one is. -/
def scanned : ScannedPackages :=
  fun path => if path == "m/q" then some ⟨⟨"q"⟩, "q"⟩ else none

/-- A method set whose only method takes a map with channels of an owner's `T` inside. -/
def taking
    (owner : Owner)
    (more : List Method) :
    MethodSet :=
  .mk
    (.mk ⟨"M", none⟩
        (.mk
          [.map (.predeclared "string")
            (.struct [.mk "f" (.interface (.mk [.mk ⟨"Get", none⟩
              (.mk [] [.chan .both (.named owner "T" [])] false)])) false])]
          [] false) :: more)

/-- One method more. -/
def closing : Method :=
  .mk ⟨"Close", none⟩ (.mk [] [] false)

/-- Where an owner is replaced deep inside two sets, one of them still satisfies the other. -/
theorem localize_exact_buried :
    (taking (.imported "m/q") [closing]).satisfies (taking (.imported "m/q") []) ∧
      ((taking (.imported "m/q") [closing]).localize scanned).satisfies
        ((taking (.imported "m/q") []).localize scanned) ∧
      ((taking (.imported "m/q") []).localize scanned).occurrences =
        [(.predeclared, "string"), (.local ⟨⟨"q"⟩, "q"⟩, "T")] := by
  have satisfies : (taking (.imported "m/q") [closing]).satisfies (taking (.imported "m/q") []) := by
    decide +kernel
  exact ⟨satisfies, (localize_exact.1 scanned).2.2.2 _ _ satisfies, by decide +kernel⟩

end Buried

end ImportIndex

end Implementers
