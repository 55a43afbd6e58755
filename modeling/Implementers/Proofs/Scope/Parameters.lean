import Implementers.Proofs.Promotion.Inheritance

/-!
# Parameter lists

Whether an entry of a parameter list is a name or a type depends on its siblings: once an entry is
written with a name, the entries without one are names themselves and wait for the type of the next
entry.  This module says which types a list comes to, and when it is rejected.

Neither what stands in the place of a waiting name nor where an entry repeats is looked at.  So a
list may be variadic without ending in a slice, but some parameter of it is one.
-/

namespace Implementers

open Syntax (Param ParamList TypeExpr)

namespace Syntax.Param

/-- The type of a parameter, by the type that its entry names. -/
def taken
    (param : Param)
    (type : Ty) :
    Ty :=
  if param.variadic then .slice type else type

/-- Whether some entry of a list is written with a name. -/
def anyNamed
    (params : List Param) :
    Bool :=
  params.any fun param => param.name.isSome

/-- Whether the type of an entry counts: in a list with names, an entry without one is a name. -/
def counts
    (grouped : Bool)
    (param : Param) :
    Bool :=
  !(grouped && param.name.isNone)

/-- How many entries wait for a type at the end of a list, given how many wait before it. -/
def waiting
    (grouped : Bool) :
    Nat → List Param → Nat
  | pending, [] => pending
  | pending, param :: rest =>
      if param.counts grouped then waiting grouped 0 rest else waiting grouped (pending + 1) rest

/-- The types of the counted entries, each given to the entries that wait for it as well. -/
def spread
    (grouped : Bool) :
    Nat → List Param → List Ty → List Ty
  | _, [], _ => []
  | pending, param :: rest, types =>
      if param.counts grouped then
        match types with
        | [] => []
        | type :: others =>
            List.replicate (pending + 1) (param.taken type) ++ spread grouped 0 rest others
      else
        spread grouped (pending + 1) rest types

/-- No entry waits for a type exactly when the type of the last entry counts. -/
theorem waiting_eq_zero_iff
    {grouped : Bool}
    (params : List Param) :
    ∀ pending,
      waiting grouped pending params = 0 ↔
        (params = [] → pending = 0) ∧ ∀ last ∈ params.getLast?, last.counts grouped := by
  induction params with
  | nil => simp [waiting]
  | cons param rest inductionHypothesis =>
      intro pending
      cases rest with
      | nil => cases counted : param.counts grouped <;> simp [waiting, counted]
      | cons next later =>
          simp only [reduceCtorEq, false_imp_iff, true_and] at inductionHypothesis ⊢
          rw [waiting, List.getLast?_cons_cons]
          split <;> exact inductionHypothesis _

/--
Where nothing waits, every entry has a type, and it is that of the next entry that counts: there are
as many of these before it as before the entry itself.
-/
theorem getElem?_spread
    {grouped : Bool}
    (params : List Param) :
    ∀ {pending : Nat} {types : List Ty},
      types.length = (params.filter (counts grouped)).length →
      waiting grouped pending params = 0 →
      (spread grouped pending params types).length = pending + params.length ∧
        ∀ place < pending + params.length,
          (spread grouped pending params types)[place]? =
            (List.zipWith taken (params.filter (counts grouped)) types)[
              (params.take (place - pending)).countP (counts grouped)]? := by
  induction params with
  | nil =>
      intro pending types _ settled
      obtain rfl : pending = 0 := settled
      simp [spread]
  | cons param rest inductionHypothesis =>
      intro pending types lengths settled
      cases counted : param.counts grouped with
      | true =>
          simp only [waiting, counted, if_true] at settled
          simp only [List.filter_cons, counted, if_true, List.length_cons] at lengths ⊢
          obtain ⟨type, others, rfl⟩ := List.exists_cons_of_length_eq_add_one lengths
          obtain ⟨length, each⟩ := inductionHypothesis (Nat.succ.inj lengths) settled
          simp only [spread, counted, if_true]
          refine ⟨by simp [length]; omega, fun place before => ?_⟩
          rcases Nat.lt_or_ge place (pending + 1) with own | later
          · have first : place - pending = 0 := by omega
            simp [List.getElem?_append_left, own, first]
          · obtain ⟨further, rfl⟩ := Nat.exists_eq_add_of_le later
            have behind : pending + 1 + further - pending = further + 1 := by omega
            rw [List.getElem?_append_right (by simp), behind, List.take_succ_cons,
              List.countP_cons_of_pos counted, List.zipWith_cons_cons, List.getElem?_cons_succ]
            simpa using each further (by omega)
      | false =>
          simp only [waiting, counted, Bool.false_eq_true, if_false] at settled
          simp only [List.filter_cons, counted, Bool.false_eq_true, if_false, List.length_cons]
            at lengths ⊢
          obtain ⟨length, each⟩ := inductionHypothesis lengths settled
          simp only [spread, counted, Bool.false_eq_true, if_false]
          refine ⟨by omega, fun place before => ?_⟩
          rw [each place (by omega)]
          rcases Nat.lt_or_ge pending place with later | own
          · obtain ⟨further, rfl⟩ := Nat.exists_eq_add_of_le later
            have behind : pending + 1 + further - pending = further + 1 := by omega
            have past : pending + 1 + further - (pending + 1) = further := by omega
            rw [behind, past, List.take_succ_cons, List.countP_cons_of_neg (by simp [counted])]
          · simp [Nat.sub_eq_zero_of_le own, Nat.sub_eq_zero_of_le (Nat.le_succ_of_le own)]

/-- Every counted type is given to the entry that names it. -/
theorem subset_spread
    {grouped : Bool}
    (params : List Param) :
    ∀ {pending : Nat} {types : List Ty},
      List.zipWith taken (params.filter (counts grouped)) types ⊆
        spread grouped pending params types := by
  induction params with
  | nil => simp
  | cons param rest inductionHypothesis =>
      intro pending types
      cases counted : param.counts grouped with
      | false =>
          simp only [List.filter_cons, counted, spread, Bool.false_eq_true, if_false]
          exact inductionHypothesis
      | true =>
          cases types with
          | nil => simp
          | cons type others =>
              simp only [List.filter_cons, counted, spread, if_true, List.zipWith_cons_cons]
              refine List.cons_subset.mpr ⟨?_, List.subset_append_of_subset_right _
                inductionHypothesis⟩
              exact List.mem_append_left _ (by simp)

/-- The entries of a list whose types count. -/
def countedOf
    (params : List Param) :
    List Param :=
  params.filter (counts (anyNamed params))

/-- Whether the last entry of a list has a name if any entry has one. -/
def IsSettled
    (params : List Param) :
    Prop :=
  ∀ last ∈ params.getLast?, last.counts (anyNamed params)

/-- What the types of a list are, by the types that its counted entries name. -/
structure Groups
    (params : List Param)
    (named types : List Ty) :
    Prop where
  length : types.length = params.length
  /-- An entry has the type of the next entry that counts, of which as many stand before it. -/
  takes :
    ∀ place < params.length,
      types[place]? =
        (List.zipWith taken (countedOf params) named)[
          (params.take place).countP (counts (anyNamed params))]?
  /-- Where no entry has a name, the entries name their types one by one. -/
  plain : anyNamed params = false → types = List.zipWith taken params named
  /-- A list that repeats a parameter has a slice. -/
  repeats : (countedOf params).any variadic = true → ∃ elem, Ty.slice elem ∈ types
  /-- It ends in one if no entry but the last repeats. -/
  last :
    (∀ param ∈ params.dropLast, param.variadic = false) →
      (countedOf params).any variadic = true → ∃ elem, types.getLast? = some (.slice elem)

/-- Where no entry has a name, the type of every entry counts. -/
theorem countedOf_of_plain
    {params : List Param}
    (plain : anyNamed params = false) :
    countedOf params = params := by
  simp [countedOf, plain, counts]

/-- An entry that repeats makes a slice of the type that it names. -/
theorem getElem?_slice
    {params : List Param}
    {named : List Ty}
    (lengths : named.length = params.length)
    {place : Nat}
    {param : Param}
    (isThere : params[place]? = some param)
    (repeats : param.variadic = true) :
    ∃ elem, (List.zipWith taken params named)[place]? = some (.slice elem) := by
  have before : place < named.length := lengths ▸ (List.getElem?_eq_some_iff.mp isThere).1
  exact ⟨named[place], by simp [List.getElem?_zipWith, isThere, before, taken, repeats]⟩

/-- Where only the last entry may repeat and some counted entry does, it is the last one. -/
theorem getElem?_last
    {grouped : Bool}
    {params : List Param}
    (others : ∀ param ∈ params.dropLast, param.variadic = false)
    (repeats : (params.filter (counts grouped)).any variadic = true) :
    ∃ last, last.variadic = true ∧
      (params.filter (counts grouped))[
        (params.take (params.length - 1)).countP (counts grouped)]? = some last := by
  obtain ⟨last, isCounted, isVariadic⟩ := List.any_eq_true.mp repeats
  obtain ⟨member, counted⟩ := List.mem_filter.mp isCounted
  have nonempty : params ≠ [] := List.ne_nil_of_mem member
  have parts := List.dropLast_append_getLast nonempty
  obtain rfl : last = params.getLast nonempty := by
    rw [← parts] at member
    rcases List.mem_append.mp member with earlier | single
    · rw [others last earlier] at isVariadic
      cases isVariadic
    · exact List.mem_singleton.mp single
  refine ⟨_, isVariadic, ?_⟩
  rw [← List.dropLast_eq_take, List.countP_eq_length_filter]
  conv_lhs => rw [← parts]
  simp [List.filter_append, counted]

/-- The types of a settled list are grouped as its entries are. -/
theorem groups_spread
    {params : List Param}
    {named : List Ty}
    (lengths : named.length = (countedOf params).length)
    (settled : IsSettled params) :
    Groups params named (spread (anyNamed params) 0 params named) := by
  have nothingWaits : waiting (anyNamed params) 0 params = 0 :=
    (waiting_eq_zero_iff params 0).mpr ⟨fun _ => rfl, settled⟩
  obtain ⟨length, takes⟩ := getElem?_spread params lengths nothingWaits
  simp only [Nat.zero_add, Nat.sub_zero] at length takes
  refine ⟨length, takes, fun plain => ?_, fun repeats => ?_, fun others repeats => ?_⟩
  · have counted : countedOf params = params := countedOf_of_plain plain
    refine List.ext_getElem? fun place => ?_
    rcases Nat.lt_or_ge place params.length with before | behind
    · have each : (params.take place).countP (counts false) = (params.take place).length :=
        List.countP_eq_length.mpr fun _ _ => rfl
      have all : (params.take place).countP (counts (anyNamed params)) = place := by
        rw [plain, each, List.length_take_of_le (Nat.le_of_lt before)]
      rw [takes place before, all]
      exact congrArg (fun entries => (List.zipWith taken entries named)[place]?) counted
    · rw [List.getElem?_eq_none (length ▸ behind),
        List.getElem?_eq_none (by simp [lengths, counted, behind])]
  · obtain ⟨param, member, isVariadic⟩ := List.any_eq_true.mp repeats
    obtain ⟨place, isThere⟩ := List.getElem?_of_mem member
    obtain ⟨elem, isSlice⟩ := getElem?_slice lengths isThere isVariadic
    exact ⟨elem, subset_spread params (List.mem_of_getElem? isSlice)⟩
  · obtain ⟨last, isVariadic, isThere⟩ := getElem?_last others repeats
    obtain ⟨elem, isSlice⟩ := getElem?_slice lengths isThere isVariadic
    have nonempty : params ≠ [] := by
      rintro rfl
      cases repeats
    have isLast : params.length - 1 < params.length :=
      Nat.sub_lt (List.length_pos_of_ne_nil nonempty) Nat.one_pos
    exact ⟨elem, by rw [List.getLast?_eq_getElem?, length, takes _ isLast, ← isSlice, countedOf]⟩

end Syntax.Param

namespace Scope

variable
  (scope : Scope)
  (meaning : Meaning)
  (file : FileScope)

/-- Every type expression of a list comes to one type. -/
theorem length_lowerTypesWith
    (exprs : List TypeExpr) :
    ∀ {types : List Ty} {state after : ScopeState},
      scope.lowerTypesWith meaning file exprs state = (.ok types, after) →
        types.length = exprs.length := by
  induction exprs with
  | nil =>
      intro types state after answered
      cases answered
      rfl
  | cons expr rest inductionHypothesis =>
      intro types state after answered
      obtain ⟨type, middle, _, next⟩ := Resolve.andThen_ok answered
      obtain ⟨others, last, ran, returned⟩ := Resolve.andThen_ok next
      cases returned
      rw [List.length_cons, inductionHypothesis ran, List.length_cons]

/--
The entries of a list are lowered one by one where their types count, and only then is it looked at
whether one of them waits.
-/
theorem lowerParamsWith_eq
    (list : Syntax.Span)
    (grouped : Bool)
    (params : List Param) :
    ∀ pending,
      scope.lowerParamsWith meaning file list grouped pending params =
        (scope.lowerTypesWith meaning file
          ((params.filter (Param.counts grouped)).map Param.type)).andThen fun types =>
            if Param.waiting grouped pending params = 0 then
              .answer (Param.spread grouped pending params types,
                (params.filter (Param.counts grouped)).any Param.variadic)
            else
              .fail (.invalidSource (file.position list.start)
                "mixed named and unnamed parameters") := by
  induction params with
  | nil => exact fun _ => rfl
  | cons param rest inductionHypothesis =>
      intro pending
      obtain ⟨span, name, variadic, type⟩ := param
      cases counted : (Param.mk span name variadic type).counts grouped with
      | false =>
          have isName : (grouped && name.isNone) = true := by
            simpa [Param.counts, Param.name] using counted
          simp only [lowerParamsWith, isName, if_true, inductionHypothesis, Param.waiting,
            Param.spread, counted, Bool.false_eq_true, if_false, List.filter_cons]
      | true =>
          have isType : ¬(grouped && name.isNone) = true := by
            rw [Param.counts, Bool.not_eq_true'] at counted
            exact Bool.eq_false_iff.mp counted
          simp only [lowerParamsWith, if_neg isType, inductionHypothesis, Param.waiting,
            Param.spread, counted, if_true, List.filter_cons, List.map_cons, lowerTypesWith]
          funext state
          simp only [bind, Resolve.andThen, Param.type]
          cases scope.lowerTypeWith meaning file type state with
          | mk outcome middle =>
              cases outcome with
              | error _ => rfl
              | ok own =>
                  simp only
                  cases scope.lowerTypesWith meaning file
                      ((rest.filter (Param.counts grouped)).map Param.type) middle with
                  | mk outcome last =>
                      cases outcome with
                      | error _ => rfl
                      | ok others =>
                          by_cases settled : Param.waiting grouped 0 rest = 0 <;>
                            simp only [settled, if_true, if_false] <;> rfl

end Scope

/-! ## Variadic signatures -/

mutual

/-- Whether every variadic signature inside a type takes a slice. -/
def Ty.TakesSlices : Ty → Prop
  | .named _ _ args => Ty.AllTakeSlices args
  | .pointer elem => elem.TakesSlices
  | .slice elem => elem.TakesSlices
  | .array _ elem => elem.TakesSlices
  | .map key value => key.TakesSlices ∧ value.TakesSlices
  | .chan _ elem => elem.TakesSlices
  | .func signature => signature.TakesSlices
  | .struct fields => StructField.AllTakeSlices fields
  | .interface methods => methods.TakesSlices

/-- Whether every variadic signature inside the types of a list takes a slice. -/
def Ty.AllTakeSlices : List Ty → Prop
  | [] => True
  | first :: rest => first.TakesSlices ∧ Ty.AllTakeSlices rest

/-- Whether a signature takes a slice if it is variadic, as every one inside it does. -/
def Signature.TakesSlices : Signature → Prop
  | .mk params results variadic =>
      (variadic = true → ∃ elem, Ty.slice elem ∈ params) ∧
        Ty.AllTakeSlices params ∧ Ty.AllTakeSlices results

/-- Whether every variadic signature inside the fields of a list takes a slice. -/
def StructField.AllTakeSlices : List StructField → Prop
  | [] => True
  | .mk _ type _ :: rest => type.TakesSlices ∧ StructField.AllTakeSlices rest

/-- Whether every variadic signature inside the methods of a list takes a slice. -/
def Method.AllTakeSlices : List Method → Prop
  | [] => True
  | .mk _ signature :: rest => signature.TakesSlices ∧ Method.AllTakeSlices rest

/-- Whether every variadic signature inside a method set takes a slice. -/
def MethodSet.TakesSlices : MethodSet → Prop
  | .mk methods => Method.AllTakeSlices methods

end

theorem Ty.allTakeSlices_iff
    {types : List Ty} :
    Ty.AllTakeSlices types ↔ ∀ type ∈ types, type.TakesSlices := by
  induction types with
  | nil => simp [Ty.AllTakeSlices]
  | cons first rest inductionHypothesis => simp [Ty.AllTakeSlices, inductionHypothesis]

theorem StructField.allTakeSlices_iff
    {fields : List StructField} :
    StructField.AllTakeSlices fields ↔ ∀ field ∈ fields, field.type.TakesSlices := by
  induction fields with
  | nil => simp [StructField.AllTakeSlices]
  | cons first rest inductionHypothesis =>
      cases first
      simp [StructField.AllTakeSlices, inductionHypothesis, StructField.type]

theorem MethodSet.takesSlices_iff
    {set : MethodSet} :
    set.TakesSlices ↔ ∀ method ∈ set.methods, method.signature.TakesSlices := by
  obtain ⟨methods⟩ := set
  simp only [MethodSet.TakesSlices, MethodSet.methods]
  induction methods with
  | nil => simp [Method.AllTakeSlices]
  | cons first rest inductionHypothesis =>
      cases first
      simp [Method.AllTakeSlices, inductionHypothesis, Method.signature]

/-- After a method is put into a set, every signature is an old one or the new one. -/
theorem MethodSet.signature_of_mem_insert
    {set : MethodSet}
    {name : MethodName}
    {signature : Signature}
    {method : Method}
    (member : method ∈ (set.insert name signature).methods) :
    (∃ old ∈ set.methods, method.signature = old.signature) ∨ method.signature = signature := by
  rw [insert] at member
  split at member
  · exact signature_of_mem_replaceIn member
  · rcases List.mem_append.mp member with old | new
    · exact .inl ⟨method, old, rfl⟩
    · rw [List.mem_singleton.mp new]
      exact .inr rfl

/-- Types whose variadic signatures take slices are made of such types. -/
def slicing : Hereditary where
  type := Ty.TakesSlices
  signature := Signature.TakesSlices
  methods := MethodSet.TakesSlices
  named := Ty.allTakeSlices_iff.mpr
  pointer := id
  slice := id
  array := id
  map := And.intro
  chan := id
  func := id
  struct := StructField.allTakeSlices_iff.mpr
  interface := id
  made params results repeats :=
    ⟨repeats, Ty.allTakeSlices_iff.mpr params, Ty.allTakeSlices_iff.mpr results⟩
  empty := trivial
  insert name slices own := by
    refine MethodSet.takesSlices_iff.mpr fun method member => ?_
    rcases MethodSet.signature_of_mem_insert member with ⟨old, inSet, same⟩ | new
    · exact same ▸ MethodSet.takesSlices_iff.mp slices old inSet
    · exact new ▸ own
  held := MethodSet.takesSlices_iff.mp

/--
What becomes of a parameter list.  The types of the entries that count are lowered in order; the
first failure counts.  If all of them are found, the list is rejected when it is not settled, and
grouped otherwise.  In every signature that a package comes to, at any depth, a parameter that
repeats makes a slice.
-/
theorem Scope.lowerParamList_groups
    (scope : Scope)
    (meaning : Meaning)
    (file : FileScope)
    (span : Syntax.Span)
    (params : List Param)
    (state : ScopeState) :
    (let exprs := (Param.countedOf params).map Param.type
      let lowered := scope.lowerParamListWith meaning file (.list span params) state
      (∀ error after,
        scope.lowerTypesWith meaning file exprs state = (.error error, after) →
          lowered = (.error error, after)) ∧
      ∀ named after,
        scope.lowerTypesWith meaning file exprs state = (.ok named, after) →
          (Param.IsSettled params →
            ∃ types, Param.Groups params named types ∧
              lowered = (.ok (types, (Param.countedOf params).any Param.variadic), after)) ∧
          (¬Param.IsSettled params →
            lowered =
              (.error (.invalidSource (file.position span.start)
                "mixed named and unnamed parameters"), after))) ∧
      ∀ {package : PackageId} {files : List FileScope} {symbols : List Symbol}
        {warnings : List Warning},
        resolvePackage package files = .ok (symbols, warnings) →
          ∀ symbol ∈ symbols, symbol.methods.TakesSlices := by
  constructor
  · intro exprs lowered
    have isLowered :
        lowered =
          ((scope.lowerTypesWith meaning file exprs).andThen fun named =>
            if Param.waiting (Param.anyNamed params) 0 params = 0 then
              .answer (Param.spread (Param.anyNamed params) 0 params named,
                (Param.countedOf params).any Param.variadic)
            else
              .fail (.invalidSource (file.position span.start)
                "mixed named and unnamed parameters")) state :=
      congrFun (scope.lowerParamsWith_eq meaning file span (Param.anyNamed params) params 0) state
    have settled_iff : Param.waiting (Param.anyNamed params) 0 params = 0 ↔ Param.IsSettled params := by
      rw [Param.waiting_eq_zero_iff]
      exact and_iff_right fun _ => rfl
    constructor
    · intro error after failed
      rw [isLowered, Resolve.andThen, failed]
    · intro named after ran
      rw [Resolve.andThen, ran] at isLowered
      have lengths : named.length = (Param.countedOf params).length := by
        rw [scope.length_lowerTypesWith meaning file _ ran, List.length_map]
      constructor
      · intro settled
        refine ⟨_, Param.groups_spread lengths settled, isLowered.trans ?_⟩
        simp only [if_pos (settled_iff.mpr settled)]
        rfl
      · intro unsettled
        refine isLowered.trans ?_
        simp only [if_neg (unsettled ∘ settled_iff.mp)]
        rfl
  · intro package files symbols warnings resolved symbol member
    obtain ⟨scope, resolution, _, rfl, _⟩ := resolvePackage_ok resolved
    exact (slicing.of_resolution resolution).2.2 symbol member

/-! ## An entry that repeats before the last one -/

namespace Interposed

open Sketch (package)

/-- A file with a method that takes parameters. -/
def text
    (params : String) :
    String :=
  "package p\n\ntype T struct{}\n\nfunc (T) M(" ++ params ++ ") {}\n"

/-- The file of a text. -/
def file
    (params : String) :
    FileScope :=
  .ofSource 0 ⟨"p/a.go"⟩ (text params)
    (Syntax.SourceFile.ofTree (Syntax.Parse.ofText (text params)).tree)

/-- The entries `a, b int, c ...string`, where `a` is written as the type of a parameter. -/
def shared : List Param :=
  [ .mk ⟨11, 12⟩ none false (Sketch.named 11 "a"),
    .mk ⟨14, 19⟩ (some (Sketch.ident 14 "b")) false (Sketch.named 16 "int"),
    .mk ⟨21, 32⟩ (some (Sketch.ident 21 "c")) true (Sketch.named 26 "string")]

/-- A package without declarations. -/
def scope : Scope :=
  ⟨package, [], []⟩

/-- The name waits for the type of the next entry, and the list of the package has a slice. -/
theorem lowerParamList_groups_shared :
    (∃ types,
      Param.Groups shared [.predeclared "int", .predeclared "string"] types ∧
        scope.lowerParamListWith scope.declMeaning (Sketch.file [] []) (.list ⟨10, 33⟩ shared)
            .initial =
          (.ok (types, true), .initial)) ∧
      ∃ symbols warnings,
        resolvePackage package [file "a ...int, b int"] = .ok (symbols, warnings) ∧
          ∀ symbol ∈ symbols, symbol.methods.TakesSlices := by
  constructor
  · have named :
        scope.lowerTypesWith scope.declMeaning (Sketch.file [] [])
            ((Param.countedOf shared).map Param.type) .initial =
          (.ok [.predeclared "int", .predeclared "string"], .initial) := by
      rfl
    have settled : Param.IsSettled shared := by
      intro last isLast
      cases isLast
      rfl
    exact ((Scope.lowerParamList_groups scope _ _ ⟨10, 33⟩ shared _).1.2 _ _ named).1 settled
  · have resolves : (resolvePackage package [file "a ...int, b int"]).isOk = true := by
      decide +kernel
    obtain ⟨⟨symbols, warnings⟩, resolved⟩ := exists_ok_of_isOk resolves
    have slices :=
      (Scope.lowerParamList_groups scope scope.declMeaning (Sketch.file [] []) ⟨10, 33⟩ shared
        .initial).2 resolved
    exact ⟨symbols, warnings, resolved, slices⟩

/-- Whether a signature is variadic without ending in a slice. -/
def isInterposed
    (signature : Signature) :
    Bool :=
  signature.variadic &&
    match signature.params.getLast? with
    | some (.slice _) => false
    | _ => true

/--
A list is not rejected where an entry before the last one repeats, and its signature is variadic
without ending in a slice.  Nor is one rejected where an entry without a name, between entries with
names, is no name at all.
-/
theorem resolvePackage_interposed :
    ((Syntax.Parse.ofText (text "a ...int, b int")).errors = [] ∧
      ∃ symbols warnings,
        resolvePackage package [file "a ...int, b int"] = .ok (symbols, warnings) ∧
          ∃ symbol ∈ symbols, ∃ method ∈ symbol.methods.methods,
            method.signature.variadic = true ∧
              ¬∃ elem, method.signature.params.getLast? = some (.slice elem)) ∧
      (Syntax.Parse.ofText (text "a int, []string, b int")).errors = [] ∧
        (resolvePackage package [file "a int, []string, b int"]).isOk = true := by
  have parses :
      (Syntax.Parse.ofText (text "a ...int, b int")).errors.isEmpty = true ∧
        (Syntax.Parse.ofText (text "a int, []string, b int")).errors.isEmpty = true := by
    decide +kernel
  have mixed : (resolvePackage package [file "a int, []string, b int"]).isOk = true := by
    decide +kernel
  have shown :
      ((resolvePackage package [file "a ...int, b int"]).toOption.any fun answer =>
        answer.1.any fun symbol =>
          symbol.methods.methods.any fun method => isInterposed method.signature) = true := by
    decide +kernel
  refine ⟨⟨List.isEmpty_iff.mp parses.1, ?_⟩, List.isEmpty_iff.mp parses.2, mixed⟩
  cases resolved : resolvePackage package [file "a ...int, b int"] with
  | error _ =>
      rw [resolved] at shown
      cases shown
  | ok answer =>
      simp only [resolved, Except.toOption, Option.any_some, List.any_eq_true] at shown
      obtain ⟨symbol, member, method, inMethods, interposed⟩ := shown
      rw [isInterposed, Bool.and_eq_true] at interposed
      refine ⟨answer.1, answer.2, rfl, symbol, member, method, inMethods, interposed.1, ?_⟩
      rintro ⟨elem, isSlice⟩
      rw [isSlice] at interposed
      cases interposed.2

end Interposed

end Implementers
