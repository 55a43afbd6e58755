import Implementers.Proofs.Scope.Questions

/-!
# Asking one question after another

The symbols of a package are collected by asking about its declarations and receivers one after
another.  Each question is asked in a state that has forgotten nothing of the states before it, and
the state at the end has forgotten nothing of what the question found.
-/

namespace Implementers

/-- An entry of one list has a related entry in the other. -/
theorem exists_related_right
    {related : α → β → Prop}
    {left : List α}
    {right : List β}
    (pairs : List.Forall₂ related left right)
    {entry : α}
    (member : entry ∈ left) :
    ∃ other ∈ right, related entry other := by
  induction pairs with
  | nil => cases member
  | cons head _ inductionHypothesis =>
      rcases List.mem_cons.mp member with rfl | inRest
      · exact ⟨_, List.mem_cons_self, head⟩
      · obtain ⟨other, otherMember, relates⟩ := inductionHypothesis inRest
        exact ⟨other, List.mem_cons_of_mem _ otherMember, relates⟩

/-- An entry of the other list has a related entry in the one. -/
theorem exists_related_left
    {related : α → β → Prop}
    {left : List α}
    {right : List β}
    (pairs : List.Forall₂ related left right)
    {other : β}
    (member : other ∈ right) :
    ∃ entry ∈ left, related entry other :=
  exists_related_right pairs.flip member

namespace Resolve

/-- The answers to questions in the order of the questions. -/
def askAll
    (ask : ι → Resolve α) :
    List ι → Resolve (List α)
  | [] => .answer []
  | question :: rest =>
      (ask question).andThen fun own =>
        (askAll ask rest).andThen fun others => .answer (own :: others)

variable
  {ask : ι → Resolve α}
  {state after : ScopeState}
  {values : List α}

theorem askAll_cons_ok
    {question : ι}
    {rest : List ι} :
    askAll ask (question :: rest) state = (.ok values, after) ↔
      ∃ own others middle,
        ask question state = (.ok own, middle) ∧
          askAll ask rest middle = (.ok others, after) ∧ values = own :: others := by
  constructor
  · intro answered
    obtain ⟨own, middle, ran, answeredRest⟩ := andThen_ok answered
    obtain ⟨others, last, ranRest, returned⟩ := andThen_ok answeredRest
    cases returned
    exact ⟨own, others, middle, ran, ranRest, rfl⟩
  · rintro ⟨own, others, middle, ran, ranRest, rfl⟩
    simp only [askAll, andThen, ran, ranRest, answer]

/-- Questions before others are answered before them. -/
theorem askAll_append_ok
    {earlier later : List ι} :
    askAll ask (earlier ++ later) state = (.ok values, after) ↔
      ∃ first second middle,
        askAll ask earlier state = (.ok first, middle) ∧
          askAll ask later middle = (.ok second, after) ∧ values = first ++ second := by
  induction earlier generalizing state values with
  | nil =>
      constructor
      · intro answered
        exact ⟨[], values, state, rfl, answered, rfl⟩
      · rintro ⟨_, second, _, ran, answered, rfl⟩
        cases ran
        exact answered
  | cons question rest inductionHypothesis =>
      simp only [List.cons_append, askAll_cons_ok, inductionHypothesis]
      constructor
      · rintro ⟨own, _, next, ran, ⟨first, second, middle, ranRest, ranLater, rfl⟩, rfl⟩
        exact ⟨own :: first, second, middle, ⟨own, first, next, ran, ranRest, rfl⟩, ranLater, rfl⟩
      · rintro ⟨_, second, middle, ⟨own, first, next, ran, ranRest, rfl⟩, ranLater, rfl⟩
        exact ⟨own, first ++ second, next, ran, ⟨first, second, middle, ranRest, ranLater, rfl⟩,
          rfl⟩

/-- The answers to questions that may have one, in the order of the questions. -/
def collect
    (ask : ι → Resolve (Option α)) :
    List ι → Resolve (List α)
  | [] => .answer []
  | question :: rest =>
      (ask question).andThen fun own =>
        (collect ask rest).andThen fun others => .answer (own.toList ++ others)

/-- Collecting answers asks all questions. -/
theorem collect_ok
    {ask : ι → Resolve (Option α)}
    {questions : List ι} :
    collect ask questions state = (.ok values, after) ↔
      ∃ answers,
        askAll ask questions state = (.ok answers, after) ∧
          values = answers.flatMap Option.toList := by
  induction questions generalizing state values with
  | nil =>
      constructor
      · intro answered
        cases answered
        exact ⟨[], rfl, rfl⟩
      · rintro ⟨_, answered, rfl⟩
        cases answered
        rfl
  | cons question rest inductionHypothesis =>
      simp only [askAll_cons_ok]
      constructor
      · intro answered
        obtain ⟨own, middle, ran, answeredRest⟩ := andThen_ok answered
        obtain ⟨others, last, ranRest, returned⟩ := andThen_ok answeredRest
        cases returned
        obtain ⟨answers, asked, rfl⟩ := inductionHypothesis.mp ranRest
        exact ⟨own :: answers, ⟨own, answers, middle, ran, asked, rfl⟩, rfl⟩
      · rintro ⟨_, ⟨own, answers, middle, ran, asked, rfl⟩, rfl⟩
        have answeredRest := inductionHypothesis.mpr ⟨answers, asked, rfl⟩
        simp only [collect, andThen, ran, answeredRest, answer]
        rfl

end Resolve

namespace Scope

/-- The symbols of declarations are collected one by one. -/
theorem declSymbols_eq_collect
    (scope : Scope)
    (table : MethodTable)
    (decls : List TypeDecl) :
    scope.declSymbols table decls = Resolve.collect (scope.declSymbol? table) decls := by
  induction decls with
  | nil => rfl
  | cons decl rest inductionHypothesis =>
      simp only [Resolve.collect, ← inductionHypothesis]
      rfl

/-- The symbols of named receivers are collected one by one. -/
theorem siteSymbols_eq_collect
    (scope : Scope)
    (table : MethodTable)
    (sites : List ReceiverSite) :
    scope.siteSymbols table sites = Resolve.collect (scope.siteSymbol? table) sites := by
  induction sites with
  | nil => rfl
  | cons site rest inductionHypothesis =>
      simp only [Resolve.collect, ← inductionHypothesis]
      rfl

end Scope

/-- Questions about the same source text are related one by one. -/
theorem Congruence.askAll
    (congruence : Congruence)
    {agree : α → β → Prop}
    {ask : ι → Resolve α}
    {ask' : κ → Resolve β}
    {place : ι → κ}
    (related : ∀ question, congruence.Related agree (ask question) (ask' (place question)))
    (questions : List ι) :
    congruence.Related (List.Forall₂ agree)
      (Resolve.askAll ask questions)
      (Resolve.askAll ask' (questions.map place)) := by
  induction questions with
  | nil => exact congruence.answer .nil
  | cons question rest inductionHypothesis =>
      apply congruence.andThen (related question)
      intro _ _ agrees
      exact congruence.map inductionHypothesis fun _ _ agreeRest => .cons agrees agreeRest

/-- A question that is answered on the way from one state to another. -/
structure Asked
    (scope : Scope)
    (first last : ScopeState)
    (ask : ι → Resolve α)
    (question : ι)
    (value : α) :
    Prop where
  between :
    ∃ before after, ask question before = (.ok value, after) ∧ before.Coherent scope ∧
      after.Coherent scope ∧ first.Steady before ∧ after.Steady last

/-- A question that was asked on a part of the way was asked on the whole way. -/
theorem Asked.extend
    {scope : Scope}
    {first first' last last' : ScopeState}
    {ask : ι → Resolve α}
    {question : ι}
    {value : α}
    (asked : Asked scope first last ask question value)
    (earlier : first'.Steady first)
    (later : last.Steady last') :
    Asked scope first' last' ask question value := by
  obtain ⟨before, after, answered, beforeCoherent, afterCoherent, start, stop⟩ := asked.between
  exact ⟨before, after, answered, beforeCoherent, afterCoherent, earlier.trans start,
    stop.trans later⟩

/-- Answers are given on the way that asking takes. -/
theorem asked_of_askAll
    {scope : Scope}
    {agree : α → α → Prop}
    {ask : ι → Resolve α}
    (eager : ∀ question, Eager scope agree (ask question) (ask question))
    (questions : List ι) :
    ∀ {state after : ScopeState} {answers : List α},
      state.Coherent scope →
      Resolve.askAll ask questions state = (.ok answers, after) →
      state.Steady after ∧ after.Coherent scope ∧
        List.Forall₂ (Asked scope state after ask) questions answers := by
  induction questions with
  | nil =>
      intro state after answers coherent answered
      cases answered
      exact ⟨.refl state, coherent, .nil⟩
  | cons question rest inductionHypothesis =>
      intro state after answers coherent answered
      obtain ⟨own, others, middle, ran, ranRest, rfl⟩ := Resolve.askAll_cons_ok.mp answered
      obtain ⟨steady, middleCoherent⟩ := (eager question).steady coherent ran
      obtain ⟨steadyRest, afterCoherent, asked⟩ := inductionHypothesis middleCoherent ranRest
      refine ⟨steady.trans steadyRest, afterCoherent, .cons ?_ ?_⟩
      · exact ⟨state, middle, ran, coherent, middleCoherent, .refl state, steadyRest⟩
      · exact asked.imp fun _ _ askedOne => askedOne.extend steady (.refl _)

/-- A method table corresponds to itself. -/
theorem MethodTable.Corresponds.refl
    (table : MethodTable) :
    table.Corresponds table :=
  ⟨rfl, List.forall₂_same.mpr fun _ _ => ⟨rfl, rfl⟩⟩

namespace Congruence

section InPlace

variable
  (congruence : Congruence)
  {scope : Scope}
  (agreement : congruence.Agreement .stay scope scope.declMeaning scope.declMeaning)
  (table : MethodTable)

include agreement

/-- The symbol that a declaration makes in its place. -/
theorem declSymbol?_stay
    (decl : TypeDecl) :
    congruence.Related PlacedSymbol.Corresponds
      (scope.declSymbol? table decl) (scope.declSymbol? table decl) := by
  have related := congruence.declSymbol? (.stay scope) agreement table table decl
  rwa [Relocation.stay_decl] at related

/-- The symbol that a named receiver makes in its place. -/
theorem siteSymbol?_stay
    (site : ReceiverSite) :
    congruence.Related PlacedSymbol.Corresponds
      (scope.siteSymbol? table site) (scope.siteSymbol? table site) :=
  congruence.siteSymbol? (.stay scope) agreement table table (⟨rfl, rfl⟩ : site.Corresponds site)

/-- The method that a function declaration declares in its place. -/
theorem addMethodDecl_stay
    (func : FileScope × Syntax.FuncDecl) :
    congruence.Related MethodTable.Corresponds
      (scope.addMethodDecl func.1 table func.2) (scope.addMethodDecl func.1 table func.2) := by
  have related := congruence.addMethodDecl (.stay scope) agreement func.1 (.refl table) func.2
  rwa [Relocation.stay_span, func.2.moved_id] at related

/-- The methods that function declarations declare in their places. -/
theorem addMethodDecls_stay
    (funcs : List (FileScope × Syntax.FuncDecl)) :
    congruence.Related MethodTable.Corresponds
      (scope.addMethodDecls table funcs) (scope.addMethodDecls table funcs) := by
  have related := congruence.addMethodDecls (.stay scope) agreement funcs (.refl table)
  have inPlace :
      (funcs.map fun func => (Relocation.stay.file func.1, func.2.moved Relocation.stay.span)) =
        funcs := by
    refine (List.map_congr_left fun func _ => ?_).trans (List.map_id funcs)
    exact Prod.ext rfl func.2.moved_id
  rw [inPlace] at related
  exact related

end InPlace

end Congruence

namespace Scope

variable
  (scope : Scope)
  (table : MethodTable)

/-- Declared types are asked about eagerly. -/
theorem eager_declSymbol?
    (decl : TypeDecl) :
    Eager scope PlacedSymbol.Corresponds
      (scope.declSymbol? table decl) (scope.declSymbol? table decl) :=
  (hastening scope).declSymbol?_stay (hastening_meaning scope _) table decl

/-- Named receivers are asked about eagerly. -/
theorem eager_siteSymbol?
    (site : ReceiverSite) :
    Eager scope PlacedSymbol.Corresponds
      (scope.siteSymbol? table site) (scope.siteSymbol? table site) :=
  (hastening scope).siteSymbol?_stay (hastening_meaning scope _) table site

/-- Function declarations are asked about eagerly. -/
theorem eager_addMethodDecl
    (func : FileScope × Syntax.FuncDecl) :
    Eager scope MethodTable.Corresponds
      (scope.addMethodDecl func.1 table func.2) (scope.addMethodDecl func.1 table func.2) :=
  (hastening scope).addMethodDecl_stay (hastening_meaning scope _) table func

/-- The method table of a package is asked for eagerly. -/
theorem eager_addMethodDecls
    (funcs : List (FileScope × Syntax.FuncDecl)) :
    Eager scope MethodTable.Corresponds
      (scope.addMethodDecls table funcs) (scope.addMethodDecls table funcs) :=
  (hastening scope).addMethodDecls_stay (hastening_meaning scope _) table funcs

end Scope

end Implementers
