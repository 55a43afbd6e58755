import Implementers.Proofs.Order.Pairing
import Implementers.Proofs.Scope.Collection

/-!
# Questions in another order

Questions about a package may be asked in any order.  Once one has been answered, its answer is
settled: in every later state it is answered alike and nothing new is remembered.  So whatever a run
has answered is known at the end, however the questions were ordered, and a question that can be
answered before certain others can be answered after them as well.  Only the first question is left
without help, which is why a question that can come first can come anywhere.
-/

namespace Implementers

/-- A question whose answer is settled: every later state agrees, and remembers nothing new. -/
def ScopeState.Settles
    (scope : Scope)
    (agree : α → α → Prop)
    (state : ScopeState)
    (question : Resolve α)
    (value : α) :
    Prop :=
  ∀ later, later.Ahead scope state →
    ∃ other after,
      question later = (.ok other, after) ∧ agree value other ∧ after.finished = later.finished

section Settled

variable
  {scope : Scope}
  {agree : α → α → Prop}

/-- What is settled stays settled. -/
theorem ScopeState.Settles.later
    {state later : ScopeState}
    {question : Resolve α}
    {value : α}
    (settles : state.Settles scope agree question value)
    (isAhead : later.Ahead scope state) :
    later.Settles scope agree question value :=
  fun latest latestAhead => settles latest (latestAhead.trans isAhead)

/-- An answer is settled once it is given. -/
theorem Eager.settles
    {question : Resolve α}
    (eager : Eager scope agree question question)
    {state after : ScopeState}
    {value : α}
    (coherent : state.Coherent scope)
    (answered : question state = (.ok value, after)) :
    after.Settles scope agree question value := by
  intro later isAhead
  obtain ⟨steady, afterCoherent⟩ := eager.steady coherent answered
  have aheadOfState := isAhead.trans (steady.ahead coherent afterCoherent)
  obtain ⟨_, other, last, ran, agrees, _, unchanged⟩ := eager _ _ _ _ aheadOfState answered
  exact ⟨other, last, ran, agrees, unchanged isAhead.covers⟩

/-- An answer that adds nothing to a state was settled there already. -/
theorem Eager.settles_of_unchanged
    {question : Resolve α}
    (eager : Eager scope agree question question)
    {state after : ScopeState}
    {value : α}
    (coherent : state.Coherent scope)
    (answered : question state = (.ok value, after))
    (unchanged : after.finished = state.finished) :
    state.Settles scope agree question value := by
  obtain ⟨steady, afterCoherent⟩ := eager.steady coherent answered
  have covers : state.Covers after :=
    (ScopeState.Covers.refl state).of_finished_eq rfl unchanged
  exact (eager.settles coherent answered).later
    ⟨coherent, afterCoherent, covers, fun _ => (steady.inProgress ▸ ·),
      fun _ => (steady.expanding ▸ ·)⟩

/--
A state that has settled a question and is ahead of another state stays ahead of it when the
question is asked there.
-/
theorem Eager.ahead_of_settles
    {question : Resolve α}
    (eager : Eager scope agree question question)
    {state after ahead : ScopeState}
    {value settled : α}
    (isAhead : ahead.Ahead scope state)
    (settles : ahead.Settles scope agree question settled)
    (answered : question state = (.ok value, after)) :
    ahead.Ahead scope after := by
  obtain ⟨steady, _, aheadAfter, ran, _, afterAhead, _⟩ := eager _ _ _ _ isAhead answered
  obtain ⟨_, last, ranAgain, _, unchanged⟩ := settles ahead isAhead.aheadCoherent.ahead
  rw [ran] at ranAgain
  cases ranAgain
  exact ⟨isAhead.aheadCoherent, afterAhead.behindCoherent,
    afterAhead.covers.of_finished_eq unchanged.symm rfl,
    by rw [steady.inProgress]; exact isAhead.inProgress,
    by rw [steady.expanding]; exact isAhead.expanding⟩

end Settled

section Inquiry

variable
  {scope : Scope}
  {agree : α → α → Prop}
  {ask : ι → Resolve α}
  (eager : ∀ question, Eager scope agree (ask question) (ask question))

include eager

/-- All answers of a run are settled at its end. -/
theorem settles_of_askAll
    {questions : List ι}
    {state after : ScopeState}
    {values : List α}
    (coherent : state.Coherent scope)
    (answered : Resolve.askAll ask questions state = (.ok values, after)) :
    after.Ahead scope state ∧
      List.Forall₂ (fun question value => after.Settles scope agree (ask question) value)
        questions values := by
  obtain ⟨steady, afterCoherent, asked⟩ := asked_of_askAll eager questions coherent answered
  refine ⟨steady.ahead coherent afterCoherent, asked.imp fun question value askedOne => ?_⟩
  obtain ⟨before, between, ran, beforeCoherent, betweenCoherent, _, steadyAfter⟩ := askedOne.between
  exact ((eager question).settles beforeCoherent ran).later
    (steadyAfter.ahead betweenCoherent afterCoherent)

/-- A state that has settled all questions stays ahead of a run that asks them. -/
theorem ahead_of_askAll
    (questions : List ι) :
    ∀ {state after ahead : ScopeState} {values : List α},
      ahead.Ahead scope state →
      (∀ question ∈ questions, ∃ value, ahead.Settles scope agree (ask question) value) →
      Resolve.askAll ask questions state = (.ok values, after) →
      ahead.Ahead scope after := by
  induction questions with
  | nil =>
      intro state after ahead values isAhead _ answered
      cases answered
      exact isAhead
  | cons question rest inductionHypothesis =>
      intro state after ahead values isAhead settled answered
      obtain ⟨own, others, middle, ran, ranRest, rfl⟩ := Resolve.askAll_cons_ok.mp answered
      obtain ⟨_, settles⟩ := settled question List.mem_cons_self
      exact inductionHypothesis ((eager question).ahead_of_settles isAhead settles ran)
        (fun other member => settled other (List.mem_cons_of_mem _ member)) ranRest

/-- Questions that can each be answered in a state can all be answered in a state ahead of it. -/
theorem askAll_of_each
    (questions : List ι) :
    ∀ {state ahead : ScopeState},
      ahead.Ahead scope state →
      (∀ question ∈ questions, ∃ value after, ask question state = (.ok value, after)) →
      ∃ values after, Resolve.askAll ask questions ahead = (.ok values, after) := by
  induction questions with
  | nil =>
      intro state ahead _ _
      exact ⟨[], ahead, rfl⟩
  | cons question rest inductionHypothesis =>
      intro state ahead isAhead each
      obtain ⟨value, middle, ran⟩ := each question List.mem_cons_self
      obtain ⟨steady, own, aheadMiddle, aheadRan, _, middleAhead, _⟩ :=
        eager question _ _ _ _ isAhead ran
      have stillAhead :=
        middleAhead.trans (steady.ahead isAhead.behindCoherent middleAhead.behindCoherent)
      obtain ⟨others, after, ranRest⟩ := inductionHypothesis stillAhead
        fun other member => each other (List.mem_cons_of_mem _ member)
      exact ⟨own :: others, after,
        Resolve.askAll_cons_ok.mpr ⟨own, others, aheadMiddle, aheadRan, ranRest, rfl⟩⟩

/-- Settled questions can be asked again, and nothing new is remembered. -/
theorem askAll_of_settles
    (questions : List ι) :
    ∀ {state ahead : ScopeState},
      ahead.Ahead scope state →
      (∀ question ∈ questions, ∃ value, state.Settles scope agree (ask question) value) →
      ∃ values after,
        Resolve.askAll ask questions ahead = (.ok values, after) ∧
          after.finished = ahead.finished := by
  induction questions with
  | nil =>
      intro state ahead _ _
      exact ⟨[], ahead, rfl, rfl⟩
  | cons question rest inductionHypothesis =>
      intro state ahead isAhead settled
      obtain ⟨_, settles⟩ := settled question List.mem_cons_self
      obtain ⟨own, middle, ran, _, unchanged⟩ := settles ahead isAhead
      obtain ⟨steady, middleCoherent⟩ := (eager question).steady isAhead.aheadCoherent ran
      obtain ⟨others, after, ranRest, unchangedRest⟩ :=
        inductionHypothesis ((steady.ahead isAhead.aheadCoherent middleCoherent).trans isAhead)
          fun other member => settled other (List.mem_cons_of_mem _ member)
      exact ⟨own :: others, after,
        Resolve.askAll_cons_ok.mpr ⟨own, others, middle, ran, ranRest, rfl⟩,
        unchangedRest.trans unchanged⟩

/--
Questions in groups, where the order of the groups is fixed.  If each question can be answered right
after the groups before its own, then all of them can be answered, in any order within the groups.
-/
theorem askAll_of_fronted
    {groups arranged : List (List ι)}
    (rearranged : List.Forall₂ List.Perm groups arranged) :
    ∀ {state ahead : ScopeState},
      ahead.Ahead scope state →
      (∀ earlier group later question,
        groups = earlier ++ group :: later → question ∈ group →
          ∃ values after,
            Resolve.askAll ask (earlier.flatten ++ [question]) state = (.ok values, after)) →
      ∃ values after, Resolve.askAll ask arranged.flatten ahead = (.ok values, after) := by
  induction rearranged with
  | nil =>
      intro state ahead _ _
      exact ⟨[], ahead, rfl⟩
  | @cons group arrangedGroup rest arrangedRest perm _ inductionHypothesis =>
      intro state ahead isAhead fronted
      have each : ∀ question ∈ group, ∃ value after, ask question state = (.ok value, after) := by
        intro question member
        obtain ⟨_, _, answered⟩ := fronted [] group rest question rfl member
        obtain ⟨value, _, after, ran, _, _⟩ := Resolve.askAll_cons_ok.mp answered
        exact ⟨value, after, ran⟩
      obtain ⟨original, middle, ran⟩ :=
        askAll_of_each eager group isAhead.behindCoherent.ahead each
      obtain ⟨own, aheadMiddle, aheadRan⟩ :=
        askAll_of_each eager arrangedGroup isAhead fun question member =>
          each question (perm.mem_iff.mpr member)
      -- The arranged group knows whatever the group knows, since it has settled the same questions.
      obtain ⟨middleAhead, settled⟩ :=
        settles_of_askAll eager isAhead.aheadCoherent aheadRan
      have allSettled : ∀ question ∈ group,
          ∃ value, aheadMiddle.Settles scope agree (ask question) value := by
        intro question member
        obtain ⟨value, _, settles⟩ :=
          exists_related_right settled (perm.mem_iff.mp member)
        exact ⟨value, settles⟩
      have stillAhead := ahead_of_askAll eager group (middleAhead.trans isAhead) allSettled ran
      obtain ⟨others, after, ranRest⟩ := inductionHypothesis stillAhead (by
        intro earlier next later question split member
        obtain ⟨_, _, answered⟩ :=
          fronted (group :: earlier) next later question (by rw [split]; rfl) member
        rw [List.flatten_cons, List.append_assoc] at answered
        obtain ⟨_, others, between, ranGroup, ranOthers, _⟩ :=
          Resolve.askAll_append_ok.mp answered
        rw [ran] at ranGroup
        cases ranGroup
        exact ⟨others, _, ranOthers⟩)
      exact ⟨own ++ others, after,
        Resolve.askAll_append_ok.mpr ⟨own, others, aheadMiddle, aheadRan, ranRest, rfl⟩⟩

section Permuted

variable
  {questions arranged : List ι}
  {state after after' : ScopeState}
  {values values' : List α}
  (perm : questions.Perm arranged)
  (coherent : state.Coherent scope)
  (answered : Resolve.askAll ask questions state = (.ok values, after))
  (answered' : Resolve.askAll ask arranged state = (.ok values', after'))

include perm coherent answered answered'

/-- Runs over the same questions know the same at the end. -/
theorem ahead_of_perm :
    after.Ahead scope after' := by
  obtain ⟨isAhead, settled⟩ := settles_of_askAll eager coherent answered
  refine ahead_of_askAll eager arranged isAhead ?_ answered'
  intro question member
  obtain ⟨value, _, settles⟩ := exists_related_right settled (perm.mem_iff.mpr member)
  exact ⟨value, settles⟩

/-- Runs over the same questions come to agreeing answers. -/
theorem paired_of_perm :
    Paired (fun value value' => ∃ common, agree value common ∧ agree value' common)
      values values' := by
  obtain ⟨_, settled⟩ := settles_of_askAll eager coherent answered
  obtain ⟨_, settled'⟩ := settles_of_askAll eager coherent answered'
  have isAhead := ahead_of_perm eager perm coherent answered answered'
  -- Both answers agree with the one that is given at the end of the first run.
  refine (Paired.of_forall₂ settled).symm.trans
    ((Paired.of_perm perm).trans (Paired.of_forall₂ settled') fun _ _ _ same settles =>
      same ▸ settles) fun value question value' settles settles' => ?_
  obtain ⟨common, _, ran, agrees, _⟩ := settles after isAhead.aheadCoherent.ahead
  obtain ⟨common', _, ran', agrees', _⟩ := settles' after isAhead
  rw [ran] at ran'
  cases ran'
  exact ⟨common, agrees, agrees'⟩

end Permuted

end Inquiry

end Implementers
