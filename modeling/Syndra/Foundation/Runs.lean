/-
Runs of a computed transition function.

A step takes a state and an action. It either refuses the action or returns the next state.
A run performs a list of actions in order and stops at a refusal.
-/

import Mathlib.Logic.Basic

namespace Syndra.Foundation.Runs

variable {State Action : Type*}

def run (step : State → Action → Option State) : State → List Action → Option State
  | state, [] => some state
  | state, action :: rest =>
    match step state action with
    | none => none
    | some next => run step next rest

/-- Each action meets the condition in the state it is taken from. Nothing is
asked of the actions after a refused one. -/
def Throughout (step : State → Action → Option State)
    (meets : State → Action → Prop) : State → List Action → Prop
  | _, [] => True
  | state, action :: rest =>
    meets state action ∧ match step state action with
      | none => True
      | some next => Throughout step meets next rest

instance Throughout.decidable (step : State → Action → Option State)
    (meets : State → Action → Prop) [∀ state action,Decidable (meets state action)] :
    (state : State) → (actions : List Action) → Decidable (Throughout step meets state actions)
  | _, [] => isTrue trivial
  | state, action :: rest =>
    @instDecidableAnd _ _ inferInstance
      (match step state action with
      | none => isTrue trivial
      | some next => Throughout.decidable step meets next rest)

variable {step : State → Action → Option State}

theorem Throughout.and {first second : State → Action → Prop} :
    ∀ {state : State} {actions : List Action}, Throughout step first state actions →
      Throughout step second state actions →
        Throughout step (fun here action => first here action ∧ second here action) state actions
  | _, [], _, _ => trivial
  | state, action :: rest, one, two => by
      refine ⟨⟨one.1,two.1⟩,?_⟩
      have later := one.2
      have later' := two.2
      cases taken : step state action with
      | none => trivial
      | some next =>
        rw [taken] at later later'
        exact later.and later'

variable {meets : State → Action → Prop} {actions : List Action} {initial final : State}

/-- The invariant rule: one obligation for a step gives every run. -/
theorem run_invariant (Holds : State → Prop)
    (kept : ∀ {state action next}, Holds state → meets state action →
      step state action = some next → Holds next)
    (holds : Holds initial) (always : Throughout step meets initial actions)
    (reached : run step initial actions = some final) : Holds final := by
  induction actions generalizing initial with
  | nil =>
    cases reached
    exact holds
  | cons action _ ih =>
    obtain ⟨meetsHere,later⟩ := always
    simp only [run] at reached
    cases taken : step initial action with
    | none =>
      rw [taken] at reached
      cases reached
    | some next =>
      rw [taken] at reached later
      exact ih (kept holds meetsHere taken) later reached

theorem run_keeps (Holds : State → Prop)
    (kept : ∀ {state action next}, Holds state → step state action = some next → Holds next)
    (holds : Holds initial)
    (reached : run step initial actions = some final) : Holds final := by
  have always : ∀ state, Throughout step (fun _ _ => True) state actions := by
    clear reached
    induction actions with
    | nil => exact fun _ => trivial
    | cons action _ ih =>
      intro state
      refine ⟨trivial,?_⟩
      cases step state action with
      | none => trivial
      | some next => exact ih next
  exact run_invariant Holds (fun holds _ => kept holds) holds (always initial) reached

theorem foldlM_keeps {Record Item Refusal : Type} {step : Record → Item → Except Refusal Record}
    (Holds : Record → Prop)
    (kept : ∀ {state item next}, Holds state → step state item = .ok next → Holds next)
    {items : List Item} {initial final : Record} (holds : Holds initial)
    (reached : items.foldlM step initial = .ok final) : Holds final := by
  induction items generalizing initial with
  | nil =>
    cases reached
    exact holds
  | cons item _ ih =>
    rw [List.foldlM_cons] at reached
    cases taken : step initial item with
    | error =>
      rw [taken] at reached
      cases reached
    | ok next =>
      rw [taken] at reached
      exact ih (kept holds taken) reached

/-- Its safety form: where every state of an invariant and every step that meets
the condition give a fact about the step, the fact holds throughout. -/
theorem throughout_of_invariant {safe : State → Action → Prop} (Holds : State → Prop)
    (kept : ∀ {state action next}, Holds state → meets state action →
      step state action = some next → Holds next)
    (gives : ∀ {state action}, Holds state → meets state action → safe state action)
    (holds : Holds initial)
    (always : Throughout step meets initial actions) : Throughout step safe initial actions := by
  induction actions generalizing initial with
  | nil => trivial
  | cons action _ ih =>
    obtain ⟨meetsHere,later⟩ := always
    refine ⟨gives holds meetsHere,?_⟩
    cases taken : step initial action with
    | none => trivial
    | some next =>
      rw [taken] at later
      exact ih (kept holds meetsHere taken) later

section Reached

variable {reached : Option State} {One Two Also : State → Prop} [DecidablePred One]

/-- A run of given actions is evaluated: where it ends and what holds there. -/
theorem exists_reached (ran : (reached.any fun final => One final) = true) :
    ∃ final, reached = some final ∧ One final := by
  obtain ⟨final,same,holds⟩ := (Option.any_eq_true _ _).mp ran
  exact ⟨final,same,of_decide_eq_true holds⟩

theorem exists_reached_and (ran : (reached.any fun final => One final) = true)
    (also : ∀ final, reached = some final → One final → Also final) :
    ∃ final, reached = some final ∧ One final ∧ Also final := by
  obtain ⟨final,same,one⟩ := exists_reached ran
  exact ⟨final,same,one,also final same one⟩

theorem exists_reached_both [DecidablePred Two]
    (ran : (reached.any fun final => One final ∧ Two final) = true)
    (also : ∀ final, reached = some final → One final → Two final → Also final) :
    ∃ final, reached = some final ∧ One final ∧ Two final ∧ Also final := by
  obtain ⟨final,same,one,two⟩ := exists_reached ran
  exact ⟨final,same,one,two,also final same one two⟩

end Reached

end Syndra.Foundation.Runs
