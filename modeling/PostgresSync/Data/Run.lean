import Mathlib

namespace PostgresSync.Data

/-! Runs of a deterministic machine: a run is a list of actions, and the state
it reaches is their left fold. -/

section

variable {σ : Type u} {α : Type v} (step : σ → α → σ)

/-- Every action of the run meets a condition in the state it is taken in. -/
def Along (condition : σ → α → Prop) : σ → List α → Prop
  | _, [] => True
  | state, action :: rest =>
      condition state action ∧ Along condition (step state action) rest

instance Along.decidable (condition : σ → α → Prop)
    [∀ state action, Decidable (condition state action)] :
    (state : σ) → (actions : List α) →
      Decidable (Along step condition state actions)
  | _, [] => inferInstanceAs (Decidable True)
  | state, action :: rest =>
      have := Along.decidable condition (step state action) rest
      inferInstanceAs (Decidable (_ ∧ _))

variable {step}

variable {condition : σ → α → Prop} {holds : σ → Prop}

/-- An invariant that every admissible action preserves holds at the end of
every admissible run. -/
theorem Along.invariant (preserved : ∀ state action, holds state → condition state action →
      holds (step state action)) :
    ∀ (actions : List α) (state : σ), holds state →
      Along step condition state actions → holds (actions.foldl step state)
  | [], _, initial, _ => initial
  | action :: rest, state, initial, admissible =>
      Along.invariant preserved rest (step state action)
        (preserved state action initial admissible.1) admissible.2

theorem Along.of_invariant {conclusion : σ → α → Prop} (holds : σ → Prop)
    (preserved : ∀ state action, holds state → condition state action →
      holds (step state action))
    (implied : ∀ state action, holds state → condition state action →
      conclusion state action) :
    ∀ (actions : List α) (state : σ), holds state →
      Along step condition state actions → Along step conclusion state actions
  | [], _, _, _ => trivial
  | action :: rest, state, initial, admissible =>
      ⟨implied state action initial admissible.1,
        Along.of_invariant holds preserved implied rest (step state action)
          (preserved state action initial admissible.1) admissible.2⟩

/-- When an admissible action keeps a property exactly if it meets the condition, the
admissible runs that have the property throughout are those along which the condition is met.
`invariant` is what the actions keep besides. -/
theorem Along.throughout_iff_of_admits {admits : σ → α → Prop} (invariant : σ → Prop)
    (kept : ∀ state action, invariant state → holds state → admits state action →
      holds (step state action) → invariant (step state action))
    (exact : ∀ state action, invariant state → holds state → admits state action →
      (holds (step state action) ↔ condition state action)) (actions : List α) :
    ∀ state, invariant state → holds state → Along step admits state actions →
      ((∀ part, part <+: actions → holds (part.foldl step state)) ↔
        Along step condition state actions) := by
  induction actions with
  | nil =>
      intro state _ initial _
      refine ⟨fun _ => trivial, fun _ part early => ?_⟩
      rw [List.prefix_nil.mp early]
      exact initial
  | cons action rest hypothesis =>
      intro state started initial admitted
      have next := exact state action started initial admitted.1
      constructor
      · intro throughout
        have first := throughout [action] (by simp)
        refine ⟨next.mp first, ?_⟩
        have begun := kept state action started initial admitted.1 first
        apply (hypothesis _ begun first admitted.2).mp
        intro part early
        exact throughout (action :: part) (by simpa using early)
      · intro ⟨first, later⟩ part early
        cases part with
        | nil => exact initial
        | cons head tail =>
            obtain ⟨rfl, shorter⟩ := List.cons_prefix_cons.mp early
            have reached := next.mpr first
            have begun := kept state head started initial admitted.1 reached
            exact (hypothesis _ begun reached admitted.2).mpr later tail shorter

theorem Along.of_forall :
    ∀ (actions : List α) (state : σ),
      (∀ state, ∀ action ∈ actions, condition state action) →
        Along step condition state actions
  | [], _, _ => trivial
  | action :: rest, state, always =>
      ⟨always state action List.mem_cons_self,
        Along.of_forall rest (step state action) fun state action member =>
          always state action (List.mem_cons_of_mem _ member)⟩

theorem Along.throughout_iff (invariant : σ → Prop)
    (kept : ∀ state action, invariant state → holds state → holds (step state action) →
      invariant (step state action))
    (exact : ∀ state action, invariant state → holds state →
      (holds (step state action) ↔ condition state action)) (actions : List α) (state : σ)
    (started : invariant state) (initial : holds state) :
    (∀ part, part <+: actions → holds (part.foldl step state)) ↔
      Along step condition state actions :=
  Along.throughout_iff_of_admits invariant
    (fun state action invariant holds _ => kept state action invariant holds)
    (fun state action invariant holds _ => exact state action invariant holds) actions state
    started initial (Along.of_forall actions state fun _ _ _ => trivial)

theorem Along.and {first second : σ → α → Prop} :
    ∀ (actions : List α) (state : σ), Along step first state actions →
      Along step second state actions →
        Along step (fun state action => first state action ∧ second state action)
          state actions
  | [], _, _, _ => trivial
  | action :: rest, state, left, right =>
      ⟨⟨left.1, right.1⟩, Along.and rest (step state action) left.2 right.2⟩

end

end PostgresSync.Data
