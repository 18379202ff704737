import Mathlib

namespace PostgresSync.Data

/-! Loops that stop at the first error, and what they have done when they stop. -/

section

variable {σ : Type u} {ε : Type v} {α : Type w} {β : Type x}

def untilError (body : σ → α → Except ε Unit × σ) : σ → List α → Except ε Unit × σ
  | state, [] => (.ok (), state)
  | state, item :: rest =>
      match body state item with
      | (.error error, state) => (.error error, state)
      | (.ok (), state) => untilError body state rest

def thenStep (first : Except ε Unit × σ) (next : σ → Except ε Unit × σ) :
    Except ε Unit × σ :=
  match first with
  | (.error error, state) => (.error error, state)
  | (.ok (), state) => next state

variable (holds : List β → σ → Prop)

/-- The outcome has done all of the planned work, or failed after a part of it.
`holds` relates the work done so far to the state. -/
def Follows (done plan : List β) : Except ε Unit × σ → Prop
  | (.ok (), state) => holds (done ++ plan) state
  | (.error _, state) => ∃ part, part <+: plan ∧ holds (done ++ part) state

variable {holds}

theorem Follows.stops {done plan : List β} {error : ε} {state : σ} (held : holds done state) :
    Follows holds done plan (.error error, state) :=
  ⟨[], List.nil_prefix, by rwa [List.append_nil]⟩

theorem Follows.part {done plan : List β} {outcome : Except ε Unit × σ}
    (follows : Follows holds done plan outcome) :
    ∃ part, part <+: plan ∧ (outcome.1 = .ok () → part = plan) ∧
      holds (done ++ part) outcome.2 := by
  obtain ⟨result, state⟩ := outcome
  cases result with
  | error error =>
      obtain ⟨part, early, held⟩ := follows
      exact ⟨part, early, nofun, held⟩
  | ok value => exact ⟨plan, List.prefix_rfl, fun _ => rfl, follows⟩

theorem Follows.thenStep {done first second : List β} {outcome : Except ε Unit × σ}
    {next : σ → Except ε Unit × σ}
    (begun : Follows holds done first outcome)
    (continued : ∀ state, holds (done ++ first) state →
      Follows holds (done ++ first) second (next state)) :
    Follows holds done (first ++ second) (thenStep outcome next) := by
  obtain ⟨result, state⟩ := outcome
  cases result with
  | error error =>
      obtain ⟨part, early, kept⟩ := begun
      exact ⟨part, early.trans (List.prefix_append _ _), kept⟩
  | ok value =>
      have after := continued state begun
      show Follows holds done (first ++ second) (next state)
      cases reached : next state with
      | mk result state =>
          rw [reached] at after
          cases result with
          | ok value => simpa [Follows, List.append_assoc] using after
          | error error =>
              obtain ⟨part, early, kept⟩ := after
              refine ⟨first ++ part, (List.prefix_append_right_inj first).mpr early, ?_⟩
              rwa [List.append_assoc] at kept

/-- The loop rule: when each turn follows its own plan, the loop follows the plans
one after the other. -/
theorem Follows.untilError {body : σ → α → Except ε Unit × σ} {plan : α → List β}
    {items : List α} {done : List β} {state : σ}
    (turn : ∀ (earlier : List α) (item : α) (later : List α) (state : σ),
      items = earlier ++ item :: later → holds (done ++ earlier.flatMap plan) state →
        Follows holds (done ++ earlier.flatMap plan) (plan item) (body state item))
    (kept : holds done state) :
    Follows holds done (items.flatMap plan) (untilError body state items) := by
  induction items generalizing done state with
  | nil => simpa [Follows, Data.untilError] using kept
  | cons item rest hypothesis =>
      have first : Follows holds done (plan item) (body state item) := by
        simpa using turn [] item rest state rfl (by simpa using kept)
      refine first.thenStep fun state kept => hypothesis ?_ kept
      intro earlier other later state split kept
      have next := turn (item :: earlier) other later state (by simp [split])
      rw [List.flatMap_cons, ← List.append_assoc] at next
      exact next kept

end

/-! Loops that have met no error. -/

theorem thenStep_ok {σ : Type u} {ε : Type v} {first : Except ε Unit × σ}
    {next : σ → Except ε Unit × σ} {final : σ} (succeeded : thenStep first next = (.ok (), final)) :
    ∃ reached, first = (.ok (), reached) ∧ next reached = (.ok (), final) := by
  obtain ⟨result, reached⟩ := first
  cases result with
  | error error => cases succeeded
  | ok _ => exact ⟨reached, rfl, succeeded⟩

/-! Reading every item of a list. -/

theorem mapM_eq_some_map {items : List α} {read : α → Option β} {value : α → β}
    (found : ∀ item ∈ items, read item = some (value item)) :
    items.mapM read = some (items.map value) := by
  induction items with
  | nil => rfl
  | cons item rest hypothesis =>
      rw [List.mapM_cons, found item List.mem_cons_self,
        hypothesis fun other member => found other (List.mem_cons_of_mem item member)]
      rfl

theorem mapM_eq_none_iff {items : List α} {read : α → Option β} :
    items.mapM read = none ↔ ∃ item ∈ items, read item = none := by
  induction items with
  | nil =>
      refine iff_of_false (by simp) ?_
      simp
  | cons first rest hypothesis =>
      rw [List.mapM_cons, List.exists_mem_cons_iff, ← hypothesis]
      cases read first with
      | none => simp
      | some value => cases rest.mapM read <;> simp

theorem mapM_congr {items : List α} {read other : α → Option β}
    (same : ∀ item ∈ items, read item = other item) : items.mapM read = items.mapM other := by
  induction items with
  | nil => rfl
  | cons item rest hypothesis =>
      rw [List.mapM_cons, List.mapM_cons, same item List.mem_cons_self,
        hypothesis fun next member => same next (List.mem_cons_of_mem item member)]

end PostgresSync.Data
