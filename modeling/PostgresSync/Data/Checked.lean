import Mathlib

namespace PostgresSync.Data

/-! Programs over positions of a list, as they run: reading beyond the end and slicing
outside the list are faults, and so is a loop that is still running when its fuel is
spent. -/

inductive Fault where
  | outOfRange
  | outOfFuel
deriving DecidableEq

abbrev Checked := Except Fault

@[simp] theorem ok_bind {α β : Type u} (value : α) (next : α → Checked β) :
    ((.ok value : Checked α) >>= next) = next value := rfl

theorem bind_congr_ok {α β : Type u} {first : Checked α} {next other : α → Checked β}
    (same : ∀ value, first = .ok value → next value = other value) :
    (first >>= next) = (first >>= other) := by
  cases first with
  | error fault => rfl
  | ok value => exact same value rfl

@[simp] theorem checked_pure {α : Type u} (value : α) : (pure value : Checked α) = .ok value := rfl

section Access

variable {α : Type u} (items : List α)

/-- `items[index]`. -/
def readAt (index : Nat) : Checked α :=
  match items[index]? with
  | none => .error .outOfRange
  | some item => .ok item

/-- `items[start:stop]`. -/
def sliceOf (start stop : Nat) : Checked (List α) :=
  if start ≤ stop ∧ stop ≤ items.length then
    .ok ((items.take stop).drop start)
  else
    .error .outOfRange

/-- `index < len(items) && test(items[index])`. -/
def testAt (index : Nat) (test : α → Bool) : Checked Bool :=
  if index < items.length then (readAt items index).map test else .ok false

variable {items} {index : Nat}

theorem readAt_of_getElem? {item : α} (found : items[index]? = some item) :
    readAt items index = .ok item := by
  rw [readAt, found]

@[simp] theorem testAt_eq (index : Nat) (test : α → Bool) :
    testAt items index test = .ok (items[index]?.any test) := by
  unfold testAt
  split
  next inside =>
    rw [readAt_of_getElem? (List.getElem?_eq_getElem inside), List.getElem?_eq_getElem inside]
    rfl
  next beyond =>
    rw [List.getElem?_eq_none (Nat.le_of_not_lt beyond)]
    rfl

theorem sliceOf_eq {start stop : Nat} (ordered : start ≤ stop) (inside : stop ≤ items.length) :
    sliceOf items start stop = .ok ((items.take stop).drop start) :=
  if_pos ⟨ordered, inside⟩

theorem length_sliceOf_lt {start stop : Nat} {part : List α}
    (sliced : sliceOf items (start + 1) stop = .ok part) : part.length < items.length := by
  unfold sliceOf at sliced
  split at sliced
  next ordered =>
    obtain rfl := Except.ok.inj sliced
    rw [List.length_drop, List.length_take]
    omega
  next => cases sliced

end Access

/-! Loops. -/

inductive Round (σ : Type u) (α : Type v) where
  | again (state : σ)
  | done (result : α)

def whileLoop {σ : Type u} {α : Type v} (round : σ → Checked (Round σ α)) :
    Nat → σ → Checked α
  | 0, _ => .error .outOfFuel
  | fuel + 1, state =>
      match round state with
      | .error fault => .error fault
      | .ok (.done result) => .ok result
      | .ok (.again next) => whileLoop round fuel next

section Rules

variable {σ : Type u} {α : Type v}

/-- A round that does what `value` says of the loop: it ends with the value, or goes on
with less before it and the same value. -/
def Turns (holds : σ → Prop) (measure : σ → Nat) (value : σ → α)
    (round : σ → Checked (Round σ α)) (state : σ) : Prop :=
  round state = .ok (.done (value state)) ∨
    ∃ next, round state = .ok (.again next) ∧ holds next ∧ measure next < measure state ∧
      value next = value state

variable {holds : σ → Prop} {measure : σ → Nat} {value : σ → α}
  {round : σ → Checked (Round σ α)} {state : σ}

theorem Turns.last (result : α) (run : round state = .ok (.done result))
    (same : value state = result) : Turns holds measure value round state := by
  left
  rw [run, same]

theorem Turns.further (next : σ) (run : round state = .ok (.again next)) (kept : holds next)
    (less : measure next < measure state) (same : value state = value next) :
    Turns holds measure value round state :=
  .inr ⟨next, run, kept, less, same.symm⟩

/-- The loop rule: every round turns, so the loop comes to its value. -/
theorem whileLoop_eq (turns : ∀ state, holds state → Turns holds measure value round state)
    {fuel : Nat} {state : σ} (begun : holds state) (enough : measure state < fuel) :
    whileLoop round fuel state = .ok (value state) := by
  induction fuel generalizing state with
  | zero => exact absurd enough (Nat.not_lt_zero _)
  | succ fuel hypothesis =>
      rw [whileLoop]
      rcases turns state begun with last | ⟨next, further, kept, less, same⟩
      · rw [last]
      · rw [further]
        show whileLoop round fuel next = .ok (value state)
        rw [hypothesis kept (by omega), same]

end Rules

end PostgresSync.Data
