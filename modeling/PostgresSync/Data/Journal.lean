import Mathlib

namespace PostgresSync.Data

/-! An append-only journal whose items are read from a mark on. -/

section

variable {α : Type u} {κ : Type v} [LinearOrder κ] {key : α → κ} {items appended : List α}
  {mark top : κ} {n : Nat}

/-- The mark stands between the first `n` items and the others. -/
structure Splits (key : α → κ) (items : List α) (mark : κ) (n : Nat) : Prop where
  bound : n ≤ items.length
  before : ∀ item ∈ items.take n, key item ≤ mark
  after : ∀ item ∈ items.drop n, mark < key item

theorem Splits.filter_eq_drop (splits : Splits key items mark n) :
    items.filter (fun item => mark < key item) = items.drop n := by
  have front : (items.take n).filter (fun item => mark < key item) = [] := by
    apply List.filter_eq_nil_iff.mpr
    intro item member
    simpa using splits.before item member
  have back : (items.drop n).filter (fun item => mark < key item) = items.drop n := by
    apply List.filter_eq_self.mpr
    intro item member
    simpa using splits.after item member
  conv_lhs => rw [← List.take_append_drop n items]
  rw [List.filter_append, front, back, List.nil_append]

theorem Splits.append (splits : Splits key items mark n)
    (later : ∀ item ∈ appended, mark < key item) :
    Splits key (items ++ appended) mark n where
  bound := by
    rw [List.length_append]
    exact splits.bound.trans (Nat.le_add_right _ _)
  before item member := by
    rw [List.take_append_of_le_length splits.bound] at member
    exact splits.before item member
  after item member := by
    rw [List.drop_append_of_le_length splits.bound] at member
    rcases List.mem_append.mp member with old | new
    · exact splits.after item old
    · exact later item new

theorem Splits.of_le (below : ∀ item ∈ items, key item ≤ mark) :
    Splits key items mark items.length where
  bound := le_rfl
  before item member := below item (List.mem_of_mem_take member)
  after item member := by simp at member

theorem Splits.read {start : Nat} (splits : Splits key items mark n) (ordered : start ≤ n) :
    (items.take n).drop start ++ items.filter (fun item => mark < key item) =
      (items.take items.length).drop start := by
  rw [splits.filter_eq_drop, List.take_length]
  conv_rhs => rw [← List.take_append_drop n items]
  rw [List.drop_append_of_le_length]
  rw [List.length_take, min_eq_left splits.bound]
  exact ordered

end

end PostgresSync.Data
