import PostgresSync.Data.Decimal

namespace PostgresSync.Data

/-! Decimal numerals with leading zeros, and their order as texts. -/

/-- The `%0wd` verb of `fmt`. -/
def zeroPadded (width n : Nat) : List Char :=
  (Nat.toDigits 10 n).leftpad width '0'

def fixedDigits : Nat → Nat → List Char
  | 0, _ => []
  | width + 1, n => fixedDigits width (n / 10) ++ [Nat.digitChar (n % 10)]

theorem length_fixedDigits (width n : Nat) : (fixedDigits width n).length = width := by
  induction width generalizing n with
  | zero => rfl
  | succ width hypothesis => simp [fixedDigits, hypothesis]

theorem fixedDigits_zero (width : Nat) : fixedDigits width 0 = List.replicate width '0' := by
  induction width with
  | zero => rfl
  | succ width hypothesis => simp [fixedDigits, hypothesis, List.replicate_succ']

theorem zeroPadded_eq_fixedDigits (width : Nat) :
    ∀ n, n < 10 ^ (width + 1) → zeroPadded (width + 1) n = fixedDigits (width + 1) n := by
  induction width with
  | zero =>
      intro n bound
      have small : n < 10 := by simpa using bound
      simp [zeroPadded, fixedDigits, Nat.toDigits_of_lt_base small, List.leftpad,
        Nat.mod_eq_of_lt small]
  | succ width hypothesis =>
      intro n bound
      by_cases small : n < 10
      · rw [fixedDigits, Nat.div_eq_of_lt small, Nat.mod_eq_of_lt small, fixedDigits_zero]
        simp [zeroPadded, Nat.toDigits_of_lt_base small, List.leftpad]
      · -- the last digit comes after the numeral of the others
        have split := Nat.toDigits_append_toDigits (b := 10) (n := n / 10) (d := n % 10)
          (by decide) (by omega) (by omega)
        have last : Nat.toDigits 10 (n % 10) = [Nat.digitChar (n % 10)] :=
          Nat.toDigits_of_lt_base (by omega)
        rw [last, Nat.div_add_mod] at split
        have front := hypothesis (n / 10) (by rw [pow_succ] at bound; omega)
        rw [fixedDigits, ← front]
        simp [zeroPadded, List.leftpad, ← split]

theorem append_lt_append {left right : List Char} (length : left.length = right.length)
    (below : left < right) (front back : List Char) : left ++ front < right ++ back := by
  induction left generalizing right with
  | nil =>
      rw [List.eq_nil_of_length_eq_zero length.symm] at below
      exact absurd below (List.lt_irrefl [])
  | cons head tail hypothesis =>
      cases right with
      | nil => cases length
      | cons other rest =>
          rw [List.cons_append, List.cons_append, List.cons_lt_cons_iff]
          rcases List.cons_lt_cons_iff.mp below with smaller | ⟨same, later⟩
          · exact .inl smaller
          · exact .inr ⟨same, hypothesis (Nat.succ.inj length) later⟩

theorem append_left_lt {left right : List Char} (below : left < right) (front : List Char) :
    front ++ left < front ++ right := by
  induction front with
  | nil => exact below
  | cons head tail hypothesis =>
      rw [List.cons_append, List.cons_append, List.cons_lt_cons_iff]
      exact .inr ⟨rfl, hypothesis⟩

theorem digitChar_lt {left right : Nat} (below : left < right) (bound : right < 10) :
    Nat.digitChar left < Nat.digitChar right := by
  interval_cases right <;> interval_cases left <;> decide

theorem fixedDigits_lt {width left right : Nat} (below : left < right)
    (bound : right < 10 ^ width) : fixedDigits width left < fixedDigits width right := by
  induction width generalizing left right with
  | zero =>
      rw [pow_zero] at bound
      omega
  | succ width hypothesis =>
      rw [fixedDigits, fixedDigits]
      rcases Nat.lt_or_ge (left / 10) (right / 10) with smaller | larger
      · apply append_lt_append (by simp [length_fixedDigits])
        exact hypothesis smaller (by rw [pow_succ] at bound; omega)
      · have same : left / 10 = right / 10 := by omega
        rw [same]
        apply append_left_lt
        exact List.cons_lt_cons_iff.mpr (.inl (digitChar_lt (by omega) (by omega)))

theorem zeroPadded_lt {width left right : Nat} (below : left < right)
    (bound : right < 10 ^ (width + 1)) (back front : List Char) :
    zeroPadded (width + 1) left ++ back < zeroPadded (width + 1) right ++ front := by
  rw [zeroPadded_eq_fixedDigits width left (below.trans bound),
    zeroPadded_eq_fixedDigits width right bound]
  apply append_lt_append (by simp [length_fixedDigits])
  exact fixedDigits_lt below bound

theorem ofDigitChars_zeroPadded (width n : Nat) :
    Nat.ofDigitChars 10 (zeroPadded width n) 0 = n := by
  have zeros : ∀ (count : Nat) (text : List Char),
      Nat.ofDigitChars 10 (List.replicate count '0' ++ text) 0 =
        Nat.ofDigitChars 10 text 0 := by
    intro count text
    induction count with
    | zero => rfl
    | succ count hypothesis =>
        rw [List.replicate_succ, List.cons_append]
        exact hypothesis
  rw [zeroPadded, List.leftpad, zeros, Nat.ofDigitChars_ten_toDigits]

theorem zeroPadded_isDigit {width n : Nat} {c : Char} (member : c ∈ zeroPadded width n) :
    c.isDigit = true := by
  rcases List.mem_append.mp member with zero | digit
  · rw [List.eq_of_mem_replicate zero]
    rfl
  · exact List.all_eq_true.mp (toDigits_all_isDigit n) c digit

end PostgresSync.Data
