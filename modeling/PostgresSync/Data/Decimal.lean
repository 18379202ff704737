import Mathlib

namespace PostgresSync.Data

/-! Decimal numerals as lists of characters, with the acceptance rules and
the 64-bit bounds of `strconv`. -/

def cut (separator : Char) : List Char → Option (List Char × List Char)
  | [] => none
  | head :: tail =>
      if head = separator then
        some ([], tail)
      else
        (cut separator tail).map fun parts => (head :: parts.1, parts.2)

theorem cut_append {separator : Char} {front : List Char}
    (absent : separator ∉ front) (back : List Char) :
    cut separator (front ++ separator :: back) = some (front, back) := by
  induction front with
  | nil => simp [cut]
  | cons head tail induction =>
      have headNe : head ≠ separator := by
        intro equal
        exact absent (by simp [equal])
      have tailAbsent : separator ∉ tail := fun member =>
        absent (List.mem_cons_of_mem head member)
      simp [cut, headNe, induction tailAbsent]

theorem append_separator_inj {separator : α} {front back left right : List α}
    (absent : separator ∉ left) (missing : separator ∉ right)
    (same : front ++ separator :: left = back ++ separator :: right) :
    front = back ∧ left = right := by
  rcases List.append_eq_append_iff.mp same with ⟨middle, rfl, rest⟩ | ⟨middle, rfl, rest⟩
  · cases middle with
    | nil => exact ⟨by simp, (List.cons.inj rest).2⟩
    | cons head tail =>
        have inner := (List.cons.inj rest).2
        exact absurd (by simp [inner]) absent
  · cases middle with
    | nil => exact ⟨by simp, (List.cons.inj rest).2.symm⟩
    | cons head tail =>
        have inner := (List.cons.inj rest).2
        exact absurd (by simp [inner]) missing

def parseDigits (text : List Char) : Option Nat :=
  if text ≠ [] ∧ text.all Char.isDigit then
    some (Nat.ofDigitChars 10 text 0)
  else
    none

/-- `strconv.ParseUint(text, 10, 64)`. -/
def parseUint64 (text : List Char) : Option UInt64 :=
  (parseDigits text).bind fun n =>
    if n < 2 ^ 64 then some (UInt64.ofNat n) else none

/-- `strconv.ParseInt(text, 10, 64)`. -/
def parseInt64 : List Char → Option Int
  | '-' :: rest =>
      (parseDigits rest).bind fun n =>
        if n ≤ 2 ^ 63 then some (-(n : Int)) else none
  | '+' :: rest =>
      (parseDigits rest).bind fun n =>
        if n < 2 ^ 63 then some (n : Int) else none
  | text =>
      (parseDigits text).bind fun n =>
        if n < 2 ^ 63 then some (n : Int) else none

theorem toDigits_all_isDigit (n : Nat) :
    (Nat.toDigits 10 n).all Char.isDigit = true := by
  rw [List.all_eq_true]
  intro digit member
  exact Nat.isDigit_of_mem_toDigits (by decide) (by decide) member

theorem parseDigits_toDigits (n : Nat) :
    parseDigits (Nat.toDigits 10 n) = some n := by
  simp [parseDigits, toDigits_all_isDigit, Nat.ofDigitChars_ten_toDigits]

theorem parseUint64_toDigits (n : UInt64) :
    parseUint64 (Nat.toDigits 10 n.toNat) = some n := by
  have bound := n.toNat_lt
  simp [parseUint64, parseDigits_toDigits, bound]

theorem parseInt64_toDigits {n : Nat} (bound : n < 2 ^ 63) :
    parseInt64 (Nat.toDigits 10 n) = some (n : Int) := by
  have digits := toDigits_all_isDigit n
  have parsed := parseDigits_toDigits n
  -- a numeral never starts with a sign, so the last branch is the one taken
  unfold parseInt64
  split
  · rename_i rest equal
    rw [equal] at digits
    simp at digits
  · rename_i rest equal
    rw [equal] at digits
    simp at digits
  · rw [parsed]
    exact if_pos bound

end PostgresSync.Data
