import PostgresSync.Pg.DependencyScan

namespace PostgresSync.Pg

open PostgresSync.Data
open PostgresSync.Shapes

/-! Where the positions lie. -/

section Bounds

variable {tokens : List DependencyToken} {index : Nat}

theorem balancedCloseFrom_lt {rest : List DependencyToken} {depth cursor close : Nat}
    (found : balancedCloseFrom rest depth cursor = some close) :
    close < cursor + rest.length := by
  induction rest generalizing depth cursor with
  | nil => cases found
  | cons token rest hypothesis =>
      rw [balancedCloseFrom] at found
      rw [List.length_cons]
      split at found
      next =>
        have inside := hypothesis found
        omega
      next =>
        split at found
        next =>
          split at found
          next =>
            have same := Option.some.inj found
            omega
          next =>
            have inside := hypothesis found
            omega
        next =>
          have inside := hypothesis found
          omega

theorem findDependencyBalancedClose_bounds {close : Nat}
    (found : findDependencyBalancedClose tokens index = some close) :
    index < close ∧ close < tokens.length := by
  unfold findDependencyBalancedClose at found
  split at found
  next opening =>
    have inside := valueAt_lt opening
    have closed := balancedCloseFrom_lt found
    rw [List.length_drop] at closed
    rw [valueAt, List.getElem?_eq_getElem inside, Option.any_some] at opening
    rw [List.drop_eq_getElem_cons inside, balancedCloseFrom, if_pos opening] at found
    have after := balancedCloseFrom_le found
    omega
  next => cases found

theorem skipDependencyBalanced_le (inside : index < tokens.length) :
    skipDependencyBalanced tokens index ≤ tokens.length := by
  unfold skipDependencyBalanced
  split
  next => exact inside
  next close found => exact (findDependencyBalancedClose_bounds found).2

theorem skipOptionalList_le (inside : index ≤ tokens.length) :
    skipOptionalList tokens index ≤ tokens.length := by
  unfold skipOptionalList
  split
  next opening => exact skipDependencyBalanced_le (valueAt_lt opening)
  next => exact inside

theorem any_lt {test : DependencyToken → Bool} (found : tokens[index]?.any test = true) :
    index < tokens.length := by
  by_contra beyond
  rw [List.getElem?_eq_none (Nat.le_of_not_lt beyond)] at found
  cases found

theorem skipDependencyAlias_bounds (index : Nat) (inside : index ≤ tokens.length) :
    index ≤ skipDependencyAlias tokens index ∧
      skipDependencyAlias tokens index ≤ tokens.length := by
  have forward : ∀ position, position ≤ skipOptionalList tokens position :=
    fun _ => le_skipOptionalList
  unfold skipDependencyAlias
  split
  next keyword =>
    have below := any_lt keyword
    split
    next identifier =>
      have next := any_lt identifier
      have list := forward (index + 2)
      exact ⟨by omega, skipOptionalList_le next⟩
    next =>
      have list := forward (index + 1)
      exact ⟨by omega, skipOptionalList_le below⟩
  next =>
    split
    next identifier =>
      have list := forward (index + 1)
      exact ⟨by omega, skipOptionalList_le (any_lt identifier)⟩
    next => exact ⟨le_rfl, inside⟩

theorem skipTableModifiers_le (inside : index ≤ tokens.length) :
    skipTableModifiers tokens index ≤ tokens.length := by
  fun_induction skipTableModifiers tokens index with
  | case1 index modifier hypothesis => exact hypothesis modifier.1
  | case2 index _ => exact inside

variable {defaultSchema : String} {ctes : StringSet}

theorem readDependencyRelationReference_bounds {relation : Relation} {next : Nat}
    (read : readDependencyRelationReference tokens defaultSchema ctes index =
      some (relation, next)) :
    index < next ∧ next ≤ tokens.length := by
  unfold readDependencyRelationReference at read
  split at read
  next => cases read
  next token found =>
    have below : index < tokens.length := by
      obtain ⟨present, _⟩ := Option.filter_eq_some_iff.mp found
      exact (List.getElem?_eq_some_iff.mp present).1
    dsimp only at read
    split at read
    next second qualified =>
      have inside : index + 2 < tokens.length := by
        split at qualified
        next =>
          obtain ⟨present, _⟩ := Option.filter_eq_some_iff.mp qualified
          exact (List.getElem?_eq_some_iff.mp present).1
        next => cases qualified
      obtain ⟨_, rfl⟩ := Prod.mk.inj (Option.some.inj read)
      omega
    next =>
      split at read
      next =>
        obtain ⟨_, rfl⟩ := Prod.mk.inj (Option.some.inj read)
        omega
      next =>
        obtain ⟨_, rfl⟩ := Prod.mk.inj (Option.some.inj read)
        omega

theorem consumeDependencyRelation_bounds (defaultSchema : String) (ctes : StringSet)
    (inside : index < tokens.length) (relations : Dict Relation) :
    index < (consumeDependencyRelation defaultSchema ctes tokens index relations).next ∧
      (consumeDependencyRelation defaultSchema ctes tokens index relations).next ≤
        tokens.length := by
  have modifiers := le_skipTableModifiers tokens index
  have bounded := skipTableModifiers_le inside.le
  rw [consumeDependencyRelation]
  dsimp only
  split
  next ended => exact ⟨by dsimp only; omega, bounded⟩
  next more =>
    split
    next =>
      split
      next => exact ⟨by dsimp only; omega, by dsimp only; omega⟩
      next close found =>
        have closed := findDependencyBalancedClose_bounds found
        have skipped := skipDependencyAlias_bounds (close + 1) closed.2
        split
        next => exact ⟨by dsimp only; omega, skipped.2⟩
        next => exact ⟨by dsimp only; omega, skipped.2⟩
    next =>
      split
      next => exact ⟨by dsimp only; omega, by dsimp only; omega⟩
      next relation next read =>
        have reference := readDependencyRelationReference_bounds read
        split
        next list =>
          have below := valueAt_lt list
          split
          next => exact ⟨by dsimp only; omega, below⟩
          next close found =>
            have closed := findDependencyBalancedClose_bounds found
            have skipped := skipDependencyAlias_bounds (close + 1) closed.2
            exact ⟨by dsimp only; omega, skipped.2⟩
        next =>
          have skipped := skipDependencyAlias_bounds next reference.2
          exact ⟨by dsimp only; omega, skipped.2⟩

end Bounds

end PostgresSync.Pg
