import PostgresSync.Pg.ScanByIndex

namespace PostgresSync.Pg

open PostgresSync.Data
open PostgresSync.Shapes

/-! Scanning from a position is scanning what is left: none of the scanner's functions looks
back, so the tokens before a position only shift the positions it returns. -/

section Positions

variable (before rest : List DependencyToken) (index : Nat)

theorem getElem?_shift : (before ++ rest)[before.length + index]? = rest[index]? := by
  rw [List.getElem?_append_right (Nat.le_add_right _ _), Nat.add_sub_cancel_left]

theorem keywordAt_shift (keyword : String) :
    keywordAt (before ++ rest) (before.length + index) keyword = keywordAt rest index keyword := by
  rw [keywordAt, keywordAt, getElem?_shift]

theorem valueAt_shift (value : String) :
    valueAt (before ++ rest) (before.length + index) value = valueAt rest index value := by
  rw [valueAt, valueAt, getElem?_shift]

theorem identifierAt_shift :
    identifierAt (before ++ rest) (before.length + index) = identifierAt rest index := by
  rw [identifierAt, identifierAt, getElem?_shift]

omit before index in
theorem keywordAt_zero (token : DependencyToken) (keyword : String) :
    keywordAt (token :: rest) 0 keyword = dependencyTokenKeyword token keyword :=
  rfl

omit before index in
theorem valueAt_zero (token : DependencyToken) (value : String) :
    valueAt (token :: rest) 0 value = dependencyTokenValue token value :=
  rfl

omit before rest index in
theorem balancedCloseFrom_shift (offset : Nat) (tokens : List DependencyToken) :
    ∀ depth cursor : Nat, balancedCloseFrom tokens depth (offset + cursor) =
      (balancedCloseFrom tokens depth cursor).map (offset + ·) := by
  induction tokens with
  | nil => exact fun _ _ => rfl
  | cons token tokens hypothesis =>
      intro depth cursor
      simp only [balancedCloseFrom, Nat.add_assoc, hypothesis]
      split
      · rfl
      · split
        · split
          · rfl
          · rfl
        · rfl

theorem findDependencyBalancedClose_shift :
    findDependencyBalancedClose (before ++ rest) (before.length + index) =
      (findDependencyBalancedClose rest index).map (before.length + ·) := by
  have left : (before ++ rest).drop (before.length + index) = rest.drop index := by
    simp [List.drop_append]
  rw [findDependencyBalancedClose, findDependencyBalancedClose, valueAt_shift, left,
    balancedCloseFrom_shift]
  split <;> rfl

theorem skipDependencyBalanced_shift :
    skipDependencyBalanced (before ++ rest) (before.length + index) =
      before.length + skipDependencyBalanced rest index := by
  rw [skipDependencyBalanced, skipDependencyBalanced, findDependencyBalancedClose_shift]
  cases findDependencyBalancedClose rest index <;> simp [Nat.add_assoc]

theorem skipOptionalList_shift :
    skipOptionalList (before ++ rest) (before.length + index) =
      before.length + skipOptionalList rest index := by
  rw [skipOptionalList, skipOptionalList, valueAt_shift, skipDependencyBalanced_shift]
  split <;> rfl

theorem skipDependencyAlias_shift :
    skipDependencyAlias (before ++ rest) (before.length + index) =
      before.length + skipDependencyAlias rest index := by
  have named : (if identifierAt rest (index + 1) then before.length + index + 2
      else before.length + index + 1) =
      before.length + if identifierAt rest (index + 1) then index + 2 else index + 1 := by
    split <;> omega
  have following := identifierAt_shift before rest (index + 1)
  rw [← Nat.add_assoc] at following
  rw [skipDependencyAlias, skipDependencyAlias, keywordAt_shift, getElem?_shift, following,
    named, skipOptionalList_shift, Nat.add_assoc, skipOptionalList_shift]
  split
  · rfl
  · split <;> rfl

theorem skipTableModifiers_shift :
    skipTableModifiers (before ++ rest) (before.length + index) =
      before.length + skipTableModifiers rest index := by
  have bound : ∀ index, before.length + index < (before ++ rest).length ↔ index < rest.length := by
    simp
  fun_induction skipTableModifiers rest index with
  | case1 index modifies hypothesis =>
      rw [skipTableModifiers, keywordAt_shift, keywordAt_shift,
        if_pos ⟨(bound index).mpr modifies.1, modifies.2⟩, Nat.add_assoc, hypothesis]
  | case2 index other =>
      rw [skipTableModifiers, keywordAt_shift, keywordAt_shift,
        if_neg fun both => other ⟨(bound index).mp both.1, both.2⟩]

theorem tokensBetween_shift (start stop : Nat) :
    tokensBetween (before ++ rest) (before.length + start) (before.length + stop) =
      tokensBetween rest start stop := by
  simp [tokensBetween, List.take_append, List.drop_append]

variable (defaultSchema : String) (ctes : StringSet)

theorem readDependencyRelationReference_shift :
    readDependencyRelationReference (before ++ rest) defaultSchema ctes (before.length + index) =
      (readDependencyRelationReference rest defaultSchema ctes index).map
        fun read => (read.1, before.length + read.2) := by
  rw [readDependencyRelationReference, readDependencyRelationReference, getElem?_shift,
    Nat.add_assoc, Nat.add_assoc, valueAt_shift, getElem?_shift]
  cases rest[index]?.filter dependencyTokenIdentifier with
  | none => rfl
  | some token =>
      dsimp only
      split
      · rfl
      · split <;> rfl

theorem consumeDependencyRelation_shift (relations : Dict Relation) :
    consumeDependencyRelation defaultSchema ctes (before ++ rest) (before.length + index)
        relations =
      let consumed := consumeDependencyRelation defaultSchema ctes rest index relations
      { consumed with next := before.length + consumed.next } := by
  have bound : ∀ index, (before ++ rest).length ≤ before.length + index ↔
      rest.length ≤ index := by
    simp
  rw [consumeDependencyRelation, consumeDependencyRelation]
  dsimp only
  simp only [skipTableModifiers_shift, bound, valueAt_shift, findDependencyBalancedClose_shift,
    readDependencyRelationReference_shift]
  split
  · rfl
  · split
    · cases findDependencyBalancedClose rest (skipTableModifiers rest index) with
      | none => rfl
      | some close =>
          simp only [Option.map_some, Nat.add_assoc, tokensBetween_shift,
            skipDependencyAlias_shift]
          cases dependencyRelationFromTokens (tokensBetween rest
            (skipTableModifiers rest index + 1) close) defaultSchema ctes <;> rfl
    · cases readDependencyRelationReference rest defaultSchema ctes
          (skipTableModifiers rest index) with
      | none => rfl
      | some read =>
          obtain ⟨relation, next⟩ := read
          simp only [Option.map_some, valueAt_shift, findDependencyBalancedClose_shift,
            skipDependencyAlias_shift]
          split
          · cases findDependencyBalancedClose rest next with
            | none => rfl
            | some close =>
                simp only [Option.map_some, Nat.add_assoc, tokensBetween_shift,
                  skipDependencyAlias_shift]
          · rfl

omit before rest index in
theorem scanDependencyFrom_of_none {tokens : List DependencyToken} {index : Nat}
    (state : ScanState) (missing : tokens[index]? = none) :
    scanDependencyFrom defaultSchema ctes tokens state index = state := by
  rw [scanDependencyFrom]
  split
  next => rfl
  next other present =>
    rw [missing] at present
    cases present

theorem scanDependencyFrom_shift (state : ScanState) :
    scanDependencyFrom defaultSchema ctes (before ++ rest) state (before.length + index) =
      scanDependencyFrom defaultSchema ctes rest state index := by
  -- on the tokens that are left
  induction left : rest.length - index using Nat.strong_induction_on generalizing state index with
  | h left hypothesis =>
      cases found : rest[index]? with
      | none =>
          have beyond : (before ++ rest)[before.length + index]? = none := by
            rw [getElem?_shift, found]
          rw [scanDependencyFrom_of_none defaultSchema ctes state beyond,
            scanDependencyFrom_of_none defaultSchema ctes state found]
      | some token =>
          have inside := (List.getElem?_eq_some_iff.mp found).1
          have shifted : (before ++ rest)[before.length + index]? = some token := by
            rw [getElem?_shift, found]
          rw [ByIndex.scanDependencyFrom_of_getElem? defaultSchema ctes state shifted,
            ByIndex.scanDependencyFrom_of_getElem? defaultSchema ctes state found,
            consumeDependencyRelation_shift]
          dsimp only
          split
          · have later : max (before.length + (consumeDependencyRelation defaultSchema ctes rest
                index state.relations).next) (before.length + index + 1) =
                before.length + max (consumeDependencyRelation defaultSchema ctes rest index
                  state.relations).next (index + 1) := by
              omega
            rw [later]
            exact hypothesis _ (by omega) _ _ rfl
          · rw [Nat.add_assoc]
            exact hypothesis _ (by omega) _ _ rfl

theorem afterCommonTable_shift :
    afterCommonTable (before ++ rest) (before.length + index) =
      before.length + afterCommonTable rest index := by
  have body : (if keywordAt rest (skipOptionalList rest index) "as" then
      before.length + skipOptionalList rest index + 1
      else before.length + skipOptionalList rest index) =
      before.length + if keywordAt rest (skipOptionalList rest index) "as" then
        skipOptionalList rest index + 1 else skipOptionalList rest index := by
    split <;> omega
  rw [afterCommonTable, afterCommonTable, skipOptionalList_shift, keywordAt_shift, body,
    skipOptionalList_shift]

theorem readCommonTables_shift :
    readCommonTables (before ++ rest) ctes (before.length + index) =
      ((readCommonTables rest ctes index).1,
        before.length + (readCommonTables rest ctes index).2) := by
  induction left : rest.length - index using Nat.strong_induction_on generalizing ctes index with
  | h left hypothesis =>
      cases found : rest[index]? with
      | none =>
          have beyond : (before ++ rest)[before.length + index]? = none := by
            rw [getElem?_shift, found]
          rw [ByIndex.readCommonTables_of_none ctes beyond,
            ByIndex.readCommonTables_of_none ctes found]
      | some token =>
          have inside := (List.getElem?_eq_some_iff.mp found).1
          have forward := le_afterCommonTable rest (index + 1)
          have shifted : (before ++ rest)[before.length + index]? = some token := by
            rw [getElem?_shift, found]
          rw [ByIndex.readCommonTables_of_getElem? ctes shifted,
            ByIndex.readCommonTables_of_getElem? ctes found, Nat.add_assoc,
            afterCommonTable_shift, valueAt_shift]
          split
          · split
            · rw [Nat.add_assoc]
              exact hypothesis _ (by omega) _ _ rfl
            · rfl
          · rfl

section Collecting

omit before rest index
variable {tokens : List DependencyToken} {index : Nat} (ctes : StringSet)

theorem collectFrom_of_le (beyond : tokens.length ≤ index) :
    collectFrom tokens ctes index = ctes := by
  rw [collectFrom, if_neg (Nat.not_lt.mpr beyond)]

theorem collectFrom_of_with (inside : index < tokens.length)
    (found : keywordAt tokens index "with" = true) :
    collectFrom tokens ctes index =
      collectFrom tokens (readCommonTables tokens ctes (commonTablesStart tokens index)).1
        ((readCommonTables tokens ctes (commonTablesStart tokens index)).2 + 1) := by
  rw [collectFrom, if_pos inside, if_pos found]

theorem collectFrom_of_other (inside : index < tokens.length)
    (other : keywordAt tokens index "with" = false) :
    collectFrom tokens ctes index = collectFrom tokens ctes (index + 1) := by
  rw [collectFrom, if_pos inside, if_neg (by simp [other])]

end Collecting

theorem collectFrom_shift :
    collectFrom (before ++ rest) ctes (before.length + index) = collectFrom rest ctes index := by
  induction left : rest.length - index using Nat.strong_induction_on generalizing ctes index with
  | h left hypothesis =>
      have start : commonTablesStart (before ++ rest) (before.length + index) =
          before.length + commonTablesStart rest index := by
        rw [commonTablesStart, commonTablesStart, Nat.add_assoc, keywordAt_shift]
        split <;> omega
      rcases Nat.lt_or_ge index rest.length with inside | beyond
      · have within : before.length + index < (before ++ rest).length := by
          rw [List.length_append]
          omega
        have forward := lt_commonTablesStart rest index
        have further := le_readCommonTables rest ctes (commonTablesStart rest index)
        have shifted := keywordAt_shift before rest index "with"
        cases found : keywordAt rest index "with" with
        | true =>
            rw [collectFrom_of_with ctes within (shifted.trans found),
              collectFrom_of_with ctes inside found, start, readCommonTables_shift, Nat.add_assoc]
            exact hypothesis _ (by omega) _ _ rfl
        | false =>
            rw [collectFrom_of_other ctes within (shifted.trans found),
              collectFrom_of_other ctes inside found, Nat.add_assoc]
            exact hypothesis _ (by omega) _ _ rfl
      · rw [collectFrom_of_le ctes beyond, collectFrom_of_le]
        rw [List.length_append]
        omega

end Positions

section Suffixes

variable (defaultSchema : String) (ctes : StringSet)

def scanRest (state : ScanState) (tokens : List DependencyToken) : ScanState :=
  scanDependencyFrom defaultSchema ctes tokens state 0

theorem scanDependencyFrom_eq_scanRest (tokens : List DependencyToken) (state : ScanState)
    (index : Nat) :
    scanDependencyFrom defaultSchema ctes tokens state index =
      scanRest defaultSchema ctes state (tokens.drop index) := by
  rcases Nat.le_total index tokens.length with inside | beyond
  · have parts : tokens = tokens.take index ++ tokens.drop index :=
      (List.take_append_drop index tokens).symm
    have length : (tokens.take index).length = index := List.length_take_of_le inside
    have shifted := scanDependencyFrom_shift (tokens.take index) (tokens.drop index) 0
      defaultSchema ctes state
    rw [← parts, length] at shifted
    exact shifted
  · rw [scanRest, List.drop_of_length_le beyond,
      scanDependencyFrom_of_none defaultSchema ctes state (List.getElem?_eq_none beyond),
      scanDependencyFrom_of_none defaultSchema ctes state rfl]

theorem scanRest_nil (state : ScanState) : scanRest defaultSchema ctes state [] = state :=
  scanDependencyFrom_of_none defaultSchema ctes state rfl

variable {state : ScanState}

theorem scanRest_cons (outside : state.expectRelation = false) (token : DependencyToken)
    (rest : List DependencyToken) :
    scanRest defaultSchema ctes state (token :: rest) =
      scanRest defaultSchema ctes (scanToken state token) rest := by
  rw [scanRest, ByIndex.scanDependencyFrom_of_getElem? defaultSchema ctes state rfl, outside,
    if_neg Bool.false_ne_true, scanDependencyFrom_eq_scanRest]
  rfl

theorem scanRest_consume (expected : state.expectRelation = true) (token : DependencyToken)
    (rest : List DependencyToken) :
    let consumed := consumeDependencyRelation defaultSchema ctes (token :: rest) 0
      state.relations
    scanRest defaultSchema ctes state (token :: rest) =
      scanRest defaultSchema ctes
        { state with
          relations := consumed.relations
          wildcard := state.wildcard || consumed.unknown
          expectRelation := false }
        ((token :: rest).drop (max consumed.next 1)) := by
  rw [scanRest, ByIndex.scanDependencyFrom_of_getElem? defaultSchema ctes state rfl, expected,
    if_pos rfl, scanDependencyFrom_eq_scanRest]

def collectRest (ctes : StringSet) (tokens : List DependencyToken) : StringSet :=
  collectFrom tokens ctes 0

theorem collectFrom_eq_collectRest (tokens : List DependencyToken) (index : Nat) :
    collectFrom tokens ctes index = collectRest ctes (tokens.drop index) := by
  rcases Nat.le_total index tokens.length with inside | beyond
  · have parts : tokens = tokens.take index ++ tokens.drop index :=
      (List.take_append_drop index tokens).symm
    have length : (tokens.take index).length = index := List.length_take_of_le inside
    have shifted := collectFrom_shift (tokens.take index) (tokens.drop index) 0 ctes
    rw [← parts, length] at shifted
    exact shifted
  · rw [collectRest, List.drop_of_length_le beyond, collectFrom_of_le ctes beyond,
      collectFrom_of_le ctes (Nat.zero_le 0)]

theorem collectRest_nil : collectRest ctes [] = ctes :=
  collectFrom_of_le ctes (Nat.le_refl _)

theorem collectRest_cons {token : DependencyToken}
    (other : dependencyTokenKeyword token "with" = false) (rest : List DependencyToken) :
    collectRest ctes (token :: rest) = collectRest ctes rest := by
  rw [collectRest, collectFrom_of_other ctes (Nat.succ_pos _)
    ((keywordAt_zero rest token "with").trans other), collectFrom_eq_collectRest]
  rfl

theorem collectRest_with {token : DependencyToken}
    (found : dependencyTokenKeyword token "with" = true) (rest : List DependencyToken) :
    let listed := readCommonTables (token :: rest) ctes (commonTablesStart (token :: rest) 0)
    collectRest ctes (token :: rest) =
      collectRest listed.1 ((token :: rest).drop (listed.2 + 1)) := by
  rw [collectRest, collectFrom_of_with ctes (Nat.succ_pos _)
    ((keywordAt_zero rest token "with").trans found), collectFrom_eq_collectRest]

end Suffixes

section Balance

/-- A list in which the parentheses match. -/
def Balanced (tokens : List DependencyToken) : Prop :=
  ∀ (rest : List DependencyToken) (depth cursor : Nat),
    balancedCloseFrom (tokens ++ rest) (depth + 1) cursor =
      balancedCloseFrom rest (depth + 1) (cursor + tokens.length)

theorem Balanced.nil : Balanced [] :=
  fun _ _ _ => rfl

theorem Balanced.append {first second : List DependencyToken} (left : Balanced first)
    (right : Balanced second) : Balanced (first ++ second) := by
  intro rest depth cursor
  rw [List.append_assoc, left, right, List.length_append, Nat.add_assoc]

theorem Balanced.cons {token : DependencyToken} {tokens : List DependencyToken}
    (opens : dependencyTokenValue token "(" = false)
    (closes : dependencyTokenValue token ")" = false) (balanced : Balanced tokens) :
    Balanced (token :: tokens) := by
  intro rest depth cursor
  rw [List.cons_append, balancedCloseFrom, opens, closes, if_neg Bool.false_ne_true,
    if_neg Bool.false_ne_true, balanced, List.length_cons, Nat.add_right_comm, Nat.add_assoc]

theorem Balanced.word {token : DependencyToken} {tokens : List DependencyToken}
    (word : token.symbol = false) (balanced : Balanced tokens) : Balanced (token :: tokens) :=
  balanced.cons (by rw [dependencyTokenValue, word]; rfl) (by rw [dependencyTokenValue, word]; rfl)

variable {opening closing : DependencyToken}

theorem not_open_of_close (closes : dependencyTokenValue closing ")" = true) :
    dependencyTokenValue closing "(" = false := by
  simp only [dependencyTokenValue, Bool.and_eq_true, decide_eq_true_eq] at closes
  simp [dependencyTokenValue, closes.2]

theorem Balanced.parens {inner tokens : List DependencyToken} (balanced : Balanced inner)
    (opens : dependencyTokenValue opening "(" = true)
    (closes : dependencyTokenValue closing ")" = true) (after : Balanced tokens) :
    Balanced (opening :: (inner ++ closing :: tokens)) := by
  intro rest depth cursor
  rw [List.cons_append, balancedCloseFrom, if_pos opens, List.append_assoc, balanced,
    List.cons_append, balancedCloseFrom, if_neg (by simp [not_open_of_close closes]), if_pos closes,
    Nat.add_sub_cancel, if_neg (Nat.succ_ne_zero depth), after]
  congr 1
  simp only [List.length_cons, List.length_append]
  omega

theorem Balanced.close {inner : List DependencyToken} (balanced : Balanced inner)
    (opens : dependencyTokenValue opening "(" = true)
    (closes : dependencyTokenValue closing ")" = true) (rest : List DependencyToken) :
    findDependencyBalancedClose (opening :: (inner ++ closing :: rest)) 0 =
      some (inner.length + 1) := by
  rw [findDependencyBalancedClose, valueAt_zero, if_pos opens, List.drop_zero, balancedCloseFrom,
    if_pos opens, balanced, balancedCloseFrom, if_neg (by simp [not_open_of_close closes]),
    if_pos closes, if_pos rfl]
  congr 1
  omega

end Balance

end PostgresSync.Pg
