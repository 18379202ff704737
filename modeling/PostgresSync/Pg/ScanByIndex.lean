import PostgresSync.Data.ByteRunes
import PostgresSync.Data.Checked
import PostgresSync.Pg.ScanBounds

namespace PostgresSync.Pg

open PostgresSync.Data
open PostgresSync.Shapes

/-! The scanner by index: the loops of the source over positions of the clause and of
its tokens, with every access checked. -/

namespace ByIndex

variable (fuel : Nat)

section Text

variable (clause : List Char)

def quotedRound (start : Nat) (state : List Char × Nat) :
    Checked (Round (List Char × Nat) (List Char × Nat × Bool)) :=
  let (builder, index) := state
  if index < clause.length then do
    let char ← readAt clause index
    if char = '"' then
      if ← testAt clause (index + 1) (· = '"') then
        return .again (builder ++ ['"'], index + 2)
      else
        return .done (builder, index + 1, true)
    else
      return .again (builder ++ [char], index + 1)
  else
    return .done ([], start, false)

def readQuotedDependencyIdentifier (start : Nat) : Checked (List Char × Nat × Bool) :=
  whileLoop (quotedRound clause start) fuel ([], start + 1)

def wordRound (index : Nat) : Checked (Round Nat Nat) := do
  if ← testAt clause index isDependencyWordPart then
    return .again (index + 1)
  else
    return .done index

def tokenizeRound (state : List DependencyToken × Nat) :
    Checked (Round (List DependencyToken × Nat) (List DependencyToken)) :=
  let (tokens, index) := state
  if index < clause.length then do
    let char ← readAt clause index
    if isDependencySpace char then
      return .again (tokens, index + 1)
    else if char = '"' then
      let (value, next, ok) ← readQuotedDependencyIdentifier fuel clause index
      if ok then
        return .again (tokens ++ [⟨String.ofList value, true, false⟩], next)
      else
        return .again (tokens ++ [⟨String.ofList [char], false, true⟩], index + 1)
    else if isDependencyWordStart char then
      let stop ← whileLoop (wordRound clause) fuel (index + 1)
      let word ← sliceOf clause index stop
      return .again (tokens ++ [⟨String.ofList word, false, false⟩], stop)
    else if isDependencySymbol char then
      return .again (tokens ++ [⟨String.ofList [char], false, true⟩], index + 1)
    else
      return .again (tokens, index + 1)
  else
    return .done tokens

def tokenizeDependencyClause : Checked (List DependencyToken) :=
  whileLoop (tokenizeRound fuel clause) fuel ([], 0)

end Text

section Positions

variable (tokens : List DependencyToken)

def balancedRound (state : Int × Nat) : Checked (Round (Int × Nat) (Option Nat)) :=
  let (depth, cursor) := state
  if cursor < tokens.length then do
    let token ← readAt tokens cursor
    if dependencyTokenValue token "(" then
      return .again (depth + 1, cursor + 1)
    else if dependencyTokenValue token ")" then
      if depth - 1 = 0 then
        return .done (some cursor)
      else
        return .again (depth - 1, cursor + 1)
    else
      return .again (depth, cursor + 1)
  else
    return .done none

def findDependencyBalancedClose (index : Nat) : Checked (Option Nat) := do
  if ← testAt tokens index (dependencyTokenValue · "(") then
    whileLoop (balancedRound tokens) fuel (0, index)
  else
    return none

def skipDependencyBalanced (index : Nat) : Checked Nat := do
  match ← findDependencyBalancedClose fuel tokens index with
  | none => return index + 1
  | some close => return close + 1

def skipOptionalList (index : Nat) : Checked Nat := do
  if ← testAt tokens index (dependencyTokenValue · "(") then
    skipDependencyBalanced fuel tokens index
  else
    return index

def skipDependencyAlias (index : Nat) : Checked Nat := do
  if ← testAt tokens index (dependencyTokenKeyword · "as") then
    let index := if ← testAt tokens (index + 1) dependencyTokenIdentifier then
      index + 2 else index + 1
    skipOptionalList fuel tokens index
  else if ← testAt tokens index fun token =>
      dependencyTokenIdentifier token && !dependencyAliasBoundary token then
    skipOptionalList fuel tokens (index + 1)
  else
    return index

/-! The names of common tables. -/

def commonTablesRound (state : StringSet × Nat) :
    Checked (Round (StringSet × Nat) (StringSet × Nat)) :=
  let (ctes, index) := state
  if index < tokens.length then do
    let token ← readAt tokens index
    if dependencyTokenIdentifier token then
      let ctes := ctes.insert (dependencyTokenName token)
      let index ← skipOptionalList fuel tokens (index + 1)
      let index := if ← testAt tokens index (dependencyTokenKeyword · "as") then
        index + 1 else index
      let index ← skipOptionalList fuel tokens index
      if ← testAt tokens index (dependencyTokenValue · ",") then
        return .again (ctes, index + 1)
      else
        return .done (ctes, index)
    else
      return .done (ctes, index)
  else
    return .done (ctes, index)

def collectRound (state : StringSet × Nat) : Checked (Round (StringSet × Nat) StringSet) :=
  let (ctes, index) := state
  if index < tokens.length then do
    let token ← readAt tokens index
    if dependencyTokenKeyword token "with" then
      let index := index + 1
      let index := if ← testAt tokens index (dependencyTokenKeyword · "recursive") then
        index + 1 else index
      let (ctes, index) ← whileLoop (commonTablesRound fuel tokens) fuel (ctes, index)
      return .again (ctes, index + 1)
    else
      return .again (ctes, index + 1)
  else
    return .done ctes

def collectDependencyCTENames : Checked StringSet :=
  whileLoop (collectRound fuel tokens) fuel (∅, 0)

end Positions

section Scan

variable (defaultSchema : String) (ctes : StringSet)

def readDependencyRelationReference (tokens : List DependencyToken) (index : Nat) :
    Checked (Option (Relation × Nat)) := do
  if ← testAt tokens index dependencyTokenIdentifier then
    let token ← readAt tokens index
    let first := dependencyTokenName token
    let next := index + 1
    let qualified ← if next + 1 < tokens.length then do
        if dependencyTokenValue (← readAt tokens next) "." then
          (readAt tokens (next + 1)).map dependencyTokenIdentifier
        else
          pure false
      else
        pure false
    if qualified then
      let second ← readAt tokens (next + 1)
      return some (⟨first, dependencyTokenName second⟩, next + 2)
    else if first ∈ ctes then
      return some (.empty, next)
    else
      return some (⟨defaultSchema, first⟩, next)
  else
    return none

def dependencyRelationFromTokens (tokens : List DependencyToken) :
    Checked (Option Relation) := do
  match ← readDependencyRelationReference defaultSchema ctes tokens 0 with
  | none => return none
  | some (relation, next) =>
      return if relation ≠ .empty ∧ next = tokens.length then some relation else none

def modifierRound (tokens : List DependencyToken) (index : Nat) : Checked (Round Nat Nat) := do
  if ← testAt tokens index fun token =>
      dependencyTokenKeyword token "only" || dependencyTokenKeyword token "lateral" then
    return .again (index + 1)
  else
    return .done index

/-- The scan of the tokens between parentheses: the relations then, and whether there is
something unknown. -/
abbrev InnerScan := List DependencyToken → Dict Relation → Checked (Dict Relation × Bool)

structure Outcome where
  next : Nat
  found : Bool
  unknown : Bool
  relations : Dict Relation

def consumeDependencyRelation (scan : InnerScan) (tokens : List DependencyToken) (start : Nat)
    (relations : Dict Relation) : Checked Outcome := do
  let index ← whileLoop (modifierRound tokens) fuel start
  if tokens.length ≤ index then
    return ⟨index, false, true, relations⟩
  else
    let token ← readAt tokens index
    if dependencyTokenValue token "(" then
      match ← findDependencyBalancedClose fuel tokens index with
      | none => return ⟨index + 1, false, true, relations⟩
      | some close =>
          let inner ← sliceOf tokens (index + 1) close
          match ← dependencyRelationFromTokens defaultSchema ctes inner with
          | some relation =>
              let next ← skipDependencyAlias fuel tokens (close + 1)
              return ⟨next, true, false,
                relations.insert (dependencyRelationKey relation) relation⟩
          | none =>
              let (relations, unknown) ← scan inner relations
              let next ← skipDependencyAlias fuel tokens (close + 1)
              return ⟨next, false, unknown, relations⟩
    else
      match ← readDependencyRelationReference defaultSchema ctes tokens index with
      | none => return ⟨index + 1, false, true, relations⟩
      | some (relation, next) =>
          if ← testAt tokens next (dependencyTokenValue · "(") then
            match ← findDependencyBalancedClose fuel tokens next with
            | none => return ⟨next + 1, false, true, relations⟩
            | some close =>
                let inner ← sliceOf tokens (next + 1) close
                let (relations, unknown) ← scan inner relations
                let next ← skipDependencyAlias fuel tokens (close + 1)
                return ⟨next, false, unknown, relations⟩
          else
            let next ← skipDependencyAlias fuel tokens next
            if relation = .empty then
              return ⟨next, false, false, relations⟩
            else
              return ⟨next, true, false,
                relations.insert (dependencyRelationKey relation) relation⟩

def scanRound (scan : InnerScan) (tokens : List DependencyToken) (state : ScanState × Nat) :
    Checked (Round (ScanState × Nat) (Dict Relation × Bool)) :=
  let (state, index) := state
  if index < tokens.length then do
    let token ← readAt tokens index
    if state.expectRelation then
      let outcome ← consumeDependencyRelation fuel defaultSchema ctes scan tokens index
        state.relations
      let state := { state with
        relations := outcome.relations
        wildcard := state.wildcard || outcome.unknown
        expectRelation := false }
      -- Both branches that do not move the index come to its increment.
      return .again (state, if index < outcome.next then outcome.next - 1 + 1 else index + 1)
    else
      return .again (scanToken state token, index + 1)
  else
    return .done (state.relations, state.wildcard)

/-- `nesting` bounds how deep the scans stand in each other. -/
def scanDependencyTokens : (nesting : Nat) → InnerScan
  | 0, _, _ => .error .outOfFuel
  | nesting + 1, tokens, relations =>
      whileLoop (scanRound fuel defaultSchema ctes (scanDependencyTokens nesting) tokens) fuel
        ({ relations := relations }, 0)

end Scan

/-! The loops over the text. -/

section Texts

variable {fuel} {clause : List Char}

theorem readQuotedDependencyIdentifier_isSuffix {text name rest : List Char}
    (read : Pg.readQuotedDependencyIdentifier text = some (name, rest)) : rest <:+ text := by
  fun_induction Pg.readQuotedDependencyIdentifier text generalizing name with
  | case1 => cases read
  | case2 tail hypothesis =>
      obtain ⟨⟨inner, after⟩, found, same⟩ := Option.map_eq_some_iff.mp read
      obtain ⟨_, rfl⟩ := Prod.mk.inj same
      exact (hypothesis found).trans ((List.suffix_cons _ _).trans (List.suffix_cons _ _))
  | case3 tail _ =>
      obtain ⟨_, rfl⟩ := Prod.mk.inj (Option.some.inj read)
      exact List.suffix_cons _ _
  | case4 char tail _ _ hypothesis =>
      obtain ⟨⟨inner, after⟩, found, same⟩ := Option.map_eq_some_iff.mp read
      obtain ⟨_, rfl⟩ := Prod.mk.inj same
      exact (hypothesis found).trans (List.suffix_cons _ _)

def quotedValue (clause : List Char) (start : Nat) (state : List Char × Nat) :
    List Char × Nat × Bool :=
  match Pg.readQuotedDependencyIdentifier (clause.drop state.2) with
  | none => ([], start, false)
  | some (name, rest) => (state.1 ++ name, clause.length - rest.length, true)

theorem drop_of_getElem? {items : List α} {index : Nat} {item : α}
    (found : items[index]? = some item) :
    index < items.length ∧ items.drop index = item :: items.drop (index + 1) := by
  obtain ⟨below, same⟩ := List.getElem?_eq_some_iff.mp found
  rw [← same]
  exact ⟨below, List.drop_eq_getElem_cons below⟩

theorem quotedRound_turns (start : Nat) (state : List Char × Nat) :
    Turns (fun _ => True) (fun state => clause.length - state.2)
      (quotedValue clause start) (quotedRound clause start) state := by
  obtain ⟨builder, index⟩ := state
  cases found : clause[index]? with
  | none =>
      have beyond := List.getElem?_eq_none_iff.mp found
      apply Turns.last (([], start, false))
      · simp [quotedRound, beyond]
      · simp [quotedValue, List.drop_eq_nil_of_le beyond, Pg.readQuotedDependencyIdentifier]
  | some char =>
      obtain ⟨below, text⟩ := drop_of_getElem? found
      by_cases quote : char = '"'
      · subst quote
        cases second : clause[index + 1]? with
        | none =>
            have rest : clause.drop (index + 1) = [] :=
              List.drop_eq_nil_of_le (List.getElem?_eq_none_iff.mp second)
            apply Turns.last ((builder, index + 1, true))
            · simp [quotedRound, below, readAt_of_getElem? found, second]
            · have length := List.getElem?_eq_none_iff.mp second
              simp [quotedValue, text, rest, Pg.readQuotedDependencyIdentifier]
              omega
        | some other =>
            obtain ⟨inner, after⟩ := drop_of_getElem? second
            by_cases doubled : other = '"'
            · subst doubled
              apply Turns.further ((builder ++ ['"'], index + 2))
              · simp [quotedRound, below, readAt_of_getElem? found, second]
              · trivial
              · show clause.length - (index + 2) < clause.length - index
                omega
              · simp only [quotedValue, text, after, Pg.readQuotedDependencyIdentifier]
                cases Pg.readQuotedDependencyIdentifier (clause.drop (index + 2)) <;> simp
            · apply Turns.last ((builder, index + 1, true))
              · simp [quotedRound, below, readAt_of_getElem? found, second, doubled]
              · simp [quotedValue, text, after, Pg.readQuotedDependencyIdentifier, doubled]
                omega
      · apply Turns.further ((builder ++ [char], index + 1))
        · simp [quotedRound, below, readAt_of_getElem? found, quote]
        · trivial
        · show clause.length - (index + 1) < clause.length - index
          omega
        · have read : Pg.readQuotedDependencyIdentifier (char :: clause.drop (index + 1)) =
              (Pg.readQuotedDependencyIdentifier (clause.drop (index + 1))).map
                fun read => (char :: read.1, read.2) := by
            simp [Pg.readQuotedDependencyIdentifier, quote]
          simp only [quotedValue, text, read]
          cases Pg.readQuotedDependencyIdentifier (clause.drop (index + 1)) <;> simp

theorem readQuotedDependencyIdentifier_eq (start : Nat) (enough : clause.length < fuel) :
    readQuotedDependencyIdentifier fuel clause start =
      .ok (quotedValue clause start ([], start + 1)) := by
  apply whileLoop_eq (fun state _ => quotedRound_turns start state)
  · trivial
  · show clause.length - (start + 1) < fuel
    omega

theorem wordRound_turns (index : Nat) :
    Turns (fun _ => True) (clause.length - ·)
      (fun index => index + ((clause.drop index).takeWhile isDependencyWordPart).length)
      (wordRound clause) index := by
  cases found : clause[index]? with
  | none =>
      apply Turns.last index
      · simp [wordRound, found]
      · simp [List.drop_eq_nil_of_le (List.getElem?_eq_none_iff.mp found)]
  | some char =>
      obtain ⟨below, text⟩ := drop_of_getElem? found
      cases part : isDependencyWordPart char with
      | true =>
          apply Turns.further (index + 1)
          · simp [wordRound, found, part]
          · trivial
          · show clause.length - (index + 1) < clause.length - index
            omega
          · simp only [text, List.takeWhile_cons, part, if_true, List.length_cons]
            omega
      | false =>
          apply Turns.last index
          · simp [wordRound, found, part]
          · simp [text, part]

theorem drop_takeWhile_length (keep : α → Bool) (items : List α) :
    items.drop (items.takeWhile keep).length = items.dropWhile keep := by
  calc items.drop (items.takeWhile keep).length
      = (items.takeWhile keep ++ items.dropWhile keep).drop (items.takeWhile keep).length := by
        rw [List.takeWhile_append_dropWhile]
    _ = items.dropWhile keep := List.drop_left

theorem word_eq {index : Nat} {char : Char} (found : clause[index]? = some char)
    (enough : clause.length < fuel) :
    ∃ stop, whileLoop (wordRound clause) fuel (index + 1) = .ok stop ∧ index < stop ∧
      sliceOf clause index stop =
        .ok (char :: (clause.drop (index + 1)).takeWhile isDependencyWordPart) ∧
      clause.drop stop = (clause.drop (index + 1)).dropWhile isDependencyWordPart := by
  obtain ⟨below, text⟩ := drop_of_getElem? found
  have walked : whileLoop (wordRound clause) fuel (index + 1) = .ok (index + 1 +
      ((clause.drop (index + 1)).takeWhile isDependencyWordPart).length) := by
    apply whileLoop_eq (fun state _ => wordRound_turns state)
    · trivial
    · show clause.length - (index + 1) < fuel
      omega
  have part := List.takeWhile_prefix isDependencyWordPart (l := clause.drop (index + 1))
  have short := part.length_le
  rw [List.length_drop] at short
  refine ⟨_, walked, by omega, ?_, ?_⟩
  · rw [sliceOf_eq (by omega) (by omega), List.drop_take, text,
      show ∀ k, index + 1 + k - index = k + 1 from fun k => by omega, List.take_succ_cons,
      ← List.prefix_iff_eq_take.mp part]
  · rw [← drop_takeWhile_length, List.drop_drop]

theorem drop_quoted {index : Nat} {name rest : List Char}
    (read : Pg.readQuotedDependencyIdentifier (clause.drop (index + 1)) = some (name, rest)) :
    index < clause.length - rest.length ∧ clause.drop (clause.length - rest.length) = rest := by
  have ends : rest <:+ clause :=
    (readQuotedDependencyIdentifier_isSuffix read).trans (List.drop_suffix _ _)
  have shorter := readQuotedDependencyIdentifier_length read
  rw [List.length_drop] at shorter
  exact ⟨by omega, (List.suffix_iff_eq_drop.mp ends).symm⟩

theorem tokenizeDependencyText_quote (rest : List Char) :
    tokenizeDependencyText ('"' :: rest) =
      match Pg.readQuotedDependencyIdentifier rest with
      | none => ⟨"\"", false, true⟩ :: tokenizeDependencyText rest
      | some (name, after) =>
          ⟨String.ofList name, true, false⟩ :: tokenizeDependencyText after := by
  have space : isDependencySpace '"' = false := by decide
  rw [tokenizeDependencyText]
  simp only [space, Bool.false_eq_true, if_false, if_true]
  split
  next read => simp [read]
  next name after read => simp [read]

theorem tokenizeRound_turns (enough : clause.length < fuel)
    (state : List DependencyToken × Nat) :
    Turns (fun _ => True) (fun state => clause.length - state.2)
      (fun state => state.1 ++ tokenizeDependencyText (clause.drop state.2))
      (tokenizeRound fuel clause) state := by
  obtain ⟨tokens, index⟩ := state
  cases found : clause[index]? with
  | none =>
      have beyond := List.getElem?_eq_none_iff.mp found
      apply Turns.last tokens
      · simp [tokenizeRound, beyond]
      · simp [List.drop_eq_nil_of_le beyond, tokenizeDependencyText]
  | some char =>
      obtain ⟨below, text⟩ := drop_of_getElem? found
      have next : clause.length - (index + 1) < clause.length - index := by omega
      cases space : isDependencySpace char with
      | true =>
          apply Turns.further (tokens, index + 1)
          · simp [tokenizeRound, below, readAt_of_getElem? found, space]
          · trivial
          · exact next
          · simp [text, tokenizeDependencyText, space]
      | false =>
          by_cases quote : char = '"'
          · subst quote
            have quoted := readQuotedDependencyIdentifier_eq index enough
            cases read : Pg.readQuotedDependencyIdentifier (clause.drop (index + 1)) with
            | none =>
                apply Turns.further (tokens ++ [⟨"\"", false, true⟩], index + 1)
                · simp [tokenizeRound, below, readAt_of_getElem? found, space, quoted,
                    quotedValue, read]
                · trivial
                · exact next
                · simp [text, tokenizeDependencyText_quote, read]
            | some pair =>
                obtain ⟨name, rest⟩ := pair
                obtain ⟨forward, after⟩ := drop_quoted read
                apply Turns.further
                  (tokens ++ [⟨String.ofList name, true, false⟩], clause.length - rest.length)
                · simp [tokenizeRound, below, readAt_of_getElem? found, space, quoted,
                    quotedValue, read]
                · trivial
                · show clause.length - (clause.length - rest.length) < clause.length - index
                  omega
                · simp [text, tokenizeDependencyText_quote, read, after]
          · cases word : isDependencyWordStart char with
            | true =>
                obtain ⟨stop, walked, forward, slice, after⟩ := word_eq found enough
                apply Turns.further (tokens ++ [⟨String.ofList (char ::
                  (clause.drop (index + 1)).takeWhile isDependencyWordPart), false, false⟩], stop)
                · simp [tokenizeRound, below, readAt_of_getElem? found, space, quote, word, walked,
                    slice]
                · trivial
                · show clause.length - stop < clause.length - index
                  omega
                · simp [text, tokenizeDependencyText, space, quote, word, after]
            | false =>
                cases symbol : isDependencySymbol char with
                | true =>
                    apply Turns.further (tokens ++ [⟨String.ofList [char], false, true⟩], index + 1)
                    · simp [tokenizeRound, below, readAt_of_getElem? found, space, quote, word,
                        symbol]
                    · trivial
                    · exact next
                    · simp [text, tokenizeDependencyText, space, quote, word, symbol]
                | false =>
                    apply Turns.further (tokens, index + 1)
                    · simp [tokenizeRound, below, readAt_of_getElem? found, space, quote, word,
                        symbol]
                    · trivial
                    · exact next
                    · simp [text, tokenizeDependencyText, space, quote, word, symbol]

theorem tokenizeDependencyClause_eq (enough : clause.length < fuel) :
    tokenizeDependencyClause fuel clause = .ok (tokenizeDependencyText clause) := by
  show whileLoop _ fuel ([], 0) = .ok ([] ++ tokenizeDependencyText (clause.drop 0))
  apply whileLoop_eq (fun state _ => tokenizeRound_turns enough state)
  · trivial
  · exact enough

end Texts

/-! The loops over the tokens. -/

section Tokens

variable {fuel} {tokens : List DependencyToken}

theorem balancedRound_turns (state : Int × Nat)
    (begun : 0 < state.1 ∨ state.1 = 0 ∧ valueAt tokens state.2 "(" = true) :
    Turns (fun state => 0 < state.1 ∨ state.1 = 0 ∧ valueAt tokens state.2 "(" = true)
      (fun state => tokens.length - state.2)
      (fun state => balancedCloseFrom (tokens.drop state.2) state.1.toNat state.2)
      (balancedRound tokens) state := by
  obtain ⟨depth, cursor⟩ := state
  dsimp only at begun
  cases found : tokens[cursor]? with
  | none =>
      have beyond := List.getElem?_eq_none_iff.mp found
      apply Turns.last none
      · simp [balancedRound, beyond]
      · simp [List.drop_eq_nil_of_le beyond, balancedCloseFrom]
  | some token =>
      obtain ⟨below, rest⟩ := drop_of_getElem? found
      have next : tokens.length - (cursor + 1) < tokens.length - cursor := by omega
      have opens : valueAt tokens cursor "(" = dependencyTokenValue token "(" := by
        simp [valueAt, found]
      rw [opens] at begun
      cases opening : dependencyTokenValue token "(" with
      | true =>
          have deeper : (depth + 1).toNat = depth.toNat + 1 := by omega
          apply Turns.further (depth + 1, cursor + 1)
          · simp [balancedRound, below, readAt_of_getElem? found, opening]
          · left
            show 0 < depth + 1
            omega
          · exact next
          · simp [rest, balancedCloseFrom, opening, deeper]
      | false =>
          have inside : 0 < depth := by simpa [opening] using begun
          cases closing : dependencyTokenValue token ")" with
          | true =>
              have shallower : (depth - 1).toNat = depth.toNat - 1 := by omega
              by_cases last : depth - 1 = 0
              · have zero : depth.toNat - 1 = 0 := by omega
                apply Turns.last (some cursor)
                · simp [balancedRound, below, readAt_of_getElem? found, opening, closing, last]
                · simp [rest, balancedCloseFrom, opening, closing, zero]
              · have more : depth.toNat - 1 ≠ 0 := by omega
                apply Turns.further (depth - 1, cursor + 1)
                · simp [balancedRound, below, readAt_of_getElem? found, opening, closing, last]
                · left
                  show 0 < depth - 1
                  omega
                · exact next
                · simp [rest, balancedCloseFrom, opening, closing, more, shallower]
          | false =>
              apply Turns.further (depth, cursor + 1)
              · simp [balancedRound, below, readAt_of_getElem? found, opening, closing]
              · exact .inl inside
              · exact next
              · simp [rest, balancedCloseFrom, opening, closing]

variable (enough : tokens.length < fuel) (index : Nat)
include enough

theorem findDependencyBalancedClose_eq :
    findDependencyBalancedClose fuel tokens index =
      .ok (Pg.findDependencyBalancedClose tokens index) := by
  unfold findDependencyBalancedClose Pg.findDependencyBalancedClose
  rw [testAt_eq, ok_bind]
  cases opening : valueAt tokens index "(" with
  | true =>
      have walked : whileLoop (balancedRound tokens) fuel (0, index) =
          .ok (balancedCloseFrom (tokens.drop index) 0 index) := by
        apply whileLoop_eq balancedRound_turns
        · exact .inr ⟨rfl, opening⟩
        · show tokens.length - index < fuel
          omega
      rw [valueAt] at opening
      simp [opening, walked]
  | false =>
      rw [valueAt] at opening
      simp [opening]

theorem skipDependencyBalanced_eq :
    skipDependencyBalanced fuel tokens index =
      .ok (Pg.skipDependencyBalanced tokens index) := by
  unfold skipDependencyBalanced Pg.skipDependencyBalanced
  rw [findDependencyBalancedClose_eq enough, ok_bind]
  cases Pg.findDependencyBalancedClose tokens index <;> rfl

theorem skipOptionalList_eq :
    skipOptionalList fuel tokens index = .ok (Pg.skipOptionalList tokens index) := by
  unfold skipOptionalList Pg.skipOptionalList valueAt
  rw [testAt_eq, ok_bind]
  split
  next => exact skipDependencyBalanced_eq enough index
  next => rfl

theorem skipDependencyAlias_eq :
    skipDependencyAlias fuel tokens index = .ok (Pg.skipDependencyAlias tokens index) := by
  unfold skipDependencyAlias Pg.skipDependencyAlias keywordAt identifierAt
  simp only [testAt_eq, ok_bind, skipOptionalList_eq enough]
  split
  next => rfl
  next =>
    split
    next => rfl
    next => rfl

/-! The names of common tables. -/

omit enough in
theorem readCommonTables_of_getElem? {index : Nat} (ctes : StringSet) {token : DependencyToken}
    (found : tokens[index]? = some token) :
    readCommonTables tokens ctes index =
      if dependencyTokenIdentifier token then
        if valueAt tokens (afterCommonTable tokens (index + 1)) "," then
          readCommonTables tokens (ctes.insert (dependencyTokenName token))
            (afterCommonTable tokens (index + 1) + 1)
        else
          (ctes.insert (dependencyTokenName token), afterCommonTable tokens (index + 1))
      else
        (ctes, index) := by
  rw [readCommonTables]
  split
  next missing =>
    rw [found] at missing
    cases missing
  next other same =>
    obtain rfl := Option.some.inj (found.symm.trans same)
    rfl

omit enough in
theorem readCommonTables_of_none {index : Nat} (ctes : StringSet)
    (missing : tokens[index]? = none) : readCommonTables tokens ctes index = (ctes, index) := by
  rw [readCommonTables]
  split
  next => rfl
  next other same =>
    rw [missing] at same
    cases same

theorem commonTablesRound_turns (state : StringSet × Nat) :
    Turns (fun _ => True) (fun state => tokens.length - state.2)
      (fun state => readCommonTables tokens state.1 state.2)
      (commonTablesRound fuel tokens) state := by
  obtain ⟨ctes, index⟩ := state
  cases found : tokens[index]? with
  | none =>
      have beyond := List.getElem?_eq_none_iff.mp found
      apply Turns.last (ctes, index)
      · simp [commonTablesRound, beyond]
      · exact readCommonTables_of_none ctes found
  | some token =>
      have below := (List.getElem?_eq_some_iff.mp found).1
      have value := readCommonTables_of_getElem? ctes found
      have forward := le_afterCommonTable tokens (index + 1)
      cases identifier : dependencyTokenIdentifier token with
      | true =>
          have run : commonTablesRound fuel tokens (ctes, index) =
              if valueAt tokens (afterCommonTable tokens (index + 1)) "," then
                .ok (.again (ctes.insert (dependencyTokenName token),
                  afterCommonTable tokens (index + 1) + 1))
              else
                .ok (.done (ctes.insert (dependencyTokenName token),
                  afterCommonTable tokens (index + 1))) := by
            simp only [commonTablesRound, if_pos below, readAt_of_getElem? found, ok_bind,
              identifier, if_true, skipOptionalList_eq enough, testAt_eq]
            rfl
          simp only [identifier, if_true] at value
          cases comma : valueAt tokens (afterCommonTable tokens (index + 1)) "," with
          | true =>
              simp only [comma, if_true] at run value
              apply Turns.further _ run
              · trivial
              · show tokens.length - (afterCommonTable tokens (index + 1) + 1) <
                  tokens.length - index
                omega
              · exact value
          | false =>
              simp only [comma, Bool.false_eq_true, if_false] at run value
              exact Turns.last _ run value
      | false =>
          simp only [identifier, Bool.false_eq_true, if_false] at value
          apply Turns.last (ctes, index)
          · simp [commonTablesRound, below, readAt_of_getElem? found, identifier]
          · exact value

theorem collectRound_turns (state : StringSet × Nat) :
    Turns (fun _ => True) (fun state => tokens.length - state.2)
      (fun state => collectFrom tokens state.1 state.2) (collectRound fuel tokens) state := by
  obtain ⟨ctes, index⟩ := state
  cases found : tokens[index]? with
  | none =>
      have beyond := List.getElem?_eq_none_iff.mp found
      apply Turns.last ctes
      · simp [collectRound, beyond]
      · show collectFrom tokens ctes index = ctes
        rw [collectFrom, if_neg (Nat.not_lt.mpr beyond)]
  | some token =>
      have below := (List.getElem?_eq_some_iff.mp found).1
      have keyword : keywordAt tokens index "with" = dependencyTokenKeyword token "with" := by
        simp [keywordAt, found]
      have value : collectFrom tokens ctes index =
          if dependencyTokenKeyword token "with" then
            let listed := readCommonTables tokens ctes (commonTablesStart tokens index)
            collectFrom tokens listed.1 (listed.2 + 1)
          else
            collectFrom tokens ctes (index + 1) := by
        rw [collectFrom, if_pos below, keyword]
      cases introduces : dependencyTokenKeyword token "with" with
      | true =>
          have listed : ∀ start, whileLoop (commonTablesRound fuel tokens) fuel (ctes, start) =
              .ok (readCommonTables tokens ctes start) := by
            intro start
            apply whileLoop_eq fun state _ => commonTablesRound_turns enough state
            · trivial
            · show tokens.length - start < fuel
              omega
          have forward := le_readCommonTables tokens ctes (commonTablesStart tokens index)
          have started := lt_commonTablesStart tokens index
          simp only [introduces, if_true] at value
          apply Turns.further
            ((readCommonTables tokens ctes (commonTablesStart tokens index)).1,
              (readCommonTables tokens ctes (commonTablesStart tokens index)).2 + 1)
          · simp only [collectRound, if_pos below, readAt_of_getElem? found, ok_bind, introduces,
              if_true, testAt_eq, listed]
            rfl
          · trivial
          · dsimp only
            omega
          · exact value
      | false =>
          simp only [introduces, Bool.false_eq_true, if_false] at value
          apply Turns.further (ctes, index + 1)
          · simp [collectRound, below, readAt_of_getElem? found, introduces]
          · trivial
          · dsimp only
            omega
          · exact value

omit index in
theorem collectDependencyCTENames_eq :
    collectDependencyCTENames fuel tokens = .ok (Pg.collectDependencyCTENames tokens) := by
  apply whileLoop_eq fun state _ => collectRound_turns enough state
  · trivial
  · exact enough

end Tokens

/-! The scan. -/

section Scans

variable {fuel} (defaultSchema : String) (ctes : StringSet)

theorem readDependencyRelationReference_eq (tokens : List DependencyToken) (index : Nat) :
    readDependencyRelationReference defaultSchema ctes tokens index =
      .ok (Pg.readDependencyRelationReference tokens defaultSchema ctes index) := by
  unfold readDependencyRelationReference Pg.readDependencyRelationReference
  rw [testAt_eq, ok_bind]
  cases found : tokens[index]? with
  | none => rfl
  | some token =>
      cases identifier : dependencyTokenIdentifier token with
      | false => simp [identifier, Option.filter]
      | true =>
          simp only [Option.any_some, identifier, if_true, readAt_of_getElem? found, ok_bind,
            Option.filter_some]
          cases after : tokens[index + 2]? with
          | none =>
              have beyond := List.getElem?_eq_none_iff.mp after
              rw [if_neg (by omega)]
              simp only [checked_pure, ok_bind, Bool.false_eq_true, if_false, Option.filter_none,
                ite_self]
              split <;> rfl
          | some second =>
              have below := (List.getElem?_eq_some_iff.mp after).1
              have inside : index + 1 < tokens.length := by omega
              have point := List.getElem?_eq_getElem inside
              rw [if_pos below, readAt_of_getElem? point, ok_bind,
                readAt_of_getElem? after, valueAt, point, Option.any_some]
              cases dependencyTokenValue tokens[index + 1] "." with
              | false =>
                  simp only [checked_pure, ok_bind, Bool.false_eq_true, if_false]
                  split <;> rfl
              | true =>
                  cases qualifies : dependencyTokenIdentifier second with
                  | false =>
                      simp only [if_true, Except.map, qualifies, ok_bind, Bool.false_eq_true,
                        if_false, Option.filter_some, checked_pure]
                      split <;> rfl
                  | true =>
                      simp only [if_true, Except.map, qualifies, ok_bind, Option.filter_some,
                        checked_pure]

theorem dependencyRelationFromTokens_eq (tokens : List DependencyToken) :
    dependencyRelationFromTokens defaultSchema ctes tokens =
      .ok (Pg.dependencyRelationFromTokens tokens defaultSchema ctes) := by
  unfold dependencyRelationFromTokens Pg.dependencyRelationFromTokens
  rw [readDependencyRelationReference_eq, ok_bind]
  cases Pg.readDependencyRelationReference tokens defaultSchema ctes 0 <;> rfl

variable {tokens : List DependencyToken}

theorem modifierRound_turns (index : Nat) :
    Turns (fun _ => True) (tokens.length - ·) (skipTableModifiers tokens)
      (modifierRound tokens) index := by
  cases found : tokens[index]? with
  | none =>
      have beyond := List.getElem?_eq_none_iff.mp found
      apply Turns.last index
      · simp [modifierRound, found]
      · rw [skipTableModifiers, if_neg]
        intro modifier
        omega
  | some token =>
      have below := (List.getElem?_eq_some_iff.mp found).1
      cases modifier : dependencyTokenKeyword token "only" ||
          dependencyTokenKeyword token "lateral" with
      | true =>
          apply Turns.further (index + 1)
          · simp only [modifierRound, testAt_eq, found, Option.any_some, modifier, ok_bind,
              if_true, checked_pure]
          · trivial
          · show tokens.length - (index + 1) < tokens.length - index
            omega
          · rw [skipTableModifiers, if_pos]
            exact ⟨below, by simpa [keywordAt, found] using modifier⟩
      | false =>
          apply Turns.last index
          · simp only [modifierRound, testAt_eq, found, Option.any_some, modifier, ok_bind,
              Bool.false_eq_true, if_false, checked_pure]
          · rw [skipTableModifiers, if_neg]
            rintro ⟨_, keyword⟩
            rw [keywordAt, keywordAt, found] at keyword
            simp_all

theorem consumeDependencyRelation_eq (enough : tokens.length < fuel) {scan : InnerScan}
    (scans : ∀ inner relations, inner.length < tokens.length →
      scan inner relations = .ok (Pg.scanDependencyTokens defaultSchema ctes inner relations))
    (index : Nat) (relations : Dict Relation) :
    let consumed := Pg.consumeDependencyRelation defaultSchema ctes tokens index relations
    ∃ found, consumeDependencyRelation fuel defaultSchema ctes scan tokens index relations =
      .ok ⟨consumed.next, found, consumed.unknown, consumed.relations⟩ := by
  have modifiers : whileLoop (modifierRound tokens) fuel index =
      .ok (skipTableModifiers tokens index) := by
    apply whileLoop_eq fun state _ => modifierRound_turns state
    · trivial
    · show tokens.length - index < fuel
      omega
  have slice : ∀ start close, start < close → close < tokens.length →
      sliceOf tokens (start + 1) close = .ok (tokensBetween tokens (start + 1) close) :=
    fun start close before inside => sliceOf_eq before inside.le
  unfold consumeDependencyRelation
  rw [Pg.consumeDependencyRelation]
  rw [modifiers, ok_bind]
  generalize skipTableModifiers tokens index = position
  dsimp only
  by_cases ended : tokens.length ≤ position
  · rw [if_pos ended, if_pos ended]
    exact ⟨false, rfl⟩
  · have inside := Nat.lt_of_not_le ended
    have present := List.getElem?_eq_getElem inside
    have opening : valueAt tokens position "(" = dependencyTokenValue tokens[position] "(" := by
      rw [valueAt, present, Option.any_some]
    rw [if_neg ended, if_neg ended, readAt_of_getElem? present, ok_bind, opening]
    cases dependencyTokenValue tokens[position] "(" with
    | true =>
        rw [if_pos rfl, if_pos rfl, findDependencyBalancedClose_eq enough, ok_bind]
        cases closing : Pg.findDependencyBalancedClose tokens position with
        | none => exact ⟨false, rfl⟩
        | some close =>
            obtain ⟨before, within⟩ := findDependencyBalancedClose_bounds closing
            dsimp only
            rw [slice position close before within, ok_bind, dependencyRelationFromTokens_eq,
              ok_bind]
            cases Pg.dependencyRelationFromTokens (tokensBetween tokens (position + 1) close)
                defaultSchema ctes with
            | some relation =>
                dsimp only
                rw [skipDependencyAlias_eq enough, ok_bind]
                exact ⟨true, rfl⟩
            | none =>
                dsimp only
                rw [scans _ _ (tokensBetween_length_lt inside), ok_bind,
                  skipDependencyAlias_eq enough, ok_bind]
                exact ⟨false, rfl⟩
    | false =>
        rw [if_neg Bool.false_ne_true, if_neg Bool.false_ne_true,
          readDependencyRelationReference_eq, ok_bind]
        cases reading : Pg.readDependencyRelationReference tokens defaultSchema ctes position with
        | none => exact ⟨false, rfl⟩
        | some reference =>
            obtain ⟨relation, next⟩ := reference
            dsimp only
            rw [testAt_eq, ok_bind, ← valueAt]
            cases listing : valueAt tokens next "(" with
            | true =>
                rw [if_pos rfl, if_pos rfl, findDependencyBalancedClose_eq enough, ok_bind]
                cases closing : Pg.findDependencyBalancedClose tokens next with
                | none => exact ⟨false, rfl⟩
                | some close =>
                    obtain ⟨before, within⟩ := findDependencyBalancedClose_bounds closing
                    dsimp only
                    rw [slice next close before within, ok_bind,
                      scans _ _ (tokensBetween_length_lt (valueAt_lt listing)), ok_bind,
                      skipDependencyAlias_eq enough, ok_bind]
                    exact ⟨false, rfl⟩
            | false =>
                rw [if_neg Bool.false_ne_true, if_neg Bool.false_ne_true,
                  skipDependencyAlias_eq enough, ok_bind]
                split
                next => exact ⟨false, rfl⟩
                next => exact ⟨true, rfl⟩

theorem scanDependencyFrom_of_getElem? {index : Nat} (state : ScanState) {token : DependencyToken}
    (found : tokens[index]? = some token) :
    scanDependencyFrom defaultSchema ctes tokens state index =
      if state.expectRelation then
        let consumed := Pg.consumeDependencyRelation defaultSchema ctes tokens index
          state.relations
        scanDependencyFrom defaultSchema ctes tokens
          { state with
            relations := consumed.relations
            wildcard := state.wildcard || consumed.unknown
            expectRelation := false }
          (max consumed.next (index + 1))
      else
        scanDependencyFrom defaultSchema ctes tokens (scanToken state token) (index + 1) := by
  rw [scanDependencyFrom]
  split
  next missing =>
    rw [found] at missing
    cases missing
  next other present =>
    obtain rfl := Option.some.inj (found.symm.trans present)
    rfl

/-- The scans between parentheses are over shorter lists, so others that agree on those do as
well. -/
theorem consumeDependencyRelation_congr {scan other : InnerScan}
    (agree : ∀ inner relations, inner.length < tokens.length →
      scan inner relations = other inner relations) (index : Nat) (relations : Dict Relation) :
    consumeDependencyRelation fuel defaultSchema ctes scan tokens index relations =
      consumeDependencyRelation fuel defaultSchema ctes other tokens index relations := by
  unfold consumeDependencyRelation
  apply bind_congr_ok
  intro position _
  split
  next => rfl
  next =>
    apply bind_congr_ok
    intro token _
    split
    next =>
      apply bind_congr_ok
      intro closing _
      cases closing with
      | none => rfl
      | some close =>
          apply bind_congr_ok
          intro inner sliced
          rw [agree inner relations (length_sliceOf_lt sliced)]
    next =>
      apply bind_congr_ok
      intro reference _
      cases reference with
      | none => rfl
      | some reference =>
          apply bind_congr_ok
          intro listed _
          split
          next =>
            apply bind_congr_ok
            intro closing _
            cases closing with
            | none => rfl
            | some close =>
                apply bind_congr_ok
                intro inner sliced
                rw [agree inner relations (length_sliceOf_lt sliced)]
          next => rfl

theorem scanRound_turns (enough : tokens.length < fuel) {scan : InnerScan}
    (scans : ∀ inner relations, inner.length < tokens.length →
      scan inner relations = .ok (Pg.scanDependencyTokens defaultSchema ctes inner relations))
    (state : ScanState × Nat) :
    Turns (fun _ => True) (fun state => tokens.length - state.2)
      (fun state =>
        let scanned := scanDependencyFrom defaultSchema ctes tokens state.1 state.2
        (scanned.relations, scanned.wildcard))
      (scanRound fuel defaultSchema ctes scan tokens) state := by
  obtain ⟨state, index⟩ := state
  cases found : tokens[index]? with
  | none =>
      have beyond := List.getElem?_eq_none_iff.mp found
      have value : scanDependencyFrom defaultSchema ctes tokens state index = state := by
        rw [scanDependencyFrom]
        split
        next => rfl
        next other present =>
          rw [found] at present
          cases present
      apply Turns.last (state.relations, state.wildcard)
      · simp [scanRound, beyond]
      · dsimp only
        rw [value]
  | some token =>
      have below := (List.getElem?_eq_some_iff.mp found).1
      have value := scanDependencyFrom_of_getElem? defaultSchema ctes state found
      cases expects : state.expectRelation with
      | true =>
          obtain ⟨isFound, consumed⟩ := consumeDependencyRelation_eq defaultSchema ctes enough
            scans index state.relations
          obtain ⟨forward, _⟩ := consumeDependencyRelation_bounds defaultSchema ctes below
            state.relations
          simp only [expects, if_true] at value
          apply Turns.further ({ state with
            relations := (Pg.consumeDependencyRelation defaultSchema ctes tokens index
              state.relations).relations
            wildcard := state.wildcard || (Pg.consumeDependencyRelation defaultSchema ctes tokens
              index state.relations).unknown
            expectRelation := false },
            max (Pg.consumeDependencyRelation defaultSchema ctes tokens index
              state.relations).next (index + 1))
          · simp only [scanRound, if_pos below, readAt_of_getElem? found, ok_bind, expects,
              if_true, consumed, if_pos forward, checked_pure]
            rw [max_eq_left forward, Nat.sub_add_cancel (by omega)]
          · trivial
          · dsimp only
            omega
          · dsimp only
            rw [value]
      | false =>
          simp only [expects, Bool.false_eq_true, if_false] at value
          apply Turns.further (scanToken state token, index + 1)
          · simp [scanRound, below, readAt_of_getElem? found, expects]
          · trivial
          · dsimp only
            omega
          · dsimp only
            rw [value]

theorem scanDependencyTokens_eq {nesting : Nat} (nested : tokens.length < nesting)
    (enough : tokens.length < fuel) (relations : Dict Relation) :
    scanDependencyTokens fuel defaultSchema ctes nesting tokens relations =
      .ok (Pg.scanDependencyTokens defaultSchema ctes tokens relations) := by
  induction nesting generalizing tokens relations with
  | zero => exact absurd nested (Nat.not_lt_zero _)
  | succ nesting hypothesis =>
      have scans : ∀ inner relations, inner.length < tokens.length →
          scanDependencyTokens fuel defaultSchema ctes nesting inner relations =
            .ok (Pg.scanDependencyTokens defaultSchema ctes inner relations) := by
        intro inner relations shorter
        exact hypothesis (by omega) (by omega) relations
      rw [scanDependencyTokens]
      apply whileLoop_eq fun state _ => scanRound_turns defaultSchema ctes enough scans state
      · trivial
      · exact enough

end Scans

/-- A scan that refuses lists as long as the one it is called from. -/
def shorterThan (tokens : List DependencyToken) (scan : InnerScan) : InnerScan :=
  fun inner relations =>
    if inner.length < tokens.length then scan inner relations else .error .outOfFuel

theorem length_tokenizeDependencyText_le (text : List Char) :
    (tokenizeDependencyText text).length ≤ text.length := by
  fun_induction tokenizeDependencyText text with
  | case1 => simp
  | case2 char rest space hypothesis =>
      rw [List.length_cons]
      omega
  | case3 rest read _ hypothesis =>
      simp only [List.length_cons]
      omega
  | case4 rest name after read _ hypothesis =>
      have shorter := readQuotedDependencyIdentifier_length read
      simp only [List.length_cons]
      omega
  | case5 char rest _ _ word hypothesis =>
      have shorter := List.length_dropWhile_le isDependencyWordPart rest
      simp only [List.length_cons]
      omega
  | case6 char rest _ _ _ symbol hypothesis =>
      simp only [List.length_cons]
      omega
  | case7 char rest _ _ _ _ hypothesis =>
      rw [List.length_cons]
      omega

/-- The scanner comes to an end on every byte string, and reads and slices within its
bounds.  A table position is always left behind, the scans between parentheses are over
shorter lists, and a parenthesis is always skipped. -/
theorem clause_scanner_total :
    (∀ (clause : List UInt8) (defaultSchema : String) (fuel : Nat), clause.length < fuel →
      let text := clause.map byteRune
      let tokens := tokenizeDependencyText text
      let ctes := Pg.collectDependencyCTENames tokens
      tokenizeDependencyClause fuel text = .ok tokens ∧
        collectDependencyCTENames fuel tokens = .ok ctes ∧
        scanDependencyTokens fuel defaultSchema ctes fuel tokens ∅ =
          .ok (Pg.scanDependencyTokens defaultSchema ctes tokens ∅)) ∧
    (∀ (tokens : List DependencyToken) (defaultSchema : String) (ctes : StringSet)
        (index : Nat) (relations : Dict Relation) (fuel : Nat),
      index < tokens.length → tokens.length < fuel →
      let scan := scanDependencyTokens fuel defaultSchema ctes fuel
      ∃ outcome,
        consumeDependencyRelation fuel defaultSchema ctes scan tokens index relations =
          .ok outcome ∧
        consumeDependencyRelation fuel defaultSchema ctes (shorterThan tokens scan) tokens index
          relations = .ok outcome ∧
        index < outcome.next ∧ outcome.next ≤ tokens.length) ∧
    ∀ (tokens : List DependencyToken) (index fuel : Nat),
      index < tokens.length → tokens.length < fuel →
      ∃ next, skipDependencyBalanced fuel tokens index = .ok next ∧
        index < next ∧ next ≤ tokens.length := by
  refine ⟨fun clause defaultSchema fuel enough => ?_,
    fun tokens defaultSchema ctes index relations fuel inside enough => ?_,
    fun tokens index fuel inside enough => ?_⟩
  · intro text tokens ctes
    have length : text.length < fuel := by simpa [text] using enough
    have shorter : tokens.length < fuel := (length_tokenizeDependencyText_le text).trans_lt length
    exact ⟨tokenizeDependencyClause_eq length, collectDependencyCTENames_eq shorter,
      scanDependencyTokens_eq defaultSchema ctes shorter shorter ∅⟩
  · intro scan
    have scans : ∀ inner relations, inner.length < tokens.length →
        scan inner relations =
          .ok (Pg.scanDependencyTokens defaultSchema ctes inner relations) := by
      intro inner relations shorter
      exact scanDependencyTokens_eq defaultSchema ctes (by omega) (by omega) relations
    obtain ⟨isFound, consumed⟩ := consumeDependencyRelation_eq defaultSchema ctes enough scans
      index relations
    refine ⟨_, consumed, ?_, consumeDependencyRelation_bounds defaultSchema ctes inside relations⟩
    rw [← consumed]
    apply consumeDependencyRelation_congr
    intro inner relations shorter
    exact if_pos shorter
  · exact ⟨_, skipDependencyBalanced_eq enough index, lt_skipDependencyBalanced,
      skipDependencyBalanced_le inside⟩

/-- `id in (select x from (only "t`: parentheses and a quote that nothing closes. -/
def truncatedClause : List UInt8 := "id in (select x from (only \"t".toUTF8.toList

def truncatedTokens : List DependencyToken :=
  [⟨"id", false, false⟩, ⟨"in", false, false⟩, ⟨"(", false, true⟩, ⟨"select", false, false⟩,
    ⟨"x", false, false⟩, ⟨"from", false, false⟩, ⟨"(", false, true⟩, ⟨"only", false, false⟩,
    ⟨"\"", false, true⟩, ⟨"t", false, false⟩]

theorem clause_scanner_total_truncated :
    tokenizeDependencyClause 64 (truncatedClause.map byteRune) = .ok truncatedTokens ∧
      tokenizeDependencyClause 64 (truncatedClause.map byteRune) =
        .ok (tokenizeDependencyText (truncatedClause.map byteRune)) ∧
      (∃ outcome, consumeDependencyRelation 64 "public" ∅
        (scanDependencyTokens 64 "public" ∅ 64) truncatedTokens 6 ∅ = .ok outcome ∧
          6 < outcome.next ∧ outcome.next ≤ truncatedTokens.length) ∧
      ∃ next, skipDependencyBalanced 64 truncatedTokens 2 = .ok next ∧
        2 < next ∧ next ≤ truncatedTokens.length := by
  obtain ⟨outcome, consumed, _, bounds⟩ := clause_scanner_total.2.1 truncatedTokens "public" ∅ 6
    ∅ 64 (by decide) (by decide)
  exact ⟨by decide +kernel,
    (clause_scanner_total.1 truncatedClause "public" 64 (by decide +kernel)).1,
    ⟨outcome, consumed, bounds⟩,
    clause_scanner_total.2.2 truncatedTokens 2 64 (by decide) (by decide)⟩

end ByIndex

end PostgresSync.Pg
