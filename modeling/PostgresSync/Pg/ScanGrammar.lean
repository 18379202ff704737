import PostgresSync.Pg.ClauseSyntax
import PostgresSync.Pg.ScanSuffix

namespace PostgresSync.Pg

open PostgresSync.Data

/-! The scanner on the tokens of a clause, tree by tree. -/

section Leaves

theorem lowerWord_eq_empty {word : String} : lowerWord word = "" ↔ word = "" := by
  rw [lowerWord, ← String.toList_inj, String.toList_ofList, String.toList_empty,
    List.map_eq_nil_iff, String.toList_eq_nil_iff]

theorem dependencyTokenValue_of_word {token : DependencyToken} (word : token.symbol = false)
    (value : String) : dependencyTokenValue token value = false := by
  rw [dependencyTokenValue, word, Bool.false_and]

section Keywords

variable {word : String} (keyword : Keyword word)

theorem Keyword.spelled_ne (some : word ≠ "") : keyword.spelled ≠ "" := by
  intro empty
  apply some
  rw [← keyword.folds]
  exact lowerWord_eq_empty.mpr empty

theorem Keyword.isKeyword (some : word ≠ "") (other : String) :
    dependencyTokenKeyword keyword.token other = decide (word = other) := by
  simp [dependencyTokenKeyword, dependencyTokenIdentifier, Keyword.token,
    keyword.spelled_ne some, keyword.folds]

theorem Keyword.isBoundary (some : word ≠ "") :
    dependencyFromBoundary keyword.token = decide (word ∈ fromEnds) := by
  simp [dependencyFromBoundary, dependencyTokenIdentifier, Keyword.token,
    keyword.spelled_ne some, keyword.folds]

theorem Keyword.isAliasBoundary :
    dependencyAliasBoundary keyword.token = decide (word ∈ aliasEnds) := by
  simp [dependencyAliasBoundary, Keyword.token, keyword.folds]

end Keywords

theorem Label.isIdentifier (label : Label) : dependencyTokenIdentifier label.token = true := by
  simp [dependencyTokenIdentifier, Label.token, label.present]

theorem Label.name_eq (label : Label) : dependencyTokenName label.token = label.folded :=
  rfl

theorem Label.folded_ne (label : Label) : label.folded ≠ "" := by
  rw [Label.folded]
  split
  · exact label.present
  · exact fun empty => label.present (lowerWord_eq_empty.mp empty)

theorem Label.isKeyword (label : Label) (word : String) :
    dependencyTokenKeyword label.token word =
      (!label.quoted && lowerWord label.spelled = word) := by
  rw [dependencyTokenKeyword, label.isIdentifier, Bool.true_and]
  rfl

variable {word : String}

theorem Label.notKeyword (label : Label)
    (other : label.quoted = false → lowerWord label.spelled ≠ word) :
    dependencyTokenKeyword label.token word = false := by
  rw [Label.isKeyword]
  cases quoted : label.quoted with
  | true => rfl
  | false => simp [other quoted]

theorem Name.notKeyword (name : Name) (reserved : word ∈ reservedWords) :
    dependencyTokenKeyword name.token word = false :=
  name.toLabel.notKeyword fun plain same => name.free plain (same ▸ reserved)

theorem Term.notKeyword (term : Term) (listed : word ∈ ["from", "join", "with"]) :
    dependencyTokenKeyword term.token word = false :=
  term.toLabel.notKeyword fun plain same => term.quiet plain (same ▸ listed)

end Leaves

section Neutral

/-- The parentheses match in the tokens, and passing over them collects exactly these names. -/
structure Neutral (tokens : List DependencyToken) (names : List String) : Prop where
  balanced : Balanced tokens
  collects : ∀ (ctes : StringSet) (rest : List DependencyToken),
    collectRest ctes (tokens ++ rest) = collectRest (names.foldl (·.insert ·) ctes) rest

variable {first second tokens : List DependencyToken} {names others : List String}
variable {token : DependencyToken}

theorem Neutral.nil : Neutral [] [] :=
  ⟨.nil, fun _ _ => rfl⟩

theorem Neutral.append (left : Neutral first names) (right : Neutral second others) :
    Neutral (first ++ second) (names ++ others) where
  balanced := left.balanced.append right.balanced
  collects ctes rest := by
    rw [List.append_assoc, left.collects, right.collects, List.foldl_append]

theorem Neutral.mark (opens : dependencyTokenValue token "(" = false)
    (closes : dependencyTokenValue token ")" = false)
    (other : dependencyTokenKeyword token "with" = false) (after : Neutral tokens names) :
    Neutral (token :: tokens) names where
  balanced := .cons opens closes after.balanced
  collects ctes rest := by rw [List.cons_append, collectRest_cons ctes other, after.collects]

theorem Neutral.word (word : token.symbol = false)
    (other : dependencyTokenKeyword token "with" = false) (after : Neutral tokens names) :
    Neutral (token :: tokens) names :=
  .mark (dependencyTokenValue_of_word word "(") (dependencyTokenValue_of_word word ")") other after

theorem Neutral.comma (after : Neutral tokens names) : Neutral (commaMark :: tokens) names :=
  .mark rfl rfl rfl after

theorem Balanced.in_parens (within : Balanced first) : Balanced (inParens first) :=
  within.parens rfl rfl .nil

theorem Neutral.parens (within : Neutral first names) : Neutral (inParens first) names where
  balanced := within.balanced.in_parens
  collects ctes rest := by
    rw [inParens, List.cons_append, List.append_assoc, collectRest_cons ctes rfl,
      within.collects, List.singleton_append, collectRest_cons _ rfl]

theorem aliasTokens_neutral (called : Option Alias) : Neutral (aliasTokens called) [] := by
  cases called with
  | none => exact .nil
  | some called =>
      obtain ⟨keyword, name, plain⟩ := called
      have named : Neutral [name.token] [] := .word rfl (name.notKeyword (by decide)) .nil
      cases keyword with
      | none => exact named
      | some keyword => exact .word rfl (keyword.isKeyword (by decide) "with") named

theorem Neutral.alias (called : Option Alias) (item : Neutral first names) :
    Neutral (first ++ aliasTokens called) names := by
  have whole := item.append (aliasTokens_neutral called)
  rwa [List.append_nil] at whole

theorem TableName.neutral (name : TableName) : Neutral name.tokens [] := by
  cases name with
  | plain name => exact .word rfl (name.notKeyword (by decide)) .nil
  | qualified schema table =>
      exact .word rfl (schema.notKeyword (by decide))
        (.mark rfl rfl rfl (.word rfl (table.notKeyword (by decide)) .nil))

theorem JoinKind.notKeyword (kind : JoinKind) {token : DependencyToken}
    (member : token ∈ kind.tokens) {word : String}
    (other : word ∉ ["inner", "left", "right", "full", "outer"]) :
    token.symbol = false ∧ dependencyTokenKeyword token word = false := by
  obtain ⟨spelled, among, rfl⟩ := List.mem_map.mp member
  have kinds : ∀ words ∈ joinKinds, ∀ word ∈ words,
      word ∈ ["inner", "left", "right", "full", "outer"] := by
    decide
  have listed := kinds _ kind.known (lowerWord spelled) (List.mem_map_of_mem among)
  have different : lowerWord spelled ≠ word := fun same => other (same ▸ listed)
  exact ⟨rfl, by simp [dependencyTokenKeyword, different]⟩

theorem JoinKind.neutral (kind : JoinKind) : Neutral kind.tokens [] := by
  have quiet : ∀ token ∈ kind.tokens,
      token.symbol = false ∧ dependencyTokenKeyword token "with" = false :=
    fun _ member => kind.notKeyword member (by decide)
  generalize kind.tokens = tokens at quiet
  induction tokens with
  | nil => exact .nil
  | cons token tokens hypothesis =>
      obtain ⟨word, other⟩ := quiet token List.mem_cons_self
      exact .word word other (hypothesis fun _ member => quiet _ (List.mem_cons_of_mem _ member))

theorem Atom.neutral (atom : Atom) (after : Neutral tokens names) :
    Neutral (atom.token :: tokens) names := by
  cases atom with
  | term term => exact .word rfl (term.notKeyword (by decide)) after
  | dot => exact .mark rfl rfl rfl after

end Neutral

section CommonTables

theorem parens_append (inner rest : List DependencyToken) :
    inParens inner ++ rest = openMark :: (inner ++ closeMark :: rest) := by
  simp [inParens]

theorem skipOptionalList_parens {inner : List DependencyToken} (balanced : Balanced inner)
    (rest : List DependencyToken) :
    skipOptionalList (inParens inner ++ rest) 0 = (inParens inner).length := by
  have opened : dependencyTokenValue openMark "(" = true := rfl
  rw [parens_append, skipOptionalList, valueAt_zero, if_pos opened, skipDependencyBalanced,
    balanced.close rfl rfl rest]
  simp [inParens]

def commonTable (name : CteName) (keyword : Keyword "as") (query : Subselect) :
    List DependencyToken :=
  name.token :: keyword.token :: inParens query.tokens

variable {query : Subselect}

theorem readCommonTables_commonTable (name : CteName) (keyword : Keyword "as")
    (balanced : Balanced query.tokens) (ctes : StringSet)
    (rest : List DependencyToken) :
    readCommonTables (commonTable name keyword query ++ rest) ctes 0 =
      if valueAt rest 0 "," then
        readCommonTables (commonTable name keyword query ++ rest)
          (ctes.insert name.folded) ((commonTable name keyword query).length + 1)
      else
        (ctes.insert name.folded, (commonTable name keyword query).length) := by
  have introduced : keywordAt (commonTable name keyword query ++ rest) 1 "as" = true := by
    show dependencyTokenKeyword keyword.token "as" = true
    rw [keyword.isKeyword (by decide), decide_eq_true rfl]
  have unlisted : skipOptionalList (commonTable name keyword query ++ rest) 1 = 1 := rfl
  have body := skipOptionalList_shift [name.token, keyword.token] (inParens query.tokens ++ rest) 0
  rw [skipOptionalList_parens balanced] at body
  have after : afterCommonTable (commonTable name keyword query ++ rest) (0 + 1) =
      (commonTable name keyword query).length := by
    rw [afterCommonTable, Nat.zero_add, unlisted, introduced, if_pos rfl]
    exact body.trans (Nat.add_comm _ _)
  have comma := valueAt_shift (commonTable name keyword query) rest 0 ","
  rw [Nat.add_zero] at comma
  have found : (commonTable name keyword query ++ rest)[0]? = some name.token := rfl
  rw [ByIndex.readCommonTables_of_getElem? ctes found, if_pos name.isIdentifier, after, comma,
    Label.name_eq]

theorem CteList.notRecursive (list : CteList) (rest : List DependencyToken) :
    keywordAt (list.tokens ++ rest) 0 "recursive" = false := by
  cases list with
  | one name keyword query => exact name.toLabel.notKeyword name.plain
  | more name keyword query others => exact name.toLabel.notKeyword name.plain

structure CteList.Listed (list : CteList) : Prop where
  balanced : Balanced list.tokens
  read : ∀ (ctes : StringSet) (rest : List DependencyToken), valueAt rest 0 "," = false →
    readCommonTables (list.tokens ++ rest) ctes 0 =
      (list.names.foldl (·.insert ·) ctes, list.tokens.length)

theorem CteList.listed_one (name : CteName) (keyword : Keyword "as")
    (balanced : Balanced query.tokens) : (CteList.one name keyword query).Listed where
  balanced := .word rfl (.word rfl balanced.in_parens)
  read ctes rest ended := by
    refine (readCommonTables_commonTable name keyword balanced ctes rest).trans ?_
    rw [if_neg (by simp [ended])]
    rfl

theorem CteList.listed_more (name : CteName) (keyword : Keyword "as") {others : CteList}
    (balanced : Balanced query.tokens) (listed : others.Listed) :
    (CteList.more name keyword query others).Listed where
  balanced := .word rfl (.word rfl (balanced.in_parens.append (.cons rfl rfl listed.balanced)))
  read ctes rest ended := by
    have shifted := readCommonTables_shift (commonTable name keyword query ++ [commaMark])
      (others.tokens ++ rest) 0 (ctes.insert name.folded)
    rw [listed.read _ rest ended] at shifted
    have read := readCommonTables_commonTable name keyword balanced ctes
      (commaMark :: (others.tokens ++ rest))
    rw [if_pos (by rfl)] at read
    simp only [List.append_assoc, List.singleton_append, Nat.add_zero, List.length_append,
      List.length_singleton] at shifted
    show readCommonTables ((commonTable name keyword query ++ commaMark :: others.tokens) ++ rest)
      ctes 0 = _
    rw [List.append_assoc, List.cons_append, read, shifted]
    simp [CteList.names, CteList.tokens, commonTable]
    omega

theorem CteList.Listed.collectRest {list : CteList} (listed : list.Listed)
    (keyword : Keyword "with") (recursive : Option (Keyword "recursive"))
    (select : Keyword "select") (ctes : StringSet) (rest : List DependencyToken) :
    collectRest ctes ((Ctes.listed keyword recursive list).tokens ++ select.token :: rest) =
      collectRest (list.names.foldl (·.insert ·) ctes) rest := by
  have introduced : dependencyTokenKeyword keyword.token "with" = true := by
    rw [keyword.isKeyword (by decide), decide_eq_true rfl]
  let opening := keyword.token :: (recursive.map Keyword.token).toList
  have start : commonTablesStart (opening ++ (list.tokens ++ select.token :: rest)) 0 =
      opening.length + 0 := by
    cases recursive with
    | none =>
        have named := keywordAt_shift [keyword.token] (list.tokens ++ select.token :: rest) 0
          "recursive"
        rw [list.notRecursive] at named
        exact if_neg (Bool.eq_false_iff.mp named)
    | some recursive =>
        have named : dependencyTokenKeyword recursive.token "recursive" = true := by
          rw [recursive.isKeyword (by decide), decide_eq_true rfl]
        exact if_pos named
  have read := readCommonTables_shift opening (list.tokens ++ select.token :: rest) 0 ctes
  rw [listed.read ctes (select.token :: rest) rfl, ← start] at read
  have collected := collectRest_with ctes introduced
    ((recursive.map Keyword.token).toList ++ (list.tokens ++ select.token :: rest))
  have left : (opening ++ (list.tokens ++ select.token :: rest)).drop
      (opening.length + list.tokens.length + 1) = rest := by
    rw [Nat.add_assoc, ← List.drop_drop, List.drop_left, ← List.drop_drop, List.drop_left]
    rfl
  simp only [← List.cons_append] at collected
  rw [Ctes.tokens, List.cons_append, List.append_assoc, ← List.cons_append, collected, read, left]

end CommonTables

section Trees

mutual

theorem Condition.neutral : (condition : Condition) → Neutral condition.tokens condition.collected
  | .done => .nil
  | .atom atom rest => atom.neutral rest.neutral
  | .group inner rest => inner.neutral.parens.append rest.neutral
  | .subquery query rest => query.neutral.parens.append rest.neutral

theorem Conditions.neutral :
    (conditions : Conditions) → Neutral conditions.tokens conditions.collected
  | .one condition => condition.neutral
  | .more condition rest => condition.neutral.append (.comma rest.neutral)

theorem Subselect.neutral : (query : Subselect) → Neutral query.tokens query.collected
  | .select .absent select columns keyword items filter =>
      .word rfl (select.isKeyword (by decide) "with") (columns.neutral.append
        (.word rfl (keyword.isKeyword (by decide) "with") (items.neutral.append filter.neutral)))
  | .select (.listed introduced recursive list) select columns keyword items filter => by
      have after := columns.neutral.append
        (.word rfl (keyword.isKeyword (by decide) "with") (items.neutral.append filter.neutral))
      have listed := list.listed
      refine ⟨?_, fun ctes rest => ?_⟩
      · have opening : Balanced (Ctes.listed introduced recursive list).tokens := by
          cases recursive with
          | none => exact .word rfl listed.balanced
          | some recursive => exact .word rfl (.word rfl listed.balanced)
        exact opening.append (.word rfl after.balanced)
      · rw [Subselect.tokens, Subselect.collected, List.append_assoc, List.cons_append,
          listed.collectRest, after.collects, ← List.foldl_append]
        rfl

theorem Filter.neutral : (filter : Filter) → Neutral filter.tokens filter.collected
  | .absent => .nil
  | .holds keyword condition =>
      .word rfl (keyword.isKeyword (by decide) "with") condition.neutral

theorem CteList.listed : (list : CteList) → list.Listed
  | .one name keyword query => CteList.listed_one name keyword query.neutral.balanced
  | .more name keyword query rest =>
      CteList.listed_more name keyword query.neutral.balanced rest.listed

theorem Items.neutral : (items : Items) → Neutral items.tokens items.collected
  | .one first joins => first.neutral.append joins.neutral
  | .more first joins rest => (first.neutral.append joins.neutral).append (.comma rest.neutral)

theorem Joins.neutral : (joins : Joins) → Neutral joins.tokens joins.collected
  | .done => .nil
  | .more join rest => join.neutral.append rest.neutral

theorem Join.neutral : (join : Join) → Neutral join.tokens join.collected
  | .on kind join item keyword condition =>
      kind.neutral.append (.word rfl (join.isKeyword (by decide) "with")
        (item.neutral.append (.word rfl (keyword.isKeyword (by decide) "with") condition.neutral)))

theorem Item.neutral : (item : Item) → Neutral item.tokens item.collected
  | .table name called => name.neutral.alias called
  | .subselect query called => query.neutral.parens.alias (some called)
  | .nested first join rest called =>
      (first.neutral.append (join.neutral.append rest.neutral)).parens.alias called

end

end Trees

end PostgresSync.Pg
