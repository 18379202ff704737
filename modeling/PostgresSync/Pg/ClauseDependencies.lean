import PostgresSync.Pg.RefreshPaths
import PostgresSync.Pg.ScanTrees

namespace PostgresSync.Pg

open PostgresSync.Data
open PostgresSync.Shapes
open PostgresSync.SqlInspect

/-! From the text of a where clause to the relations that its shape depends on. -/

section Keyed

/-- The relations by their keys; of those with one key the last stays. -/
def keyed (relations : List Relation) : Dict Relation :=
  relations.foldl (fun dict relation => dict.insert (dependencyRelationKey relation) relation) ∅

variable {relations : List Relation} {relation : Relation}

theorem dependencyRelationKey_of_find? {key : String}
    (found : (relations.find? fun other => dependencyRelationKey other = key) = some relation) :
    dependencyRelationKey relation = key := by
  simpa using List.find?_some found

theorem getElem?_keyed (relations : List Relation) (key : String) :
    (keyed relations)[key]? =
      relations.reverse.find? fun relation => dependencyRelationKey relation = key := by
  have found := Dict.getElem?_foldl_insert_last relations dependencyRelationKey id ∅ key
  simpa [keyed] using found

theorem mem_values_keyed :
    relation ∈ (keyed relations).values ↔
      (relations.reverse.find? fun other =>
        dependencyRelationKey other = dependencyRelationKey relation) = some relation := by
  rw [Dict.mem_values]
  constructor
  · rintro ⟨key, found⟩
    rw [getElem?_keyed] at found
    rwa [dependencyRelationKey_of_find? found]
  · intro found
    exact ⟨dependencyRelationKey relation, (getElem?_keyed relations _).trans found⟩

theorem getElem?_keyed_of_mem (member : relation ∈ relations) :
    ∃ last ∈ relations, dependencyRelationKey last = dependencyRelationKey relation ∧
      (keyed relations)[dependencyRelationKey relation]? = some last := by
  obtain ⟨last, first⟩ := Option.isSome_iff_exists.mp (List.find?_isSome.mpr
    ⟨relation, List.mem_reverse.mpr member, decide_eq_true rfl⟩ :
      (relations.reverse.find? fun other =>
        dependencyRelationKey other = dependencyRelationKey relation).isSome = true)
  exact ⟨last, List.mem_reverse.mp (List.mem_of_find?_eq_some first),
    dependencyRelationKey_of_find? first, (getElem?_keyed _ _).trans first⟩

theorem keyed_values (relations : List Relation) :
    (keyed relations).values.foldl
      (fun dict relation => dict.insert (dependencyRelationKey relation) relation) ∅ =
      keyed relations := by
  apply Std.ExtTreeMap.ext_getElem?
  intro key
  show (keyed (keyed relations).values)[key]? = _
  cases found : (keyed relations)[key]? with
  | none =>
      rw [getElem?_keyed, List.find?_eq_none]
      intro relation member same
      have listed := mem_values_keyed.mp (List.mem_reverse.mp member)
      rw [← getElem?_keyed, of_decide_eq_true same, found] at listed
      cases listed
  | some relation =>
      rw [getElem?_keyed] at found
      obtain rfl := dependencyRelationKey_of_find? found
      obtain ⟨last, listed, same, again⟩ := getElem?_keyed_of_mem (mem_values_keyed.mpr found)
      have only := mem_values_keyed.mp listed
      rw [same, found] at only
      rw [again, only]

theorem values_keyed_isEmpty (relations : List Relation) :
    (keyed relations).values.isEmpty = relations.isEmpty := by
  cases relations with
  | nil => rfl
  | cons relation rest =>
      obtain ⟨last, -, -, found⟩ := getElem?_keyed_of_mem (List.mem_cons_self (a := relation))
      rw [List.isEmpty_cons, List.isEmpty_eq_false_iff]
      exact List.ne_nil_of_mem (Dict.mem_values.mpr ⟨_, found⟩)

theorem dependencyRelationKey_inj {first second : Relation}
    (undotted : '.' ∉ first.schema.toList) (undottedToo : '.' ∉ second.schema.toList)
    (same : dependencyRelationKey first = dependencyRelationKey second) : first = second := by
  obtain ⟨owner, table⟩ := first
  obtain ⟨otherOwner, otherTable⟩ := second
  have letters := congrArg String.toList same
  simp only [dependencyRelationKey, String.toList_append] at letters
  have split (schema rest : List Char) (free : '.' ∉ schema) :
      (schema ++ ['.'] ++ rest).span (· ≠ '.') = (schema, '.' :: rest) := by
    rw [List.span_eq_takeWhile_dropWhile, List.append_assoc, List.singleton_append]
    have all : ∀ char ∈ schema, decide (char ≠ '.') = true := by
      intro char member
      exact decide_eq_true fun equal => free (equal ▸ member)
    rw [List.takeWhile_append_of_pos all, List.dropWhile_append_of_pos all]
    simp
  have parts := congrArg (List.span (· ≠ '.')) letters
  have dot : (".".toList : List Char) = ['.'] := rfl
  rw [dot, split _ _ undotted, split _ _ undottedToo] at parts
  simp only [Prod.mk.injEq, List.cons.injEq, true_and, String.toList_inj] at parts
  rw [parts.1, parts.2]

theorem mem_values_keyed_of_undotted (undotted : ∀ other ∈ relations, '.' ∉ other.schema.toList)
    (member : relation ∈ relations) :
    relation ∈ (keyed relations).values := by
  obtain ⟨last, listed, same, found⟩ := getElem?_keyed_of_mem member
  obtain rfl := dependencyRelationKey_inj (undotted last listed) (undotted relation member) same
  exact Dict.mem_values.mpr ⟨_, found⟩

end Keyed

section Exactness

/-- The where clause is a tree: it has the tokens of one, a keyword among them. -/
structure HasClause (definition : Definition) (clause : Condition) : Prop where
  whole : definition.subset = none
  keyword : containsDependencyKeyword definition.whereClause = true
  tokens : tokenizeDependencyClause (sanitizeClause definition.whereClause) = clause.tokens

def Condition.recorded (schema : String) (clause : Condition) : List Relation :=
  clause.reads.filterMap (TableName.relation? schema (· ∈ clause.collected))

theorem mem_foldl_insert (names : List String) (set : StringSet) (name : String) :
    name ∈ names.foldl (·.insert ·) set ↔ name ∈ set ∨ name ∈ names := by
  induction names generalizing set with
  | nil => simp
  | cons first rest hypothesis =>
      rw [List.foldl_cons, hypothesis, StringSet.mem_insert, List.mem_cons]
      tauto

theorem foldl_recordRead (schema : String) (ctes : StringSet) (reads : List TableName)
    (relations : Dict Relation) :
    reads.foldl (recordRead schema ctes) relations =
      (reads.filterMap (TableName.found schema ctes)).foldl
        (fun dict relation => dict.insert (dependencyRelationKey relation) relation) relations := by
  induction reads generalizing relations with
  | nil => rfl
  | cons name rest hypothesis =>
      rw [List.foldl_cons, hypothesis, recordRead]
      cases found : name.found schema ctes with
      | none => rw [List.filterMap_cons_none found]
      | some relation => rw [List.filterMap_cons_some found, List.foldl_cons]

theorem Condition.collectDependencyCTENames (clause : Condition) :
    collectDependencyCTENames clause.tokens = clause.collected.foldl (·.insert ·) ∅ := by
  have collected := clause.neutral.collects ∅ []
  rw [List.append_nil, collectRest_nil] at collected
  exact collected

theorem Condition.scanDependencyTokens (clause : Condition) (schema : String) :
    scanDependencyTokens schema (PostgresSync.Pg.collectDependencyCTENames clause.tokens)
      clause.tokens ∅ = (keyed (clause.recorded schema), false) := by
  let ctes := PostgresSync.Pg.collectDependencyCTENames clause.tokens
  have deep : Deep schema ctes clause.tokens clause.plain clause.reads := clause.free.deep
  obtain ⟨after, scan, known, relations⟩ := deep.fresh ∅
  have names : (fun name => decide (name ∈ ctes)) =
      fun name => decide (name ∈ clause.collected) := by
    funext name
    rw [show ctes = _ from clause.collectDependencyCTENames, decide_eq_decide, mem_foldl_insert]
    simp
  have recorded : after.relations = keyed (clause.recorded schema) := by
    rw [relations, foldl_recordRead, keyed, Condition.recorded, ← names]
    rfl
  have scanned : scanDependencyFrom schema ctes clause.tokens { relations := ∅ } 0 = after := scan
  rw [PostgresSync.Pg.scanDependencyTokens]
  show ((scanDependencyFrom schema ctes clause.tokens { relations := ∅ } 0).relations,
    (scanDependencyFrom schema ctes clause.tokens { relations := ∅ } 0).wildcard) = _
  rw [scanned, recorded, known]

variable {definition : Definition} {clause : Condition}

theorem HasClause.liveDependencies (has : HasClause definition clause) :
    liveDependenciesForDefinition definition =
      { unsupported := true
        wildcard := (clause.recorded definition.relation.schema).isEmpty
        relations := (keyed (clause.recorded definition.relation.schema ++
          [definition.relation])).values } := by
  have shown : isBlank (sanitizeClause definition.whereClause) = false := by
    have both := has.keyword
    simp only [containsDependencyKeyword, Bool.and_eq_true, Bool.not_eq_true'] at both
    exact both.1
  have found : addClauseDependencies definition.relation.schema {} definition.whereClause =
      { relations := keyed (clause.recorded definition.relation.schema)
        unsupported := true
        wildcard := (clause.recorded definition.relation.schema).isEmpty } := by
    rw [addClauseDependencies]
    simp only [shown, containsDependencyKeyword_sanitizeClause, has.keyword, Bool.not_true,
      Bool.or_false, Bool.false_eq_true, if_false, scanDependencyRelations, has.tokens,
      clause.scanDependencyTokens, keyed_values, values_keyed_isEmpty, Bool.false_or]
  have root : (keyed (clause.recorded definition.relation.schema)).insert
      (dependencyRelationKey definition.relation) definition.relation =
      keyed (clause.recorded definition.relation.schema ++ [definition.relation]) := by
    rw [keyed, keyed, List.foldl_append]
    rfl
  rw [liveDependenciesForDefinition, has.whole, definitionDependencyClauses, has.whole]
  simp only [Option.isSome_none, Bool.false_eq_true, if_false, List.foldl_cons, List.foldl_nil,
    found, if_true, root]

/-- The dependencies of a definition are the tables that the scan records and its own: of those
with one key the last, and the wildcard stands for a clause that names none. -/
theorem liveDependencies_of_clause (has : HasClause definition clause) :
    let dependencies := liveDependenciesForDefinition definition
    let recorded := clause.recorded definition.relation.schema
    dependencies.unsupported = true ∧ dependencies.wildcard = recorded.isEmpty ∧
      ∀ relation, relation ∈ dependencies.relations ↔
        ((recorded ++ [definition.relation]).reverse.find? fun other =>
          dependencyRelationKey other = dependencyRelationKey relation) = some relation := by
  rw [has.liveDependencies]
  exact ⟨rfl, rfl, fun _ => mem_values_keyed⟩

end Exactness

section Regular

/-! The clauses in which the scanner expects every item: no parenthesised join begins with a
table, and nothing closes a list before its last item. -/

def Item.isTable : Item → Bool
  | .table _ _ => true
  | .subselect _ _ => false
  | .nested _ _ _ _ => false

mutual

def Condition.regular : Condition → Bool
  | .done => true
  | .atom _ rest => rest.regular
  | .group inner rest => inner.regular && rest.regular
  | .subquery query rest => query.regular && rest.regular

def Conditions.regular : Conditions → Bool
  | .one condition => condition.regular
  | .more condition rest => condition.regular && rest.regular

def Subselect.regular : Subselect → Bool
  | .select ctes _ columns _ items filter =>
      ctes.regular && columns.regular && items.regular && filter.regular

def Filter.regular : Filter → Bool
  | .absent => true
  | .holds _ condition => condition.regular

def Ctes.regular : Ctes → Bool
  | .absent => true
  | .listed _ _ list => list.regular

def CteList.regular : CteList → Bool
  | .one _ _ query => query.regular
  | .more _ _ query rest => query.regular && rest.regular

def Items.regular : Items → Bool
  | .one first joins => first.regular && joins.regular
  | .more first joins rest =>
      first.regular && joins.regular && joins.keeps && rest.regular

def Joins.regular : Joins → Bool
  | .done => true
  | .more join rest => join.regular && rest.regular

def Join.regular : Join → Bool
  | .on _ _ item _ condition => item.regular && condition.regular

def Item.regular : Item → Bool
  | .table _ _ => true
  | .subselect query _ => query.regular
  | .nested first join rest _ =>
      !first.isTable && first.regular && join.regular && rest.regular

end

theorem Item.reads_eq_of_not_isTable {item : Item} (other : item.isTable = false) :
    item.reads false = item.reads true := by
  cases item with
  | table name called => cases other
  | subselect query called => rfl
  | nested first join rest called => rfl

theorem append_congr_of_and {α : Type*} {left right : Bool} {read readRest all allRest : List α}
    (both : (left && right) = true) (first : left = true → read = all)
    (rest : right = true → readRest = allRest) : read ++ readRest = all ++ allRest := by
  rw [Bool.and_eq_true] at both
  rw [first both.1, rest both.2]

mutual

theorem Condition.reads_of_regular : (clause : Condition) → clause.regular = true →
    clause.reads = clause.items
  | .done, _ => rfl
  | .atom _ rest, regular => rest.reads_of_regular regular
  | .group inner rest, regular =>
      append_congr_of_and regular inner.reads_of_regular rest.reads_of_regular
  | .subquery query rest, regular =>
      append_congr_of_and regular query.reads_of_regular rest.reads_of_regular

theorem Conditions.reads_of_regular : (clauses : Conditions) → clauses.regular = true →
    clauses.reads = clauses.items
  | .one condition, regular => condition.reads_of_regular regular
  | .more condition rest, regular =>
      append_congr_of_and regular condition.reads_of_regular rest.reads_of_regular

theorem Subselect.reads_of_regular : (query : Subselect) → query.regular = true →
    query.reads = query.items
  | .select ctes _ columns _ items filter, regular => by
      simp only [Subselect.regular, Bool.and_eq_true] at regular
      obtain ⟨⟨⟨lists, chosen⟩, listed⟩, held⟩ := regular
      rw [Subselect.reads, Subselect.items, ctes.reads_of_regular lists,
        columns.reads_of_regular chosen, items.reads_of_regular listed,
        filter.reads_of_regular held]

theorem Filter.reads_of_regular : (filter : Filter) → filter.regular = true →
    filter.reads = filter.items
  | .absent, _ => rfl
  | .holds _ condition, regular => condition.reads_of_regular regular

theorem Ctes.reads_of_regular : (list : Ctes) → list.regular = true → list.reads = list.items
  | .absent, _ => rfl
  | .listed _ _ list, regular => list.reads_of_regular regular

theorem CteList.reads_of_regular : (list : CteList) → list.regular = true →
    list.reads = list.items
  | .one _ _ query, regular => query.reads_of_regular regular
  | .more _ _ query rest, regular =>
      append_congr_of_and regular query.reads_of_regular rest.reads_of_regular

theorem Items.reads_of_regular : (items : Items) → items.regular = true →
    items.reads true = items.items
  | .one first joins, regular =>
      append_congr_of_and regular first.reads_of_regular joins.reads_of_regular
  | .more first joins rest, regular => by
      simp only [Items.regular, Bool.and_eq_true] at regular
      obtain ⟨⟨⟨begun, joined⟩, keeps⟩, ended⟩ := regular
      rw [Items.reads, Items.items, keeps, first.reads_of_regular begun,
        joins.reads_of_regular joined, Bool.and_self, rest.reads_of_regular ended]

theorem Joins.reads_of_regular : (joins : Joins) → joins.regular = true →
    joins.reads = joins.items
  | .done, _ => rfl
  | .more join rest, regular =>
      append_congr_of_and regular join.reads_of_regular rest.reads_of_regular

theorem Join.reads_of_regular : (join : Join) → join.regular = true → join.reads = join.items
  | .on _ _ item _ condition, regular =>
      append_congr_of_and regular item.reads_of_regular condition.reads_of_regular

theorem Item.reads_of_regular : (item : Item) → item.regular = true →
    item.reads true = item.items
  | .table _ _, _ => rfl
  | .subselect query _, regular => query.reads_of_regular regular
  | .nested first join rest _, regular => by
      simp only [Item.regular, Bool.and_eq_true, Bool.not_eq_true'] at regular
      obtain ⟨⟨⟨other, begun⟩, joined⟩, ended⟩ := regular
      rw [Item.reads, Item.items, Item.reads_eq_of_not_isTable other, first.reads_of_regular begun,
        join.reads_of_regular joined, rest.reads_of_regular ended]

end

/-- A regular clause misses no table: each one that a `FROM` of it names, at any depth, and that
is not the name of a common table is listed, and a change to it makes the shape react. -/
theorem regular_clause_covered {definition : Definition} {clause : Condition}
    (has : HasClause definition clause) (regular : clause.regular = true)
    (undotted : ∀ relation ∈ clause.recorded definition.relation.schema ++ [definition.relation],
      '.' ∉ relation.schema.toList) :
    ∀ name ∈ clause.items, ∀ relation,
      name.relation? definition.relation.schema (· ∈ clause.collected) = some relation →
      relation ∈ (liveDependenciesForDefinition definition).relations ∧
        ∀ root, definitionRequiresInvalidationForRelation definition relation root = true := by
  intro name member relation named
  rw [← clause.reads_of_regular regular] at member
  have recorded : relation ∈ clause.recorded definition.relation.schema :=
    List.mem_filterMap.mpr ⟨name, member, named⟩
  have listed : relation ∈ (liveDependenciesForDefinition definition).relations := by
    rw [has.liveDependencies]
    exact mem_values_keyed_of_undotted undotted (List.mem_append_left _ recorded)
  have unsupported : (liveDependenciesForDefinition definition).unsupported = true := by
    rw [has.liveDependencies]
  refine ⟨listed, fun root => ?_⟩
  have reacts : (liveDependenciesForDefinition definition).relations.any (fun candidate =>
      candidate = relation || candidate = root) = true :=
    List.any_eq_true.mpr ⟨relation, listed, by simp⟩
  simp [definitionRequiresInvalidationForRelation, unsupported, reacts]

def plainName (text : String) (present : text ≠ "" := by decide)
    (free : lowerWord text ∉ reservedWords := by decide) : Name :=
  ⟨⟨text, false, present⟩, fun _ => free⟩

def plainTerm (text : String) (present : text ≠ "" := by decide)
    (quiet : lowerWord text ∉ ["from", "join", "with"] := by decide) : Term :=
  ⟨⟨text, false, present⟩, fun _ => quiet⟩

def idIn (items : Items) : Condition :=
  .atom (.term (plainTerm "id")) (.atom (.term (plainTerm "IN")) (.subquery
    (.select .absent ⟨"SELECT", by decide⟩ (.one (.atom (.term (plainTerm "id")) .done))
      ⟨"FROM", by decide⟩ items .absent) .done))

def listedDefinition : Definition where
  relation := ⟨"public", "refs"⟩
  whereClause := "id IN (SELECT id FROM app.users u, \"Teams\")"

def listedClause : Condition :=
  idIn (.more
    (.table (.qualified (plainName "app") (plainTerm "users"))
      (some ⟨none, plainName "u", by decide⟩))
    .done
    (.one (.table (.plain ⟨⟨"Teams", true, by decide⟩, nofun⟩) none) .done))

theorem listedDefinition_clause : HasClause listedDefinition listedClause :=
  ⟨rfl, by decide +kernel, by decide +kernel⟩

theorem listedClause_dependencies :
    (liveDependenciesForDefinition listedDefinition).wildcard = false ∧
      (⟨"public", "Teams"⟩ : Relation) ∈
        (liveDependenciesForDefinition listedDefinition).relations := by
  have dependencies := liveDependencies_of_clause listedDefinition_clause
  exact ⟨dependencies.2.1, (dependencies.2.2 _).mpr (by decide +kernel)⟩

theorem listedClause_covered :
    definitionRequiresInvalidationForRelation listedDefinition ⟨"app", "users"⟩
      ⟨"app", "users"⟩ = true :=
  (regular_clause_covered listedDefinition_clause (by decide +kernel) (by decide +kernel)
    (.qualified (plainName "app") (plainTerm "users")) List.mem_cons_self ⟨"app", "users"⟩
    (by decide +kernel)).2 _

end Regular

section Missed

def parenthesisedJoin (first second : TableName) : Condition :=
  idIn (.one (.nested (.table first none) (.on ⟨[], by decide⟩ ⟨"JOIN", by decide⟩
    (.table second none) ⟨"ON", by decide⟩ (.atom (.term (plainTerm "id")) .done)) .done none)
    .done)

/-- The first table of a parenthesised join is missed: the scan of what stands in the
parentheses expects no item at its beginning. -/
theorem parenthesisedJoin_misses_first {definition : Definition} {first second : TableName}
    {joined : Relation} (has : HasClause definition (parenthesisedJoin first second))
    (named : second.relation? definition.relation.schema (fun _ => false) = some joined) :
    first ∈ (parenthesisedJoin first second).items ∧
      ∀ relation, first.relation? definition.relation.schema (fun _ => false) = some relation →
        relation ≠ joined → relation ≠ definition.relation →
        relation ∉ (liveDependenciesForDefinition definition).relations ∧
        ∀ root, root ≠ joined → root ≠ definition.relation →
          definitionRequiresInvalidationForRelation definition relation root = false := by
  have recorded : (parenthesisedJoin first second).recorded definition.relation.schema =
      [joined] := by
    show [second].filterMap (TableName.relation? definition.relation.schema fun _ => false) =
      [joined]
    rw [List.filterMap_cons_some named]
    rfl
  have dependencies := has.liveDependencies
  rw [recorded] at dependencies
  have listed : ∀ other ∈ (liveDependenciesForDefinition definition).relations,
      other = joined ∨ other = definition.relation := by
    intro other member
    rw [dependencies] at member
    have among := List.mem_of_find?_eq_some
      (mem_values_keyed.mp (show other ∈ (keyed [joined, definition.relation]).values from member))
    simpa [or_comm] using among
  refine ⟨List.mem_cons_self, fun relation _ different foreign =>
    ⟨fun member => (listed relation member).elim different foreign,
      fun root unjoined unrooted => ?_⟩⟩
  have unlisted : (liveDependenciesForDefinition definition).relations.any (fun candidate =>
      candidate = relation || candidate = root) = false := by
    rw [List.any_eq_false]
    intro other member
    rcases listed other member with rfl | rfl
    · simp [Ne.symm different, Ne.symm unjoined]
    · simp [Ne.symm foreign, Ne.symm unrooted]
  rw [definitionRequiresInvalidationForRelation, unlisted, dependencies]
  rfl

def joinedDefinition : Definition where
  relation := ⟨"public", "refs"⟩
  whereClause := "id IN (SELECT id FROM (users JOIN teams ON id))"

def joinedClause : Condition :=
  parenthesisedJoin (.plain (plainName "users")) (.plain (plainName "teams"))

theorem joinedDefinition_clause : HasClause joinedDefinition joinedClause :=
  ⟨rfl, by decide +kernel, by decide +kernel⟩

theorem users_missed :
    definitionRequiresInvalidationForRelation joinedDefinition ⟨"public", "users"⟩
      ⟨"public", "users"⟩ = false := by
  have joined : (TableName.plain (plainName "teams")).relation? "public" (fun _ => false) =
      some ⟨"public", "teams"⟩ := by
    decide +kernel
  exact ((parenthesisedJoin_misses_first joinedDefinition_clause joined).2 _ (by decide +kernel)
    (by decide) (by decide)).2 _ (by decide) (by decide)

end Missed

end PostgresSync.Pg
