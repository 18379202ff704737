import PostgresSync.Data.Decimal
import PostgresSync.Data.Quoted
import PostgresSync.Pg.Queries

namespace PostgresSync.Pg

open PostgresSync.Data
open PostgresSync.Shapes

/-! The text of the snapshot queries and the arguments sent with it. -/

/-- A stretch of a query's text, with where it comes from. -/
inductive Part where
  | sql (text : String)
  | ownWhere (clause : String)
  | subsetWhere (clause : String)
  /-- The test of one key column against the placeholder at a position. -/
  | keyPredicate (column : DescribedColumn) (key : Row) (position : Nat)
deriving DecidableEq

def Part.text : Part → String
  | .sql text => text
  | .ownWhere clause => clause
  | .subsetWhere clause => clause
  | .keyPredicate column _ position =>
      quoteIdentifier column.name ++ "::text = $" ++ toString position

structure Query where
  parts : List Part
  args : List String
deriving DecidableEq

def Query.text (query : Query) : String :=
  "".intercalate (query.parts.map Part.text)

/-- A key that is not a number is left out; a number that is not written in its
shortest form is looked up in that form. -/
def paramsAsArgs (values : Dict String) : List String :=
  let keys := values.keys.filterMap fun key => parseInt64 key.toList
  (keys.insertionSort (· ≤ ·)).map fun key => values.getD (toString key) ""

def selectPart (column : DescribedColumn) : String :=
  quoteIdentifier column.name ++ "::text AS " ++ quoteIdentifier column.name

def selectFrom (definition : Definition) (columns : List DescribedColumn) : Part :=
  .sql ("SELECT " ++ ", ".intercalate (columns.map selectPart) ++ " FROM " ++
    quoteIdentifier definition.relation.schema ++ "." ++
    quoteIdentifier definition.relation.table)

def parenthesized (parts : List Part) : List Part :=
  [.sql "("] ++ parts ++ [.sql ")"]

def ownClauses (definition : Definition) : List (List Part) :=
  if definition.whereClause = "" then [] else [parenthesized [.ownWhere definition.whereClause]]

def subsetClauses (subset : Subset) : List (List Part) :=
  if subset.whereClause = "" then [] else [parenthesized [.subsetWhere subset.whereClause]]

def subsetArgs (subset : Subset) : List String :=
  if subset.whereClause = "" then [] else paramsAsArgs subset.params

def whereParts (clauses : List (List Part)) : List Part :=
  if clauses.isEmpty then [] else .sql " WHERE " :: [Part.sql " AND "].intercalate clauses

def subsetTail (subset : Subset) : List Part :=
  (if subset.orderBy = "" then [] else [.sql (" ORDER BY " ++ subset.orderBy)]) ++
    (subset.limit.toList.map fun limit => .sql (" LIMIT " ++ toString limit)) ++
    (subset.offset.toList.map fun offset => .sql (" OFFSET " ++ toString offset))

def buildSnapshotQuery (definition : Definition) (columns : List DescribedColumn) : Query :=
  let subset := definition.subset.toList
  { parts := selectFrom definition columns ::
      whereParts (ownClauses definition ++ subset.flatMap subsetClauses) ++
        subset.flatMap subsetTail
    args := paramsAsArgs definition.params ++ subset.flatMap subsetArgs }

/-- The predicates of one key, each with the argument it adds. -/
def keyPredicates (key : Row) :
    List DescribedColumn → List String → List Part × List String
  | [], args => ([], args)
  | column :: rest, args =>
      let args := args ++ [valueText (key.getD column.name none)]
      let (predicates, all) := keyPredicates key rest args
      (.keyPredicate column key args.length :: predicates, all)

def keyClauses (pkColumns : List DescribedColumn) :
    List Row → List String → List (List Part) × List String
  | [], args => ([], args)
  | key :: rest, args =>
      let (predicates, args) := keyPredicates key pkColumns args
      let (clauses, all) := keyClauses pkColumns rest args
      (predicates :: clauses, all)

def buildTargetedSnapshotQuery (definition : Definition)
    (columns pkColumns : List DescribedColumn) (keyRows : List Row) :
    Except String Query :=
  if pkColumns.isEmpty then
    .error ("relation " ++ definition.relation.schema ++ "." ++ definition.relation.table ++
      " does not have a primary key")
  else if keyRows.isEmpty then
    .error "no changed primary keys to refresh"
  else
    let (clauses, args) := keyClauses pkColumns (dedupeKeyRows pkColumns keyRows)
      (paramsAsArgs definition.params)
    let tests := clauses.map fun predicates =>
      parenthesized ([Part.sql " AND "].intercalate (predicates.map fun part => [part]))
    .ok
      { parts := selectFrom definition columns ::
          whereParts (ownClauses definition ++
            [parenthesized ([Part.sql " OR "].intercalate tests)])
        args := args }

/-! What a placeholder is bound to.  The server numbers the arguments from one and reads the
placeholders of a clause where it stands; `placeholders` is how it reads them. -/

section Binding

variable (placeholders : String → List Nat)

/-- The parameters have the keys `1` to `n`, where `n` is an `int`. -/
structure KeyedTo (n : Nat) (params : Dict String) : Prop where
  bound : n < 2 ^ 63
  keys : ∀ name, name ∈ params ↔ ∃ k, 1 ≤ k ∧ k ≤ n ∧ name = toString k

def UsesTo (n : Nat) (clause : String) : Prop :=
  ∀ k ∈ placeholders clause, 1 ≤ k ∧ k ≤ n

def Query.argument (query : Query) (k : Nat) : Option String := query.args[k - 1]?

def Query.BindsOwn (query : Query) (params : Dict String) : Prop :=
  ∀ clause, .ownWhere clause ∈ query.parts →
    ∀ k ∈ placeholders clause, query.argument k = params[toString k]?

def Query.BindsSubset (query : Query) (params : Dict String) : Prop :=
  ∀ clause, .subsetWhere clause ∈ query.parts →
    ∀ k ∈ placeholders clause, query.argument k = params[toString k]?

def Query.BindsKeys (query : Query) : Prop :=
  ∀ column key position, .keyPredicate column key position ∈ query.parts →
    query.argument position = some (valueText (key.getD column.name none))

end Binding

section Arguments

variable {n : Nat} {params : Dict String}

theorem parseInt64_toString {k : Nat} (bound : k < 2 ^ 63) :
    parseInt64 (toString k).toList = some (k : Int) := by
  have digits : (toString k).toList = Nat.toDigits 10 k := by
    simp [toString, Nat.repr]
  rw [digits, parseInt64_toDigits bound]

theorem paramsAsArgs_eq (keyed : KeyedTo n params) :
    paramsAsArgs params = (List.range n).map fun i => params.getD (toString (i + 1)) "" := by
  have parsed (name : String) (listed : name ∈ params.keys) (k : Int) :
      parseInt64 name.toList = some k ↔ ∃ i, 1 ≤ i ∧ i ≤ n ∧ k = (i : Int) ∧ name = toString i := by
    obtain ⟨i, low, high, rfl⟩ := (keyed.keys name).mp (Std.ExtTreeMap.mem_keys.mp listed)
    rw [parseInt64_toString (Nat.lt_of_le_of_lt high keyed.bound), Option.some.injEq]
    constructor
    · rintro rfl
      exact ⟨i, low, high, rfl, rfl⟩
    · rintro ⟨j, -, below, rfl, same⟩
      have numbers := congrArg (fun text : String => parseInt64 text.toList) same
      rw [parseInt64_toString (Nat.lt_of_le_of_lt high keyed.bound),
        parseInt64_toString (Nat.lt_of_le_of_lt below keyed.bound)] at numbers
      exact Option.some.inj numbers
  have distinct : (params.keys.filterMap fun key => parseInt64 key.toList).Nodup := by
    apply List.pairwise_filterMap.mpr
    apply List.Pairwise.imp_of_mem _ Std.ExtTreeMap.nodup_keys
    intro name other listed known apart k first l second same
    obtain ⟨i, -, -, left, rfl⟩ := (parsed name listed k).mp first
    obtain ⟨j, -, -, right, rfl⟩ := (parsed other known l).mp second
    exact apart (by rw [Int.ofNat_inj.mp (left.symm.trans (same.trans right))])
  have members : (params.keys.filterMap fun key => parseInt64 key.toList).Perm
      ((List.range n).map fun i => ((i + 1 : Nat) : Int)) := by
    apply (List.perm_ext_iff_of_nodup distinct _).mpr
    · intro k
      rw [List.mem_filterMap, List.mem_map]
      constructor
      · rintro ⟨name, listed, found⟩
        obtain ⟨i, low, high, rfl, -⟩ := (parsed name listed k).mp found
        exact ⟨i - 1, List.mem_range.mpr (by omega), by omega⟩
      · rintro ⟨i, below, rfl⟩
        have bound := List.mem_range.mp below
        have listed : toString (i + 1) ∈ params.keys := Std.ExtTreeMap.mem_keys.mpr
          ((keyed.keys _).mpr ⟨i + 1, by omega, by omega, rfl⟩)
        exact ⟨toString (i + 1), listed,
          (parsed _ listed _).mpr ⟨i + 1, by omega, by omega, rfl, rfl⟩⟩
    · exact List.nodup_range.map fun i j same => by simpa using same
  have ordered : ((List.range n).map fun i => ((i + 1 : Nat) : Int)).Pairwise (· ≤ ·) :=
    List.pairwise_map.mpr (List.pairwise_le_range.imp fun below => by omega)
  have sorted : (params.keys.filterMap fun key => parseInt64 key.toList).insertionSort (· ≤ ·) =
      (List.range n).map fun i => ((i + 1 : Nat) : Int) :=
    ((List.perm_insertionSort _ _).trans members).eq_of_pairwise'
      (List.pairwise_insertionSort _ _) ordered
  rw [paramsAsArgs, sorted, List.map_map]
  rfl

theorem length_paramsAsArgs (keyed : KeyedTo n params) : (paramsAsArgs params).length = n := by
  rw [paramsAsArgs_eq keyed, List.length_map, List.length_range]

theorem getElem?_paramsAsArgs (keyed : KeyedTo n params) {k : Nat} (low : 1 ≤ k) (high : k ≤ n) :
    (paramsAsArgs params)[k - 1]? = params[toString k]? := by
  have known : toString k ∈ params := (keyed.keys _).mpr ⟨k, low, high, rfl⟩
  obtain ⟨value, found⟩ := Dict.mem_iff_exists.mp known
  have below : k - 1 < n := by omega
  rw [paramsAsArgs_eq keyed, List.getElem?_map, List.getElem?_range below, Option.map_some,
    Nat.sub_add_cancel low, Dict.getD_of_getElem? found, found]

end Arguments

section Parts

variable {part : Part}

theorem mem_parenthesized (clause : ∀ text, part ≠ .sql text) (parts : List Part) :
    part ∈ parenthesized parts ↔ part ∈ parts := by
  simp [parenthesized, clause]

theorem mem_whereParts (clause : ∀ text, part ≠ .sql text) (clauses : List (List Part)) :
    part ∈ whereParts clauses ↔ ∃ parts ∈ clauses, part ∈ parts := by
  unfold whereParts
  split
  · next none => simp [List.isEmpty_iff.mp none]
  · rw [List.mem_cons, mem_intercalate (clause _)]
    simp [clause]

theorem mem_subsetTail (clause : ∀ text, part ≠ .sql text) (subset : Subset) :
    part ∉ subsetTail subset := by
  unfold subsetTail
  split <;> simp [clause, eq_comm (a := Part.sql _)]

theorem mem_ownClauses (clause : ∀ text, part ≠ .sql text) (definition : Definition) :
    (∃ parts ∈ ownClauses definition, part ∈ parts) ↔
      definition.whereClause ≠ "" ∧ part = .ownWhere definition.whereClause := by
  unfold ownClauses
  split
  · next none => simp [none]
  · next some => simp [some, mem_parenthesized clause]

theorem mem_subsetClauses (clause : ∀ text, part ≠ .sql text) (subset : Subset) :
    (∃ parts ∈ subsetClauses subset, part ∈ parts) ↔
      subset.whereClause ≠ "" ∧ part = .subsetWhere subset.whereClause := by
  unfold subsetClauses
  split
  · next none => simp [none]
  · next some => simp [some, mem_parenthesized clause]

theorem mem_buildSnapshotQuery (clause : ∀ text, part ≠ .sql text) (definition : Definition)
    (columns : List DescribedColumn) :
    part ∈ (buildSnapshotQuery definition columns).parts ↔
      (definition.whereClause ≠ "" ∧ part = .ownWhere definition.whereClause) ∨
        ∃ subset ∈ definition.subset,
          subset.whereClause ≠ "" ∧ part = .subsetWhere subset.whereClause := by
  have tail : part ∉ definition.subset.toList.flatMap subsetTail := by
    intro listed
    obtain ⟨subset, -, member⟩ := List.mem_flatMap.mp listed
    exact mem_subsetTail clause subset member
  rw [← mem_ownClauses clause]
  simp only [← mem_subsetClauses clause]
  rw [buildSnapshotQuery]
  simp only [List.mem_cons, List.mem_append, List.cons_append, tail, or_false,
    mem_whereParts clause, List.mem_flatMap, Option.mem_toList]
  have head : part ≠ selectFrom definition columns := clause _
  simp only [head, false_or, or_and_right, exists_or]
  refine or_congr_right ⟨?_, ?_⟩
  · rintro ⟨parts, ⟨subset, own, listed⟩, member⟩
    exact ⟨subset, own, parts, listed, member⟩
  · rintro ⟨subset, own, parts, listed, member⟩
    exact ⟨parts, ⟨subset, own, listed⟩, member⟩

theorem forall₂_right {α β : Type} {related : α → β → Prop} {lefts : List α} {rights : List β}
    (all : List.Forall₂ related lefts rights) {right : β} (member : right ∈ rights) :
    ∃ left ∈ lefts, related left right := by
  induction all with
  | nil => cases member
  | cons holds _ hypothesis =>
      rcases List.mem_cons.mp member with rfl | later
      · exact ⟨_, List.mem_cons_self, holds⟩
      · obtain ⟨left, listed, same⟩ := hypothesis later
        exact ⟨left, List.mem_cons_of_mem _ listed, same⟩

def Tests (args : List String) (key : Row) (column : DescribedColumn) (part : Part) : Prop :=
  ∃ position, part = .keyPredicate column key position ∧
    args[position - 1]? = some (valueText (key.getD column.name none))

theorem keyPredicates_tests (key : Row) (columns : List DescribedColumn) (args : List String) :
    args <+: (keyPredicates key columns args).2 ∧
      ∀ all, (keyPredicates key columns args).2 <+: all →
        List.Forall₂ (Tests all key) columns (keyPredicates key columns args).1 := by
  induction columns generalizing args with
  | nil => exact ⟨List.prefix_rfl, fun _ _ => .nil⟩
  | cons column rest hypothesis =>
      obtain ⟨grown, tested⟩ := hypothesis (args ++ [valueText (key.getD column.name none)])
      refine ⟨(List.prefix_append _ _).trans grown, fun all whole => .cons ?_ (tested all whole)⟩
      obtain ⟨added, rfl⟩ := grown.trans whole
      refine ⟨_, rfl, ?_⟩
      simp

theorem keyClauses_tests (pkColumns : List DescribedColumn) (keys : List Row)
    (args : List String) :
    args <+: (keyClauses pkColumns keys args).2 ∧
      ∀ all, (keyClauses pkColumns keys args).2 <+: all →
        List.Forall₂ (fun key clause => List.Forall₂ (Tests all key) pkColumns clause) keys
          (keyClauses pkColumns keys args).1 := by
  induction keys generalizing args with
  | nil => exact ⟨List.prefix_rfl, fun _ _ => .nil⟩
  | cons key rest hypothesis =>
      obtain ⟨first, own⟩ := keyPredicates_tests key pkColumns args
      obtain ⟨grown, others⟩ := hypothesis (keyPredicates key pkColumns args).2
      exact ⟨first.trans grown, fun all whole =>
        .cons (own all (grown.trans whole)) (others all whole)⟩

variable {definition : Definition} {columns pkColumns : List DescribedColumn}
  {keyRows : List Row} {query : Query}

theorem mem_buildTargetedSnapshotQuery
    (built : buildTargetedSnapshotQuery definition columns pkColumns keyRows = .ok query) :
    paramsAsArgs definition.params <+: query.args ∧
      ∀ part, (∀ text, part ≠ .sql text) → part ∈ query.parts →
        (definition.whereClause ≠ "" ∧ part = .ownWhere definition.whereClause) ∨
          ∃ key ∈ dedupeKeyRows pkColumns keyRows, ∃ column ∈ pkColumns,
            Tests query.args key column part := by
  unfold buildTargetedSnapshotQuery at built
  split at built
  · cases built
  · split at built
    · cases built
    · obtain ⟨first, tested⟩ := keyClauses_tests pkColumns (dedupeKeyRows pkColumns keyRows)
        (paramsAsArgs definition.params)
      obtain rfl := Except.ok.inj built
      refine ⟨first, fun part clause listed => ?_⟩
      have known : part ∈ whereParts _ :=
        (List.mem_cons.mp listed).resolve_left (clause _)
      obtain ⟨parts, among, member⟩ := (mem_whereParts clause _).mp known
      rcases List.mem_append.mp among with own | keyed
      · exact .inl ((mem_ownClauses clause definition).mp ⟨parts, own, member⟩)
      · -- the disjunction of the keys, each a conjunction of its columns
        rw [List.mem_singleton.mp keyed, mem_parenthesized clause,
          mem_intercalate (clause _)] at member
        obtain ⟨test, tests, inside⟩ := member
        obtain ⟨predicates, chosen, rfl⟩ := List.mem_map.mp tests
        rw [mem_parenthesized clause, mem_intercalate (clause _)] at inside
        obtain ⟨single, singles, last⟩ := inside
        obtain ⟨predicate, own, rfl⟩ := List.mem_map.mp singles
        obtain rfl := List.mem_singleton.mp last
        obtain ⟨key, filed, columnTests⟩ := forall₂_right (tested _ List.prefix_rfl) chosen
        obtain ⟨column, ofKey, test⟩ := forall₂_right columnTests own
        exact .inr ⟨key, filed, column, ofKey, test⟩

end Parts

section Bound

variable {placeholders : String → List Nat} {definition : Definition}
  {columns pkColumns : List DescribedColumn} {keyRows : List Row} {query : Query} {n : Nat}

theorem bindsOwn (keyed : KeyedTo n definition.params)
    (uses : UsesTo placeholders n definition.whereClause)
    (first : paramsAsArgs definition.params <+: query.args)
    (own : ∀ clause, .ownWhere clause ∈ query.parts → clause = definition.whereClause) :
    query.BindsOwn placeholders definition.params := by
  intro clause listed k used
  obtain rfl := own clause listed
  obtain ⟨low, high⟩ := uses k used
  obtain ⟨added, whole⟩ := first
  have within : k - 1 < (paramsAsArgs definition.params).length := by
    rw [length_paramsAsArgs keyed]
    omega
  rw [Query.argument, ← whole, List.getElem?_append_left within,
    getElem?_paramsAsArgs keyed low high]

theorem buildSnapshotQuery_bindsOwn (keyed : KeyedTo n definition.params)
    (uses : UsesTo placeholders n definition.whereClause) :
    (buildSnapshotQuery definition columns).BindsOwn placeholders definition.params := by
  apply bindsOwn keyed uses (List.prefix_append _ _)
  intro clause listed
  rcases (mem_buildSnapshotQuery (by simp) definition columns).mp listed with
    ⟨-, same⟩ | ⟨subset, -, -, other⟩
  · exact Part.ownWhere.inj same
  · cases other

theorem buildTargetedSnapshotQuery_binds (keyed : KeyedTo n definition.params)
    (uses : UsesTo placeholders n definition.whereClause)
    (built : buildTargetedSnapshotQuery definition columns pkColumns keyRows = .ok query) :
    query.BindsOwn placeholders definition.params ∧ query.BindsKeys := by
  obtain ⟨first, parts⟩ := mem_buildTargetedSnapshotQuery built
  constructor
  · apply bindsOwn keyed uses first
    intro clause listed
    rcases parts _ (by simp) listed with ⟨-, same⟩ | ⟨_, -, _, -, _, other, -⟩
    · exact Part.ownWhere.inj same
    · cases other
  · intro column key position listed
    rcases parts _ (by simp) listed with ⟨-, other⟩ | ⟨_, -, _, -, _, same, bound⟩
    · cases other
    · cases same
      exact bound

theorem subset_argument {subset : Subset} {m k : Nat} (keyed : KeyedTo n definition.params)
    (ours : subset ∈ definition.subset) (shown : subset.whereClause ≠ "")
    (subsetKeyed : KeyedTo m subset.params) (low : 1 ≤ k) (high : k ≤ m) :
    (buildSnapshotQuery definition columns).argument k =
      if k ≤ n then definition.params[toString k]? else subset.params[toString (k - n)]? := by
  have args : (buildSnapshotQuery definition columns).args =
      paramsAsArgs definition.params ++ paramsAsArgs subset.params := by
    rw [buildSnapshotQuery, Option.mem_def.mp ours]
    simp [subsetArgs, shown]
  rw [Query.argument, args]
  split
  · next own =>
      rw [List.getElem?_append_left (by rw [length_paramsAsArgs keyed]; omega),
        getElem?_paramsAsArgs keyed low own]
  · next beyond =>
      rw [List.getElem?_append_right (by rw [length_paramsAsArgs keyed]; omega),
        length_paramsAsArgs keyed, Nat.sub_right_comm,
        getElem?_paramsAsArgs subsetKeyed (by omega) (by omega)]

/-- The placeholders of a query have the parameters of their own clauses exactly when those of
the subset find them behind the parameters of the definition. -/
theorem placeholders_bound_iff (placeholders : String → List Nat) (definition : Definition)
    (columns pkColumns : List DescribedColumn) (keyRows : List Row) (n : Nat)
    (keyed : KeyedTo n definition.params)
    (uses : UsesTo placeholders n definition.whereClause)
    (subsets : ∀ subset ∈ definition.subset, ∃ m, KeyedTo m subset.params ∧
      UsesTo placeholders m subset.whereClause) :
    ((buildSnapshotQuery definition columns).BindsOwn placeholders definition.params ∧
        (∀ subset ∈ definition.subset,
          (buildSnapshotQuery definition columns).BindsSubset placeholders subset.params) ∧
        ∀ query, buildTargetedSnapshotQuery definition columns pkColumns keyRows = .ok query →
          query.BindsOwn placeholders definition.params ∧ query.BindsKeys) ↔
      ∀ subset ∈ definition.subset, subset.whereClause ≠ "" →
        ∀ k ∈ placeholders subset.whereClause,
          (if k ≤ n then definition.params[toString k]? else subset.params[toString (k - n)]?) =
            subset.params[toString k]? := by
  constructor
  · rintro ⟨-, bound, -⟩ subset ours shown k used
    obtain ⟨m, subsetKeyed, among⟩ := subsets subset ours
    obtain ⟨low, high⟩ := among k used
    rw [← subset_argument keyed ours shown subsetKeyed low high]
    exact bound subset ours subset.whereClause ((mem_buildSnapshotQuery (by simp) definition
      columns).mpr (.inr ⟨subset, ours, shown, rfl⟩)) k used
  · intro coincide
    refine ⟨buildSnapshotQuery_bindsOwn keyed uses, fun subset ours clause listed k used => ?_,
      fun query built => buildTargetedSnapshotQuery_binds keyed uses built⟩
    obtain ⟨m, subsetKeyed, among⟩ := subsets subset ours
    rcases (mem_buildSnapshotQuery (by simp) definition columns).mp listed with
      ⟨-, other⟩ | ⟨found, same, shown, clauses⟩
    · cases other
    · obtain rfl : subset = found := Option.some.inj (ours.symm.trans same)
      obtain rfl := Part.subsetWhere.inj clauses
      obtain ⟨low, high⟩ := among k used
      rw [subset_argument keyed ours shown subsetKeyed low high]
      exact coincide subset ours shown k used

/-- The placeholders of a clause in which nothing is quoted. -/
def dollarNumbers : List Char → List Nat
  | [] => []
  | char :: rest =>
      if char = '$' then
        (parseDigits (rest.takeWhile Char.isDigit)).toList ++ dollarNumbers rest
      else
        dollarNumbers rest

def oneParameter (value : String) : Dict String := (∅ : Dict String).insert "1" value

theorem keyedTo_oneParameter (value : String) : KeyedTo 1 (oneParameter value) where
  bound := by decide
  keys name := by
    rw [oneParameter, Std.ExtTreeMap.mem_insert, Std.LawfulEqCmp.compare_eq_iff_eq]
    constructor
    · rintro (rfl | known)
      · exact ⟨1, Nat.le_refl 1, Nat.le_refl 1, rfl⟩
      · exact absurd known Std.ExtTreeMap.not_mem_empty
    · rintro ⟨k, low, high, rfl⟩
      obtain rfl := Nat.le_antisymm high low
      exact .inl rfl

theorem keyedTo_zero : KeyedTo 0 ∅ where
  bound := by decide
  keys name := by
    refine ⟨fun known => absurd known Std.ExtTreeMap.not_mem_empty, ?_⟩
    rintro ⟨k, low, high, -⟩
    omega

def idColumn : List DescribedColumn := [⟨"id", "text", true, some 0⟩]

def namedItems (whereClause : String) (params : Dict String) : Definition where
  relation := ⟨"public", "items"⟩
  whereClause := whereClause
  params := params
  subset := some { whereClause := "id = $1", params := oneParameter "7" }

theorem placeholders_bound_alone :
    (buildSnapshotQuery (namedItems "" ∅) idColumn).BindsSubset
      (fun clause => dollarNumbers clause.toList) (oneParameter "7") := by
  refine ((placeholders_bound_iff (fun clause => dollarNumbers clause.toList) (namedItems "" ∅)
    idColumn idColumn [] 0 keyedTo_zero (by unfold UsesTo; decide) ?_).mpr ?_).2.1 _ rfl
  · rintro subset ours
    obtain rfl := Option.some.inj ours
    exact ⟨1, keyedTo_oneParameter "7", by unfold UsesTo; decide⟩
  · rintro subset ours -
    obtain rfl := Option.some.inj ours
    decide +kernel

theorem subset_placeholder_shifted :
    KeyedTo 1 (namedItems "name = $1" (oneParameter "open")).params ∧
      UsesTo (fun clause => dollarNumbers clause.toList) 1 "name = $1" ∧
      KeyedTo 1 (oneParameter "7") ∧
      UsesTo (fun clause => dollarNumbers clause.toList) 1 "id = $1" ∧
      (buildSnapshotQuery (namedItems "name = $1" (oneParameter "open")) idColumn).argument 1 =
        some "open" ∧
      ¬ (buildSnapshotQuery (namedItems "name = $1" (oneParameter "open"))
        idColumn).BindsSubset (fun clause => dollarNumbers clause.toList)
          (oneParameter "7") := by
  refine ⟨keyedTo_oneParameter "open", by unfold UsesTo; decide, keyedTo_oneParameter "7",
    by unfold UsesTo; decide, by decide +kernel, fun bound => ?_⟩
  have value := bound "id = $1" (by decide +kernel) 1 (by decide)
  exact absurd value (by decide +kernel)

end Bound

end PostgresSync.Pg
