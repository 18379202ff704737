import PostgresSync.Pg.DependencyScan

namespace PostgresSync.Pg

open PostgresSync.Shapes

/-! The clauses of a shape as SQL has them: predicates with subqueries, whose tables are
joined, listed, nested in parentheses and introduced by `WITH`.  A clause is a tree; its
tokens are what the tokenizer finds in its text. -/

section Leaves

structure Keyword (word : String) where
  spelled : String
  folds : lowerWord spelled = word

def Keyword.token {word : String} (keyword : Keyword word) : DependencyToken :=
  ⟨keyword.spelled, false, false⟩

/-- A word, or a name in double quotes. -/
structure Label where
  spelled : String
  quoted : Bool
  present : spelled ≠ ""

def Label.token (label : Label) : DependencyToken :=
  ⟨label.spelled, label.quoted, false⟩

/-- The name that SQL takes the label for. -/
def Label.folded (label : Label) : String :=
  if label.quoted then label.spelled else lowerWord label.spelled

/-- The words that SQL does not take for the name of a table or for an alias. -/
def reservedWords : List String :=
  ["from", "join", "with", "select", "as", "only", "lateral", "on", "using", "where", "inner",
    "left", "right", "full", "cross", "natural", "group", "having", "order", "limit", "offset",
    "union", "intersect", "except", "window", "returning"]

structure Name extends Label where
  free : quoted = false → lowerWord spelled ∉ reservedWords

/-- The name of a common table; right after `WITH` the word `RECURSIVE` is none. -/
structure CteName extends Name where
  plain : quoted = false → lowerWord spelled ≠ "recursive"

/-- A word or name of a predicate, or after a dot: any but the words that introduce tables. -/
structure Term extends Label where
  quiet : quoted = false → lowerWord spelled ∉ ["from", "join", "with"]

inductive TableName where
  | plain (name : Name)
  | qualified (schema : Name) (table : Term)

/-- An alias; without `AS` it is none of the words that can follow an item, quoted or not. -/
structure Alias where
  keyword : Option (Keyword "as")
  name : Name
  plain : keyword = none → dependencyAliasBoundary name.token = false

def joinKinds : List (List String) :=
  [[], ["inner"], ["left"], ["left", "outer"], ["right"], ["right", "outer"], ["full"],
    ["full", "outer"]]

structure JoinKind where
  words : List String
  known : words.map lowerWord ∈ joinKinds

inductive Atom where
  | term (term : Term)
  | dot

end Leaves

section Trees

mutual

inductive Condition where
  | done
  | atom (atom : Atom) (rest : Condition)
  | group (inner : Conditions) (rest : Condition)
  | subquery (query : Subselect) (rest : Condition)

inductive Conditions where
  | one (condition : Condition)
  | more (condition : Condition) (rest : Conditions)

inductive Subselect where
  | select (ctes : Ctes) (select : Keyword "select") (columns : Conditions)
      (keyword : Keyword "from") (items : Items) (filter : Filter)

inductive Filter where
  | absent
  | holds (keyword : Keyword "where") (condition : Condition)

inductive Ctes where
  | absent
  | listed (keyword : Keyword "with") (recursive : Option (Keyword "recursive"))
      (list : CteList)

inductive CteList where
  | one (name : CteName) (keyword : Keyword "as") (query : Subselect)
  | more (name : CteName) (keyword : Keyword "as") (query : Subselect) (rest : CteList)

inductive Items where
  | one (first : Item) (joins : Joins)
  | more (first : Item) (joins : Joins) (rest : Items)

inductive Joins where
  | done
  | more (join : Join) (rest : Joins)

inductive Join where
  | on (kind : JoinKind) (join : Keyword "join") (item : Item) (keyword : Keyword "on")
      (condition : Condition)

inductive Item where
  | table (name : TableName) (called : Option Alias)
  | subselect (query : Subselect) (called : Alias)
  | nested (first : Item) (join : Join) (rest : Joins) (called : Option Alias)

end

end Trees

section Tokens

def openMark : DependencyToken := ⟨"(", false, true⟩
def closeMark : DependencyToken := ⟨")", false, true⟩
def commaMark : DependencyToken := ⟨",", false, true⟩
def dotMark : DependencyToken := ⟨".", false, true⟩

def inParens (tokens : List DependencyToken) : List DependencyToken :=
  openMark :: (tokens ++ [closeMark])

def Atom.token : Atom → DependencyToken
  | .term label => label.token
  | .dot => dotMark

def TableName.tokens : TableName → List DependencyToken
  | .plain name => [name.token]
  | .qualified schema table => [schema.token, dotMark, table.token]

def Alias.tokens (called : Alias) : List DependencyToken :=
  (called.keyword.map Keyword.token).toList ++ [called.name.token]

def aliasTokens (called : Option Alias) : List DependencyToken :=
  (called.map Alias.tokens).getD []

def JoinKind.tokens (kind : JoinKind) : List DependencyToken :=
  kind.words.map fun word => ⟨word, false, false⟩

mutual

def Condition.tokens : Condition → List DependencyToken
  | .done => []
  | .atom first rest => first.token :: rest.tokens
  | .group inner rest => inParens inner.tokens ++ rest.tokens
  | .subquery query rest => inParens query.tokens ++ rest.tokens

def Conditions.tokens : Conditions → List DependencyToken
  | .one condition => condition.tokens
  | .more condition rest => condition.tokens ++ commaMark :: rest.tokens

def Subselect.tokens : Subselect → List DependencyToken
  | .select ctes select columns keyword items filter =>
      ctes.tokens ++ select.token :: (columns.tokens ++ keyword.token ::
        (items.tokens ++ filter.tokens))

def Filter.tokens : Filter → List DependencyToken
  | .absent => []
  | .holds keyword condition => keyword.token :: condition.tokens

def Ctes.tokens : Ctes → List DependencyToken
  | .absent => []
  | .listed keyword recursive list =>
      keyword.token :: ((recursive.map Keyword.token).toList ++ list.tokens)

def CteList.tokens : CteList → List DependencyToken
  | .one name keyword query => name.token :: keyword.token :: inParens query.tokens
  | .more name keyword query rest =>
      (name.token :: keyword.token :: inParens query.tokens) ++ commaMark :: rest.tokens

def Items.tokens : Items → List DependencyToken
  | .one first joins => first.tokens ++ joins.tokens
  | .more first joins rest => (first.tokens ++ joins.tokens) ++ commaMark :: rest.tokens

def Joins.tokens : Joins → List DependencyToken
  | .done => []
  | .more join rest => join.tokens ++ rest.tokens

def Join.tokens : Join → List DependencyToken
  | .on kind join item keyword condition =>
      kind.tokens ++ join.token :: (item.tokens ++ keyword.token :: condition.tokens)

def Item.tokens : Item → List DependencyToken
  | .table name called => name.tokens ++ aliasTokens called
  | .subselect query called => inParens query.tokens ++ aliasTokens (some called)
  | .nested first join rest called =>
      inParens (first.tokens ++ (join.tokens ++ rest.tokens)) ++ aliasTokens called

end

end Tokens

section Tables

/-- The relation that a reference names where these names are those of common tables. -/
def TableName.relation? (schema : String) (common : String → Bool) : TableName → Option Relation
  | .plain name => if common name.folded then none else some ⟨schema, name.folded⟩
  | .qualified owner table => some ⟨owner.folded, table.folded⟩

def CteList.names : CteList → List String
  | .one name _ _ => [name.folded]
  | .more name _ _ rest => name.folded :: rest.names

def Ctes.names : Ctes → List String
  | .absent => []
  | .listed _ _ list => list.names

/-! The items of a clause: the tables that its `FROM`s name, at any depth. -/

mutual

def Condition.items : Condition → List TableName
  | .done => []
  | .atom _ rest => rest.items
  | .group inner rest => inner.items ++ rest.items
  | .subquery query rest => query.items ++ rest.items

def Conditions.items : Conditions → List TableName
  | .one condition => condition.items
  | .more condition rest => condition.items ++ rest.items

def Subselect.items : Subselect → List TableName
  | .select ctes _ columns _ items filter =>
      ctes.items ++ (columns.items ++ (items.items ++ filter.items))

def Filter.items : Filter → List TableName
  | .absent => []
  | .holds _ condition => condition.items

def Ctes.items : Ctes → List TableName
  | .absent => []
  | .listed _ _ list => list.items

def CteList.items : CteList → List TableName
  | .one _ _ query => query.items
  | .more _ _ query rest => query.items ++ rest.items

def Items.items : Items → List TableName
  | .one first joins => first.items ++ joins.items
  | .more first joins rest => (first.items ++ joins.items) ++ rest.items

def Joins.items : Joins → List TableName
  | .done => []
  | .more join rest => join.items ++ rest.items

def Join.items : Join → List TableName
  | .on _ _ item _ condition => item.items ++ condition.items

def Item.items : Item → List TableName
  | .table name _ => [name]
  | .subselect query _ => query.items
  | .nested first join rest _ => first.items ++ (join.items ++ rest.items)

end

/-! The tables that a clause reads where these common tables are in scope.  The common tables of
a query are in scope in the whole of it; the body of one sees those listed before it, and after
`RECURSIVE` all of its list. -/

variable (schema : String)

mutual

def Condition.tables (scope : List String) : Condition → List Relation
  | .done => []
  | .atom _ rest => rest.tables scope
  | .group inner rest => inner.tables scope ++ rest.tables scope
  | .subquery query rest => query.tables scope ++ rest.tables scope

def Conditions.tables (scope : List String) : Conditions → List Relation
  | .one condition => condition.tables scope
  | .more condition rest => condition.tables scope ++ rest.tables scope

def Subselect.tables (scope : List String) : Subselect → List Relation
  | .select ctes _ columns _ items filter =>
      let inner := ctes.names ++ scope
      ctes.tables scope ++ (columns.tables inner ++ (items.tables inner ++ filter.tables inner))

def Filter.tables (scope : List String) : Filter → List Relation
  | .absent => []
  | .holds _ condition => condition.tables scope

def Ctes.tables (scope : List String) : Ctes → List Relation
  | .absent => []
  | .listed _ none list => list.tables scope
  | .listed _ (some _) list => list.tables (list.names ++ scope)

def CteList.tables (scope : List String) : CteList → List Relation
  | .one _ _ query => query.tables scope
  | .more name _ query rest =>
      query.tables scope ++ rest.tables (name.folded :: scope)

def Items.tables (scope : List String) : Items → List Relation
  | .one first joins => first.tables scope ++ joins.tables scope
  | .more first joins rest =>
      (first.tables scope ++ joins.tables scope) ++ rest.tables scope

def Joins.tables (scope : List String) : Joins → List Relation
  | .done => []
  | .more join rest => join.tables scope ++ rest.tables scope

def Join.tables (scope : List String) : Join → List Relation
  | .on _ _ item _ condition => item.tables scope ++ condition.tables scope

def Item.tables (scope : List String) : Item → List Relation
  | .table name _ => (name.relation? schema (· ∈ scope)).toList
  | .subselect query _ => query.tables scope
  | .nested first join rest _ =>
      first.tables scope ++ (join.tables scope ++ rest.tables scope)

end

end Tables

section Reads

/-! What the scanner takes from a clause.  It reads an item where it expects one: after `FROM`
and `JOIN`, and after a comma as long as nothing has closed the list.  A subquery in the `ON`
of a join closes the list around it, and so does a word that ends a `FROM`.  Where it expects
no item it passes over a table, but still finds the queries within. -/

mutual

def Condition.plain : Condition → Bool
  | .done => true
  | .atom _ rest => rest.plain
  | .group inner rest => inner.plain && rest.plain
  | .subquery _ _ => false

def Conditions.plain : Conditions → Bool
  | .one condition => condition.plain
  | .more condition rest => condition.plain && rest.plain

end

/-- The list of items goes on after the condition: no query stands in it, and outside of
parentheses no word that ends a `FROM`. -/
def Condition.keeps : Condition → Bool
  | .done => true
  | .atom first rest => !dependencyFromBoundary first.token && rest.keeps
  | .group inner rest => inner.plain && rest.keeps
  | .subquery _ _ => false

def Join.keeps : Join → Bool
  | .on _ _ _ _ condition => condition.keeps

def Join.plain : Join → Bool
  | .on _ _ _ _ condition => condition.plain

def Joins.keeps : Joins → Bool
  | .done => true
  | .more join rest => join.keeps && rest.keeps

def Joins.plain : Joins → Bool
  | .done => true
  | .more join rest => join.plain && rest.plain

mutual

def Condition.reads : Condition → List TableName
  | .done => []
  | .atom _ rest => rest.reads
  | .group inner rest => inner.reads ++ rest.reads
  | .subquery query rest => query.reads ++ rest.reads

def Conditions.reads : Conditions → List TableName
  | .one condition => condition.reads
  | .more condition rest => condition.reads ++ rest.reads

def Subselect.reads : Subselect → List TableName
  | .select ctes _ columns _ items filter =>
      ctes.reads ++ (columns.reads ++ (items.reads true ++ filter.reads))

def Filter.reads : Filter → List TableName
  | .absent => []
  | .holds _ condition => condition.reads

def Ctes.reads : Ctes → List TableName
  | .absent => []
  | .listed _ _ list => list.reads

def CteList.reads : CteList → List TableName
  | .one _ _ query => query.reads
  | .more _ _ query rest => query.reads ++ rest.reads

/-- `expected` says whether the list is still open where these items begin. -/
def Items.reads (expected : Bool) : Items → List TableName
  | .one first joins => first.reads expected ++ joins.reads
  | .more first joins rest =>
      (first.reads expected ++ joins.reads) ++
        rest.reads (expected && joins.keeps)

def Joins.reads : Joins → List TableName
  | .done => []
  | .more join rest => join.reads ++ rest.reads

def Join.reads : Join → List TableName
  | .on _ _ item _ condition => item.reads true ++ condition.reads

/-- The first item of a parenthesised join is never expected. -/
def Item.reads (expected : Bool) : Item → List TableName
  | .table name _ => if expected then [name] else []
  | .subselect query _ => query.reads
  | .nested first join rest _ => first.reads false ++ (join.reads ++ rest.reads)

end

/-! The names of the common tables that `collectDependencyCTENames` collects: those of every
`WITH` but the ones within the body of a common table. -/

mutual

def Condition.collected : Condition → List String
  | .done => []
  | .atom _ rest => rest.collected
  | .group inner rest => inner.collected ++ rest.collected
  | .subquery query rest => query.collected ++ rest.collected

def Conditions.collected : Conditions → List String
  | .one condition => condition.collected
  | .more condition rest => condition.collected ++ rest.collected

def Subselect.collected : Subselect → List String
  | .select ctes _ columns _ items filter =>
      ctes.names ++ (columns.collected ++ (items.collected ++ filter.collected))

def Filter.collected : Filter → List String
  | .absent => []
  | .holds _ condition => condition.collected

def Items.collected : Items → List String
  | .one first joins => first.collected ++ joins.collected
  | .more first joins rest => (first.collected ++ joins.collected) ++ rest.collected

def Joins.collected : Joins → List String
  | .done => []
  | .more join rest => join.collected ++ rest.collected

def Join.collected : Join → List String
  | .on _ _ item _ condition => item.collected ++ condition.collected

def Item.collected : Item → List String
  | .table _ _ => []
  | .subselect query _ => query.collected
  | .nested first join rest _ => first.collected ++ (join.collected ++ rest.collected)

end

end Reads

end PostgresSync.Pg
