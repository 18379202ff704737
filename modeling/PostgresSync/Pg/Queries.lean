import PostgresSync.Pg.Runtime

namespace PostgresSync.Pg

open PostgresSync.Data
open PostgresSync.Shapes

/-! The queries of the runtime, against a database as it is at one moment. -/

inductive QueryError where
  /-- SQLSTATE 42P01. -/
  | undefinedTable
  | other (text : String)
deriving DecidableEq, Repr

/-- What the server answers.  `describe` is the catalog query of a relation, which
is empty for an unknown one; `matching` are the whole rows, as text, that satisfy
the clauses of a definition when the given columns are selected. -/
structure Database where
  describe : Relation → Except String (List DescribedColumn)
  partitionRoot : Relation → Except String Relation
  matching : Definition → List String → Except QueryError (List Row)

namespace Database

def describeRelation (db : Database) (relation : Relation) :
    Except RuntimeError (List DescribedColumn) :=
  match db.describe relation with
  | .error text => .error (.query text)
  | .ok [] => .error (.relationNotFound relation)
  | .ok (column :: rest) => .ok (column :: rest)

def lookupPartitionRoot (db : Database) (relation : Relation) :
    Except RuntimeError Relation :=
  (db.partitionRoot relation).mapError .query

end Database

/-- `SELECT "a"::text AS "a", ..` of one row. -/
def selectRow (columns : List DescribedColumn) (row : Row) : Row :=
  Dict.ofPairs (columns.map fun column => (column.name, row.getD column.name none))

/-- The result of a query whose rows are those that pass a test. -/
def queryRows (db : Database) (definition : Definition)
    (columns : List DescribedColumn) (test : Row → Bool) :
    Except RuntimeError SnapshotResult :=
  match db.matching definition (columns.map (·.name)) with
  | .error .undefinedTable => .error (.relationNotFound definition.relation)
  | .error (.other text) => .error (.query text)
  | .ok rows =>
      .ok { schema := schemaForColumns columns
            rows := (rows.filter test).map (selectRow columns)
            metadata := none }

/-- `Snapshot` in data mode and without metadata. -/
def snapshot (db : Database) (definition : Definition) :
    Except RuntimeError SnapshotResult :=
  match db.describeRelation definition.relation with
  | .error error => .error error
  | .ok columns =>
      queryRows db definition (projectedColumns columns definition.columns) fun _ => true

def dedupeKeyRows (pkColumns : List DescribedColumn) (keyRows : List Row) : List Row :=
  let keys := keyRows.map (primaryKeyRowForColumns pkColumns)
  (Dict.ofPairs ((keys.filter fun key => primaryKeySignature key ≠ "").map fun key =>
    (primaryKeySignature key, key))).values

/-- `"a"::text = $1 AND ..` for one key. -/
def matchesKey (pkColumns : List DescribedColumn) (row key : Row) : Bool :=
  pkColumns.all fun column =>
    row.getD column.name none = some (valueText (key.getD column.name none))

def snapshotChangedKeys (db : Database) (definition : Definition)
    (metadata : RelationMetadata) (keyRows : List Row) :
    Except RuntimeError SnapshotResult :=
  let relation := definition.relation
  let keys := dedupeKeyRows metadata.pkColumns keyRows
  if metadata.pkColumns.isEmpty then
    .error (.query ("relation " ++ relation.schema ++ "." ++ relation.table ++
      " does not have a primary key"))
  else if keyRows.isEmpty then
    .error (.query "no changed primary keys to refresh")
  else if keys.isEmpty then
    -- the disjunction of no keys is not a clause
    .error (.query "syntax error")
  else
    queryRows db definition (projectedColumns metadata.columns definition.columns)
      fun row => keys.any (matchesKey metadata.pkColumns row)

end PostgresSync.Pg
