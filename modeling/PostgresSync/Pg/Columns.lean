import PostgresSync.Pg.ChangeBatch

namespace PostgresSync.Pg

open PostgresSync.Data
open PostgresSync.Shapes

structure DescribedColumn where
  name : String
  type : String
  notNull : Bool
  pkIndex : Option Int
deriving DecidableEq, Repr

structure RelationMetadata where
  relation : Relation
  rootRelation : Relation
  columns : List DescribedColumn
  pkColumns : List DescribedColumn
deriving DecidableEq

/-- The order of two columns by primary-key index.  Only key columns are
compared. -/
def pkIndexLE (left right : DescribedColumn) : Prop :=
  left.pkIndex.getD 0 ≤ right.pkIndex.getD 0

instance : DecidableRel pkIndexLE := fun left right =>
  inferInstanceAs (Decidable (left.pkIndex.getD 0 ≤ right.pkIndex.getD 0))

def primaryKeyColumns (columns : List DescribedColumn) : List DescribedColumn :=
  (columns.filter fun column => column.pkIndex.isSome).insertionSort pkIndexLE

def metadataFor (relation root : Relation) (columns : List DescribedColumn) :
    RelationMetadata where
  relation := relation
  rootRelation := root
  columns := columns
  pkColumns := primaryKeyColumns columns

def columnSchema (column : DescribedColumn) : ColumnSchema where
  type := column.type
  notNull := column.notNull
  pkIndex := column.pkIndex

def schemaForColumns (columns : List DescribedColumn) : Schema :=
  Dict.ofPairs (columns.map fun column => (column.name, columnSchema column))

/-- Takes a wanted column whose name is not `seen` among those taken. -/
def takeUnseen (wanted : DescribedColumn → Bool) (taken : List DescribedColumn)
    (column : DescribedColumn) : List DescribedColumn :=
  if wanted column && !taken.any (fun other => other.name = column.name) then
    taken ++ [column]
  else
    taken

def projectedColumns (described : List DescribedColumn) (explicit : List String) :
    List DescribedColumn :=
  if explicit.isEmpty then
    described
  else
    let named := explicit.foldl (fun columns name =>
      described.foldl (takeUnseen fun column => column.name = name) columns) []
    described.foldl (takeUnseen (·.pkIndex.isSome)) named

/-! The tuples of a logical message. -/

structure TupleCell where
  dataType : Char
  data : String := ""
deriving DecidableEq, Repr

abbrev TupleData := List TupleCell

def cellValue (cell : TupleCell) : Value :=
  match cell.dataType with
  | 'n' => none
  | 'u' => some "<unchanged-toast>"
  | _ => some cell.data

def decodeTupleRow (columns : List DescribedColumn) : Option TupleData → Row
  | none => ∅
  | some cells =>
      Dict.ofPairs ((columns.zip cells).map fun pair =>
        (pair.1.name, cellValue pair.2))

def primaryKeyRowForColumns (pkColumns : List DescribedColumn) (row : Row) : Row :=
  if row.isEmpty then
    ∅
  else
    Dict.ofPairs (pkColumns.map fun column =>
      (column.name, row.getD column.name none))

inductive OldTupleType where
  | none
  | key
  | old
deriving DecidableEq, Repr

inductive TupleMessage where
  | insert (relationID : RelationID) (tuple : TupleData)
  | update (relationID : RelationID) (oldTupleType : OldTupleType)
      (oldTuple : Option TupleData) (newTuple : TupleData)
  | delete (relationID : RelationID) (oldTupleType : OldTupleType)
      (oldTuple : TupleData)
deriving DecidableEq, Repr

def TupleMessage.relationID : TupleMessage → RelationID
  | .insert relationID _ => relationID
  | .update relationID _ _ _ => relationID
  | .delete relationID _ _ => relationID

def oldTupleColumns (metadata : RelationMetadata) : OldTupleType →
    List DescribedColumn
  | .key => metadata.pkColumns
  | _ => metadata.columns

/-! Each `record` function adds its records to the batch in this order. -/

def insertRecords (metadata : RelationMetadata) (tuple : TupleData) :
    List ChangeRecord :=
  let newTuple := decodeTupleRow metadata.columns (some tuple)
  [{ relation := metadata.relation
     operation := .insert
     primaryKey := primaryKeyRowForColumns metadata.pkColumns newTuple
     newTuple := newTuple }]

def updateRecords (metadata : RelationMetadata) (oldTupleType : OldTupleType)
    (oldCells : Option TupleData) (newCells : TupleData) : List ChangeRecord :=
  let oldTuple := decodeTupleRow (oldTupleColumns metadata oldTupleType) oldCells
  let newTuple := decodeTupleRow metadata.columns (some newCells)
  let record (key : Row) : ChangeRecord := {
    relation := metadata.relation
    operation := .update
    primaryKey := key
    oldTuple := oldTuple
    newTuple := newTuple }
  let keys := [primaryKeyRowForColumns metadata.pkColumns oldTuple,
    primaryKeyRowForColumns metadata.pkColumns newTuple]
  (keys.filter fun key => !key.isEmpty).map record

def deleteRecords (metadata : RelationMetadata) (oldTupleType : OldTupleType)
    (oldCells : TupleData) : List ChangeRecord :=
  let oldTuple := decodeTupleRow (oldTupleColumns metadata oldTupleType)
    (some oldCells)
  [{ relation := metadata.relation
     operation := .delete
     primaryKey := primaryKeyRowForColumns metadata.pkColumns oldTuple
     oldTuple := oldTuple }]

def changeRecords (metadata : RelationMetadata) : TupleMessage → List ChangeRecord
  | .insert _ tuple => insertRecords metadata tuple
  | .update _ oldTupleType oldTuple newTuple =>
      updateRecords metadata oldTupleType oldTuple newTuple
  | .delete _ oldTupleType oldTuple => deleteRecords metadata oldTupleType oldTuple

abbrev RelationCache := Std.ExtTreeMap RelationID RelationMetadata compare

/-- `recordInsert`, `recordUpdate` and `recordDelete`: a message for a relation
that is not cached is skipped. -/
def recordChange (cache : RelationCache) (batch : ChangeBatch)
    (message : TupleMessage) : ChangeBatch :=
  match cache[message.relationID]? with
  | none => batch
  | some metadata =>
      (changeRecords metadata message).foldl
        (fun batch record => batch.add message.relationID record) batch

end PostgresSync.Pg
