import PostgresSync.Shapes.Backend

namespace PostgresSync.Pg

open PostgresSync.Data
open PostgresSync.Shapes

abbrev RelationID := UInt32

abbrev LSN := UInt64

inductive ChangeOperation where
  | insert
  | update
  | delete
deriving DecidableEq, Repr

structure ChangeRecord where
  relation : Relation
  operation : ChangeOperation
  primaryKey : Row
  oldTuple : Row := ∅
  newTuple : Row := ∅
  commitLSN : LSN := 0
  xid : UInt32 := 0
deriving DecidableEq

structure ChangeBatch where
  xid : UInt32 := 0
  commitLSN : LSN := 0
  byRelation : Std.ExtTreeMap RelationID (Dict ChangeRecord) compare := ∅
  relationIDs : List RelationID := []
deriving DecidableEq

/-- `fmt.Sprint` of a row value. -/
def valueText : Value → String
  | some text => text
  | none => "<nil>"

/-- The signature that the batch files a key under; the `Shapes` package has its
own. -/
def primaryKeySignature (row : Row) : String :=
  "|".intercalate (row.toList.map fun entry => entry.1 ++ "=" ++ valueText entry.2)

namespace ChangeBatch

def reset (xid : UInt32) : ChangeBatch := { xid := xid }

def add (batch : ChangeBatch) (relationID : RelationID) (change : ChangeRecord) :
    ChangeBatch :=
  let key := primaryKeySignature change.primaryKey
  let known := batch.byRelation[relationID]?
  let changes := known.getD ∅
  { batch with
    relationIDs :=
      if known.isSome then batch.relationIDs else batch.relationIDs ++ [relationID]
    byRelation := batch.byRelation.insert relationID
      (if key = "" then changes else changes.insert key change) }

def sortedRelationIDs (batch : ChangeBatch) : List RelationID :=
  batch.relationIDs.insertionSort (· ≤ ·)

def changesForRelation (batch : ChangeBatch) (relationID : RelationID) :
    List ChangeRecord :=
  (batch.byRelation.getD relationID ∅).values.map fun change =>
    { change with commitLSN := batch.commitLSN, xid := batch.xid }

end ChangeBatch

end PostgresSync.Pg
