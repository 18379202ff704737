import PostgresSync.Data.Decimal
import PostgresSync.Shapes.Definition
import PostgresSync.Shapes.Keys
import PostgresSync.Shapes.Offset

namespace PostgresSync.Shapes

open PostgresSync.Data

variable [Digest]

structure ChangeMetadata where
  keyRelation : Relation := .empty
  commitLSN : UInt64 := 0
  transactionID : UInt32 := 0
  dependentRefresh : Bool := false
deriving DecidableEq

/-! Row sets and their messages.  Rows and messages are values here, so the
source's clone functions have no counterpart. -/

def operationHeaders (operation : String) (relation : Relation) : Headers :=
  Dict.ofPairs [("operation", .string operation),
    ("relation", .strings (relationHeader relation))]

def buildSnapshotMessages (definition : Definition)
    (snapshot : SnapshotResult) : List Message :=
  if definition.log = "changes_only" then
    []
  else
    snapshot.rows.map fun row => {
      headers := operationHeaders "insert" definition.relation
      key := messageKey definition.relation snapshot.schema row
      value := row
      internalKey := primaryKeySignature snapshot.schema row }

def dependentTagValue (internalKey : String) : String :=
  if '|' ∈ internalKey.toList then
    internalKey
  else
    match cut '=' internalKey.toList with
    | some (_, value) => String.ofList value
    | none => internalKey

def dependentTag (handle internalKey : String) : String :=
  Digest.md5Hex (handle ++ "v:" ++ dependentTagValue internalKey)

def addDependentTag (handle : String) (message : Message) : Message :=
  if message.internalKey = "" then
    message
  else
    { message with
      headers := message.headers.insert "tags"
        (.strings [dependentTag handle message.internalKey]) }

def decorateDependentSnapshotMessages (handle : String)
    (definition : Definition) (messages : List Message) : List Message :=
  if definitionHasDependencyKeyword definition then
    messages.map (addDependentTag handle)
  else
    messages

def materializedRows (schema : Schema) (rows : List Row) : Dict Row :=
  rows.foldl
    (fun result row => result.insert (primaryKeySignature schema row) row) ∅

def primaryKeyRow (schema : Schema) (row : Row) : Row :=
  row.filter fun name _ => (schema[name]?.bind (·.pkIndex)).isSome

def changedColumns (oldRow newRow : Row) : List String :=
  (newRow.toList.filter fun entry => oldRow.getD entry.1 none ≠ entry.2).map
      (·.1) ++
    oldRow.keys.filter fun name => !newRow.contains name

/-- The value and old value of an update, or `none` when nothing changed. -/
def updateValues (definition : Definition) (schema : Schema)
    (oldRow newRow : Row) : Option (Row × Row) :=
  let changed := changedColumns oldRow newRow
  if changed.isEmpty then
    none
  else if definition.replica = "full" then
    some (newRow, oldRow.filter fun name _ => name ∈ changed)
  else
    some (changed.foldl (fun value name => value.insert name (newRow.getD name none))
      (primaryKeyRow schema newRow), ∅)

def deleteValue (definition : Definition) (schema : Schema) (row : Row) : Row :=
  if definition.replica = "full" then row else primaryKeyRow schema row

/-- One turn of the loop of `diffRows`. -/
def diffRow (definition : Definition) (schema : Schema)
    (keyRelation : Relation) (key : String) :
    Option Row → Option Row → Option Message
  | none, some newRow => some {
      headers := operationHeaders "insert" definition.relation
      key := messageKey keyRelation schema newRow
      value := newRow
      internalKey := key }
  | some oldRow, none => some {
      headers := operationHeaders "delete" definition.relation
      key := messageKey keyRelation schema oldRow
      value := deleteValue definition schema oldRow
      internalKey := key }
  | some oldRow, some newRow =>
      if oldRow = newRow then
        none
      else
        (updateValues definition schema oldRow newRow).map fun values => {
          headers := operationHeaders "update" definition.relation
          key := messageKey keyRelation schema newRow
          value := values.1
          oldValue := values.2
          internalKey := key }
  | none, none => none

def diffKeys (previous current : Dict Row) : List String :=
  (previous.keys ++ current.keys.filter fun key => !previous.contains key)
    |>.insertionSort (· ≤ ·)

def diffRows (definition : Definition) (schema : Schema)
    (previous current : Dict Row) (keyRelation : Relation) : List Message :=
  (diffKeys previous current).filterMap fun key =>
    diffRow definition schema keyRelation key previous[key]? current[key]?

def dependentMoveOutMessage (handle internalKey : String) : Message where
  headers := Dict.ofPairs [("event", .string "move-out"),
    ("patterns", .patterns [⟨0, dependentTag handle internalKey⟩])]
  internalKey := internalKey

def snapshotEndMessage : Message where
  headers := Dict.ofPairs [("control", .string "snapshot-end"),
    ("xmin", .string "0"), ("xmax", .string "0"), ("xip_list", .strings [])]

/-- One message of a refresh; `related` says that the change was made in another relation
than the shape's. -/
def decorateMessage (handle : String) (related : Bool) (message : Message) : Message :=
  if related && message.operation = "delete" then
    dependentMoveOutMessage handle message.internalKey
  else
    let tagged := addDependentTag handle message
    if related && message.operation = "insert" then
      { tagged with headers := tagged.headers.insert "is_move_in" (.bool true) }
    else
      tagged

def decorateDependentRefreshMessages (handle : String)
    (definition : Definition) (messages : List Message)
    (metadata : ChangeMetadata) : List Message :=
  if definitionHasDependencyKeyword definition then
    let relatedRelationChanged : Bool :=
      metadata.keyRelation ≠ .empty ∧ metadata.keyRelation ≠ definition.relation
    let decorated := messages.map (decorateMessage handle relatedRelationChanged)
    let moveIn := relatedRelationChanged &&
      messages.any fun message => message.operation = "insert"
    if moveIn then decorated ++ [snapshotEndMessage] else decorated
  else
    messages

def stampMessage (currentOffset : String) (metadata : ChangeMetadata)
    (index : Nat) (message : Message) : Message :=
  if 0 < metadata.commitLSN then
    let stamped := { message with
      offset := formatLSNOffset metadata.commitLSN index }
    if metadata.dependentRefresh then
      stamped
    else
      { stamped with
        headers := stamped.headers
          |>.insert "lsn" (.string (toString metadata.commitLSN.toNat))
          |>.insert "op_position" (.int index)
          |>.insert "txids" (.uint32s [metadata.transactionID]) }
  else if message.offset = "" then
    { message with offset := nextGeneratedOffset currentOffset index }
  else
    message

def markLast : List Message → List Message
  | [] => []
  | [message] =>
      [{ message with headers := message.headers.insert "last" (.bool true) }]
  | message :: next :: rest => message :: markLast (next :: rest)

/-- The stamped messages and the offset that becomes current. -/
def applyChangeOffsets (currentOffset : String) (messages : List Message)
    (metadata : ChangeMetadata) : List Message × String :=
  let stamped := messages.mapIdx (stampMessage currentOffset metadata)
  let stamped :=
    if 0 < metadata.commitLSN ∧ metadata.dependentRefresh = false then
      markLast stamped
    else
      stamped
  (stamped, (stamped.getLast?.map (·.offset)).getD currentOffset)

def liveWireValue (schema : Schema) (name : String) (value : Value) : Value :=
  if schema[name]?.any fun column => column.type = "bool" then
    match value with
    | some "true" => some "t"
    | some "false" => some "f"
    | _ => value
  else
    value

def applyLiveWireFormatRow (schema : Schema) (row : Row) : Row :=
  row.map (liveWireValue schema)

def applyLiveWireFormat (schema : Schema) (messages : List Message) :
    List Message :=
  messages.map fun message => { message with
    value := applyLiveWireFormatRow schema message.value
    oldValue := applyLiveWireFormatRow schema message.oldValue }

def applyMessageToMaterialized (materialized : Dict Row) (message : Message) :
    Dict Row :=
  let key := if message.internalKey = "" then message.key else message.internalKey
  if message.operation = "delete" then
    materialized.erase key
  else if message.operation = "insert" ∨ message.operation = "update" then
    materialized.insert key message.value
  else
    materialized

def targetedKeySet (schema : Schema) (keyRows rows : List Row) : StringSet :=
  Std.ExtTreeSet.ofList
    (((keyRows ++ rows).map (primaryKeySignature schema)).filter (· ≠ ""))
    compare

def subsetRows (rows : Dict Row) (keys : StringSet) : Dict Row :=
  rows.filter fun key _ => keys.contains key

def relationKey (relation : Relation) : String :=
  relation.schema ++ "." ++ relation.table

end PostgresSync.Shapes
