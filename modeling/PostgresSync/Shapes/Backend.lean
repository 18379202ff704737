import PostgresSync.Data.Dict

namespace PostgresSync.Shapes

open PostgresSync.Data

structure Relation where
  schema : String
  table : String
deriving DecidableEq, Repr

/-- The zero value `Relation{}`, which stands for "no relation given". -/
def Relation.empty : Relation := ⟨"", ""⟩

def initialOffset : String := "0_0"

def nowOffset : String := "0_inf"

structure ColumnSchema where
  type : String
  notNull : Bool
  pkIndex : Option Int
deriving DecidableEq, Repr

abbrev Schema := Dict ColumnSchema

/-- A column value as the backend produces it: text, or `none` for NULL. -/
abbrev Value := Option String

instance : LawfulBEq Value := inferInstance

/-- A row.  Go's nil map and empty map are one value here. -/
abbrev Row := Dict Value

instance : LawfulBEq Row := inferInstance

structure MovePattern where
  pos : Int
  value : String
deriving DecidableEq, Repr

inductive WireValue where
  | string (text : String)
  | bool (flag : Bool)
  | number (n : Int)
  | strings (items : List String)
  | numbers (items : List Int)
  | patterns (items : List MovePattern)
deriving DecidableEq, Repr

/-- The dynamic Go values that message headers hold.  `decoded` is what
`encoding/json` builds when it reads a number or an array back. -/
inductive HeaderValue where
  | string (text : String)
  | bool (flag : Bool)
  | int (n : Int)
  | strings (items : List String)
  | uint32s (items : List UInt32)
  | patterns (items : List MovePattern)
  | decoded (value : WireValue)
deriving DecidableEq, Repr

namespace HeaderValue

def toWire : HeaderValue → WireValue
  | .string text => .string text
  | .bool flag => .bool flag
  | .int n => .number n
  | .strings items => .strings items
  | .uint32s items => .numbers (items.map fun item => (item.toNat : Int))
  | .patterns items => .patterns items
  | .decoded value => value

def ofWire : WireValue → HeaderValue
  | .string text => .string text
  | .bool flag => .bool flag
  | value => .decoded value

end HeaderValue

abbrev Headers := Dict HeaderValue

structure Message where
  headers : Headers
  key : String := ""
  value : Row := ∅
  oldValue : Row := ∅
  offset : String := ""
  internalKey : String := ""
deriving DecidableEq

/-- `message.Headers["operation"].(string)`, with the zero value `""` when the
header is missing or not a string. -/
def Message.operation (message : Message) : String :=
  match message.headers["operation"]? with
  | some (.string operation) => operation
  | _ => ""

structure SnapshotMetadata where
  snapshotMark : Int
  databaseLSN : String
  xmin : String
  xmax : String
  xipList : List String
deriving DecidableEq, Repr

inductive SnapshotMode where
  | data
  | validateOnly
deriving DecidableEq, Repr

structure SnapshotResult where
  schema : Schema
  rows : List Row
  metadata : Option SnapshotMetadata := none
deriving DecidableEq

inductive SnapshotError where
  | relationNotFound (relation : Relation)
  | other (message : String)
deriving DecidableEq, Repr

def relationNotFoundText (relation : Relation) : String :=
  "Table \"" ++ relation.schema ++ "\".\"" ++ relation.table ++
    "\" does not exist. If the table name contains capitals or special " ++
    "characters you must quote it."

end PostgresSync.Shapes
