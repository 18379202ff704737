import PostgresSync.Data.Json
import PostgresSync.Shapes.Persistence

namespace PostgresSync.Shapes

open PostgresSync.Data
open PostgresSync.Storage

/-! The JSON of a shape record, field by field as the struct tags say. -/

def Relation.codec : Codec Relation :=
  .struct .empty
    (fun relation => [
      ("schema", some (Codec.text.encode relation.schema)),
      ("table", some (Codec.text.encode relation.table))])
    fun fields => do
      let schema ← Codec.read fields "schema" .text
      let table ← Codec.read fields "table" .text
      return ⟨schema, table⟩

def Subset.fields (subset : Subset) : List (String × Option Json) :=
  [("where", Codec.unlessEmpty (subset.whereClause = "")
      (Codec.text.encode subset.whereClause)),
    ("params", Codec.unlessEmpty subset.params.isEmpty
      ((Codec.dict .text).encode subset.params)),
    ("limit", Codec.unlessEmpty subset.limit.isNone
      ((Codec.pointer .int).encode subset.limit)),
    ("offset", Codec.unlessEmpty subset.offset.isNone
      ((Codec.pointer .int).encode subset.offset)),
    ("order_by", Codec.unlessEmpty (subset.orderBy = "")
      (Codec.text.encode subset.orderBy)),
    ("where_expr", Codec.unlessEmpty (subset.whereExpr = "")
      (Codec.text.encode subset.whereExpr)),
    ("order_by_expr", Codec.unlessEmpty (subset.orderByExpr = "")
      (Codec.text.encode subset.orderByExpr))]

def Subset.ofFields (fields : List (String × Json)) : Option Subset := do
  let whereClause ← Codec.read fields "where" .text
  let params ← Codec.read fields "params" (.dict .text)
  let limit ← Codec.read fields "limit" (.pointer .int)
  let offset ← Codec.read fields "offset" (.pointer .int)
  let orderBy ← Codec.read fields "order_by" .text
  let whereExpr ← Codec.read fields "where_expr" .text
  let orderByExpr ← Codec.read fields "order_by_expr" .text
  return ⟨whereClause, params, limit, offset, orderBy, whereExpr, orderByExpr⟩

def Subset.codec : Codec Subset :=
  .struct {} Subset.fields Subset.ofFields

def Definition.fields (definition : Definition) : List (String × Option Json) :=
  [("relation", some (Relation.codec.encode definition.relation)),
    ("where", Codec.unlessEmpty (definition.whereClause = "")
      (Codec.text.encode definition.whereClause)),
    ("params", Codec.unlessEmpty definition.params.isEmpty
      ((Codec.dict .text).encode definition.params)),
    ("columns", Codec.unlessEmpty definition.columns.isEmpty
      ((Codec.list .text).encode definition.columns)),
    ("replica", Codec.unlessEmpty (definition.replica = "")
      (Codec.text.encode definition.replica)),
    ("log", Codec.unlessEmpty (definition.log = "") (Codec.text.encode definition.log)),
    ("subset", Codec.unlessEmpty definition.subset.isNone
      ((Codec.pointer Subset.codec).encode definition.subset))]

def Definition.ofFields (fields : List (String × Json)) : Option Definition := do
  let relation ← Codec.read fields "relation" Relation.codec
  let whereClause ← Codec.read fields "where" .text
  let params ← Codec.read fields "params" (.dict .text)
  let columns ← Codec.read fields "columns" (.list .text)
  let replica ← Codec.read fields "replica" .text
  let log ← Codec.read fields "log" .text
  let subset ← Codec.read fields "subset" (.pointer Subset.codec)
  return ⟨relation, whereClause, params, columns, replica, log, subset⟩

def Definition.codec : Codec Definition :=
  .struct { relation := .empty } Definition.fields Definition.ofFields

def ColumnSchema.codec : Codec ColumnSchema :=
  .struct ⟨"", false, none⟩
    (fun column => [
      ("type", some (Codec.text.encode column.type)),
      ("not_null", some (Codec.flag.encode column.notNull)),
      ("pk_index", Codec.unlessEmpty column.pkIndex.isNone
        ((Codec.pointer .int).encode column.pkIndex))])
    fun fields => do
      let type ← Codec.read fields "type" .text
      let notNull ← Codec.read fields "not_null" .flag
      let pkIndex ← Codec.read fields "pk_index" (.pointer .int)
      return ⟨type, notNull, pkIndex⟩

/-- Rows hold text or NULL, so no other value is read. -/
def rowCodec : Codec Row := .dict (.pointer .text)

/-! Header values are read into an `any`: a number becomes a `float64`, and an array is
told by what it holds. -/

def MovePattern.toJson (pattern : MovePattern) : Json :=
  .object [("pos", .number pattern.pos), ("value", .string pattern.value)]

def readText : Json → Option String
  | .string text => some text
  | _ => none

def readNumber : Json → Option Int
  | .number n => some (float64 n)
  | _ => none

def readPattern : Json → Option MovePattern
  | .object fields => do
      let pos ← (fields.lookup "pos").bind readNumber
      let value ← (fields.lookup "value").bind readText
      return ⟨pos, value⟩
  | _ => none

def readArray (items : List Json) : Option WireValue :=
  ((items.mapM readText).map .strings).or
    (((items.mapM readNumber).map .numbers).or
      ((items.mapM readPattern).map .patterns))

def WireValue.codec : Codec WireValue where
  encode
    | .string text => .string text
    | .bool flag => .bool flag
    | .number n => .number n
    | .strings items => .array (items.map .string)
    | .numbers items => .array (items.map .number)
    | .patterns items => .array (items.map MovePattern.toJson)
  decode
    | .string text => some (.string text)
    | .bool flag => some (.bool flag)
    | .number n => some (.number (float64 n))
    | .array items => readArray items
    | _ => none

end PostgresSync.Shapes

namespace PostgresSync.Storage

open PostgresSync.Data
open PostgresSync.Shapes

def WireMessage.fields (message : WireMessage) : List (String × Option Json) :=
  [("headers", some ((Codec.dict WireValue.codec).encode message.headers)),
    ("key", Codec.unlessEmpty (message.key = "") (Codec.text.encode message.key)),
    ("value", Codec.unlessEmpty message.value.isEmpty (rowCodec.encode message.value)),
    ("old_value", Codec.unlessEmpty message.oldValue.isEmpty
      (rowCodec.encode message.oldValue))]

def WireMessage.ofFields (fields : List (String × Json)) : Option WireMessage := do
  let headers ← Codec.read fields "headers" (.dict WireValue.codec)
  let key ← Codec.read fields "key" .text
  let value ← Codec.read fields "value" rowCodec
  let oldValue ← Codec.read fields "old_value" rowCodec
  return ⟨headers, key, value, oldValue⟩

def WireMessage.codec : Codec WireMessage :=
  .struct ⟨∅, "", ∅, ∅⟩ WireMessage.fields WireMessage.ofFields

def PersistedMessage.fields (message : PersistedMessage) : List (String × Option Json) :=
  message.toWireMessage.fields ++
    [("offset", Codec.unlessEmpty (message.offset = "") (Codec.text.encode message.offset))]

def PersistedMessage.codec : Codec PersistedMessage :=
  .struct ⟨⟨∅, "", ∅, ∅⟩, ""⟩ PersistedMessage.fields fun fields => do
    let message ← WireMessage.ofFields fields
    let offset ← Codec.read fields "offset" .text
    return ⟨message, offset⟩

end PostgresSync.Storage

namespace PostgresSync.Shapes

open PostgresSync.Data
open PostgresSync.Storage

def Message.toJson (message : Message) : Json :=
  WireMessage.codec.encode message.toWire

/-! What is written is read back. -/

theorem Relation.keeps (relation : Relation) : codec.Keeps relation :=
  rfl

theorem keeps_params (params : Dict String) : (Codec.dict .text).Keeps params :=
  Codec.keeps_dict fun _ value _ => Codec.keeps_text value

theorem keeps_intPointer (pointed : Option Int) : (Codec.pointer .int).Keeps pointed := by
  cases pointed <;> rfl

theorem Subset.keeps (subset : Subset) : codec.Keeps subset := by
  have distinct : (subset.fields.map (·.1)).Nodup := by
    simp [Subset.fields]
  have params := Codec.read_dict distinct "params" rfl (keeps_params subset.params)
  have limit := Codec.read_pointer distinct "limit" rfl (keeps_intPointer subset.limit)
  have offset := Codec.read_pointer distinct "offset" rfl (keeps_intPointer subset.offset)
  show Subset.ofFields (Codec.present subset.fields) = some subset
  rw [Subset.ofFields, Codec.read_text distinct "where" rfl, params, limit, offset,
    Codec.read_text distinct "order_by" rfl, Codec.read_text distinct "where_expr" rfl,
    Codec.read_text distinct "order_by_expr" rfl]
  rfl

theorem keeps_subset (subset : Option Subset) : (Codec.pointer Subset.codec).Keeps subset :=
  Codec.keeps_pointer (fun _ written => by cases written) fun subset _ => subset.keeps

theorem keeps_texts (texts : List String) : (Codec.list .text).Keeps texts :=
  Codec.keeps_list fun text _ => Codec.keeps_text text

theorem Definition.keeps (definition : Definition) : codec.Keeps definition := by
  have distinct : (definition.fields.map (·.1)).Nodup := by
    simp [Definition.fields]
  have relation := Codec.read_present distinct "relation" rfl definition.relation.keeps
  have params := Codec.read_dict distinct "params" rfl (keeps_params definition.params)
  have columns := Codec.read_list distinct "columns" rfl (keeps_texts definition.columns)
  have subset := Codec.read_pointer distinct "subset" rfl (keeps_subset definition.subset)
  show Definition.ofFields (Codec.present definition.fields) = some definition
  rw [Definition.ofFields, relation, Codec.read_text distinct "where" rfl, params, columns,
    Codec.read_text distinct "replica" rfl, Codec.read_text distinct "log" rfl, subset]
  rfl

theorem ColumnSchema.keeps (column : ColumnSchema) : codec.Keeps column := by
  obtain ⟨type, notNull, pkIndex⟩ := column
  cases pkIndex <;> rfl

theorem keeps_schema (schema : Schema) : (Codec.dict ColumnSchema.codec).Keeps schema :=
  Codec.keeps_dict fun _ column _ => column.keeps

theorem keeps_row (row : Row) : rowCodec.Keeps row := by
  apply Codec.keeps_dict
  intro _ value _
  cases value <;> rfl

theorem keeps_rows (rows : Dict Row) : (Codec.dict rowCodec).Keeps rows :=
  Codec.keeps_dict fun _ row _ => keeps_row row

/-- The numbers are exact as `float64`, and an array is not empty unless it is read as one
of strings. -/
def WireValue.Exact : WireValue → Prop
  | .number n => n.natAbs ≤ 2 ^ 53
  | .numbers items => items ≠ [] ∧ ∀ n ∈ items, n.natAbs ≤ 2 ^ 53
  | .patterns items => items ≠ [] ∧ ∀ pattern ∈ items, pattern.pos.natAbs ≤ 2 ^ 53
  | _ => True

theorem mapM_readText (items : List String) :
    (items.map Json.string).mapM readText = some items := by
  rw [List.mapM_map]
  refine (mapM_eq_some_map fun item _ => rfl).trans ?_
  rw [List.map_id']

theorem mapM_readNumber {items : List Int} (exact : ∀ n ∈ items, n.natAbs ≤ 2 ^ 53) :
    (items.map Json.number).mapM readNumber = some items := by
  rw [List.mapM_map]
  refine (mapM_eq_some_map fun n member =>
    congrArg some (float64_of_natAbs_le (exact n member))).trans ?_
  rw [List.map_id']

theorem mapM_readPattern {items : List MovePattern}
    (exact : ∀ pattern ∈ items, pattern.pos.natAbs ≤ 2 ^ 53) :
    (items.map MovePattern.toJson).mapM readPattern = some items := by
  have read : ∀ pattern ∈ items, readPattern pattern.toJson = some pattern := by
    intro pattern member
    show some (⟨float64 pattern.pos, pattern.value⟩ : MovePattern) = some pattern
    rw [float64_of_natAbs_le (exact pattern member)]
  rw [List.mapM_map]
  refine (mapM_eq_some_map read).trans ?_
  rw [List.map_id']

theorem mapM_refused {items : List α} (nonempty : items ≠ []) {write : α → Json}
    {read : Json → Option β} (refused : ∀ item, read (write item) = none) :
    (items.map write).mapM read = none := by
  rw [mapM_eq_none_iff]
  obtain ⟨item, member⟩ := List.exists_mem_of_ne_nil items nonempty
  exact ⟨write item, List.mem_map_of_mem member, refused item⟩

theorem WireValue.Exact.keeps {value : WireValue} (exact : value.Exact) :
    codec.Keeps value := by
  cases value with
  | string text => rfl
  | bool flag => rfl
  | number n => exact congrArg (fun n => some (WireValue.number n)) (float64_of_natAbs_le exact)
  | strings items =>
      show readArray (items.map Json.string) = some (.strings items)
      rw [readArray, mapM_readText]
      rfl
  | numbers items =>
      show readArray (items.map Json.number) = some (.numbers items)
      rw [readArray, mapM_refused exact.1 fun _ => rfl, mapM_readNumber exact.2]
      rfl
  | patterns items =>
      show readArray (items.map MovePattern.toJson) = some (.patterns items)
      rw [readArray, mapM_refused exact.1 fun _ => rfl, mapM_refused exact.1 fun _ => rfl,
        mapM_readPattern exact.2]
      rfl

end PostgresSync.Shapes

namespace PostgresSync.Storage

open PostgresSync.Data
open PostgresSync.Shapes

def WireMessage.Exact (message : WireMessage) : Prop :=
  ∀ (name : String) (value : WireValue), message.headers[name]? = some value → value.Exact

theorem WireMessage.Exact.ofFields {message : WireMessage} (exact : message.Exact)
    {others : List (String × Option Json)}
    (distinct : ((message.fields ++ others).map (·.1)).Nodup) :
    WireMessage.ofFields (Codec.present (message.fields ++ others)) = some message := by
  have headers := Codec.read_present distinct "headers" rfl
    (Codec.keeps_dict fun name value found => (exact name value found).keeps)
  have value : Codec.read _ "value" rowCodec = some message.value :=
    Codec.read_dict distinct "value" rfl (keeps_row message.value)
  have oldValue : Codec.read _ "old_value" rowCodec = some message.oldValue :=
    Codec.read_dict distinct "old_value" rfl (keeps_row message.oldValue)
  rw [WireMessage.ofFields, headers, Codec.read_text distinct "key" rfl, value, oldValue]
  rfl

theorem WireMessage.Exact.keeps {message : WireMessage} (exact : message.Exact) :
    WireMessage.codec.Keeps message := by
  have distinct : ((message.fields ++ ([] : List (String × Option Json))).map
      (·.1)).Nodup := by
    simp [WireMessage.fields]
  have read := exact.ofFields distinct
  rw [List.append_nil] at read
  exact read

theorem WireMessage.Exact.keeps_persisted {message : PersistedMessage}
    (exact : message.toWireMessage.Exact) : PersistedMessage.codec.Keeps message := by
  have distinct : (message.fields.map (·.1)).Nodup := by
    simp [PersistedMessage.fields, WireMessage.fields]
  have wire : WireMessage.ofFields (Codec.present message.fields) =
      some message.toWireMessage := exact.ofFields distinct
  show ((WireMessage.ofFields (Codec.present message.fields)).bind fun wire =>
    (Codec.read (Codec.present message.fields) "offset" .text).bind fun offset =>
      some ⟨wire, offset⟩) = some message
  rw [wire, Codec.read_text distinct "offset" rfl]
  rfl

/-! A store that keeps the text of the last record of each handle. -/

structure PersistedText where
  handle : String
  hash : String
  definition : RawMessage Json
  schema : RawMessage Json
  snapshot : RawMessage Json
  materialized : RawMessage Json
  currentOffset : String
  lastAccess : Time
  generation : Nat
  deleted : Bool
  changes : List (RawMessage Json)

def RawMessage.written (codec : Codec α) : RawMessage α → RawMessage Json
  | .absent => .absent
  | .encoded value => .encoded (codec.encode value)
  | .malformed => .malformed

def RawMessage.parsed (codec : Codec α) : RawMessage Json → RawMessage α
  | .absent => .absent
  | .encoded json =>
      match codec.decode json with
      | some value => .encoded value
      | none => .malformed
  | .malformed => .malformed

theorem RawMessage.parsed_written {codec : Codec α} {value : α} (keeps : codec.Keeps value) :
    ((RawMessage.encoded value).written codec).parsed codec = .encoded value := by
  unfold RawMessage.written RawMessage.parsed
  dsimp only
  rw [keeps]

def PersistedShape.written (shape : PersistedShape) : PersistedText where
  handle := shape.handle
  hash := shape.hash
  definition := shape.definition.written Definition.codec
  schema := shape.schema.written (.dict ColumnSchema.codec)
  snapshot := shape.snapshot.written (.list WireMessage.codec)
  materialized := shape.materialized.written (.dict rowCodec)
  currentOffset := shape.currentOffset
  lastAccess := shape.lastAccess
  generation := shape.generation
  deleted := shape.deleted
  changes := shape.changes.map (·.written PersistedMessage.codec)

def PersistedText.parsed (text : PersistedText) : PersistedShape where
  handle := text.handle
  hash := text.hash
  definition := text.definition.parsed Definition.codec
  schema := text.schema.parsed (.dict ColumnSchema.codec)
  snapshot := text.snapshot.parsed (.list WireMessage.codec)
  materialized := text.materialized.parsed (.dict rowCodec)
  currentOffset := text.currentOffset
  lastAccess := text.lastAccess
  generation := text.generation
  deleted := text.deleted
  changes := text.changes.map (·.parsed PersistedMessage.codec)

structure TextStore where
  shapes : Dict PersistedText := ∅
  checkpoint : Option RuntimeCheckpoint := none

instance : Store TextStore where
  kind _ := .disk
  loadShapes store := .ok (store.shapes.values.map PersistedText.parsed)
  saveShape store shape :=
    (.ok (), { store with shapes := store.shapes.insert shape.handle shape.written })
  loadRuntimeCheckpoint store := .ok store.checkpoint
  saveRuntimeCheckpoint store checkpoint :=
    (.ok (), { store with checkpoint := some checkpoint })

end PostgresSync.Storage

namespace PostgresSync.Shapes

open PostgresSync.Data
open PostgresSync.Storage

/-- The headers of the message come back from their JSON. -/
def Message.Exact (message : Message) : Prop :=
  message.toWire.Exact

structure State.Exact (state : State) : Prop where
  snapshot : ∀ message ∈ state.snapshot, message.Exact
  changes : ∀ message ∈ state.changes, message.Exact

theorem State.Exact.parsed_written {state : State} (exact : state.Exact) :
    (marshalState state).written.parsed = marshalState state := by
  have snapshot : (Codec.list WireMessage.codec).Keeps (state.snapshot.map Message.toWire) := by
    apply Codec.keeps_list
    intro wire member
    obtain ⟨message, held, rfl⟩ := List.mem_map.mp member
    exact (exact.snapshot message held).keeps
  have changes : ((state.changes.map fun change => RawMessage.encoded change.toPersisted).map
      fun change => (change.written PersistedMessage.codec).parsed PersistedMessage.codec) =
        state.changes.map fun change => RawMessage.encoded change.toPersisted := by
    rw [List.map_map]
    refine List.map_congr_left fun message held => ?_
    exact RawMessage.parsed_written
      (WireMessage.Exact.keeps_persisted (exact.changes message held))
  unfold PersistedShape.written PersistedText.parsed marshalState
  dsimp only
  rw [RawMessage.parsed_written state.definition.keeps,
    RawMessage.parsed_written (keeps_schema state.schema),
    RawMessage.parsed_written snapshot, RawMessage.parsed_written (keeps_rows _),
    List.map_map]
  simp only [Function.comp_def]
  rw [changes]

end PostgresSync.Shapes
