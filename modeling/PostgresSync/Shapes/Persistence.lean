import PostgresSync.Storage.Store

namespace PostgresSync.Shapes

open PostgresSync.Data
open PostgresSync.Storage

def Message.toWire (message : Message) : WireMessage where
  headers := message.headers.map fun _ value => value.toWire
  key := message.key
  value := message.value
  oldValue := message.oldValue

def Message.ofWire (wire : WireMessage) : Message where
  headers := wire.headers.map fun _ value => .ofWire value
  key := wire.key
  value := wire.value
  oldValue := wire.oldValue

def Message.toPersisted (message : Message) : PersistedMessage :=
  { message.toWire with offset := message.offset }

def Message.ofPersisted (persisted : PersistedMessage) : Message :=
  { Message.ofWire persisted.toWireMessage with offset := persisted.offset }

def marshalState (state : State) : PersistedShape where
  handle := state.handle
  hash := state.hash
  definition := .encoded state.definition
  schema := .encoded state.schema
  snapshot := .encoded (state.snapshot.map Message.toWire)
  materialized := .encoded state.materialized
  currentOffset := state.currentOffset
  lastAccess := state.lastAccess
  generation := state.generation
  deleted := state.deleted
  changes := state.changes.map fun change => .encoded change.toPersisted

/-- `json.Unmarshal` into a variable that starts at its zero value, skipped
when there is nothing to read. -/
def unmarshal (zero : α) : RawMessage α → Option α
  | .absent => some zero
  | .encoded value => some value
  | .malformed => none

/-- `json.Unmarshal` of a change record, which is never skipped. -/
def unmarshalChange : RawMessage PersistedMessage → Option Message
  | .encoded persisted => some (.ofPersisted persisted)
  | _ => none

def unmarshalState (persisted : PersistedShape) : Option State := do
  let definition ← unmarshal { relation := .empty } persisted.definition
  let schema ← unmarshal ∅ persisted.schema
  let snapshot ← unmarshal [] persisted.snapshot
  let materialized ← unmarshal ∅ persisted.materialized
  let changes ← persisted.changes.mapM unmarshalChange
  return {
    handle := persisted.handle
    hash := persisted.hash
    definition := definition
    schema := schema
    snapshot := snapshot.map Message.ofWire
    changes := changes
    materialized := materialized
    currentOffset := persisted.currentOffset
    lastAccess := persisted.lastAccess
    generation := persisted.generation
    deleted := persisted.deleted }

/-- The tombstone that stands for a shape whose records do not decode. -/
def corruptState (persisted : PersistedShape) : State where
  handle := persisted.handle
  hash := persisted.hash
  currentOffset := persisted.currentOffset
  lastAccess := persisted.lastAccess
  generation := persisted.generation
  deleted := true

end PostgresSync.Shapes
