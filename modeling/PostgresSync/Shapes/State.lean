import PostgresSync.Shapes.Diff

namespace PostgresSync.Shapes

open PostgresSync.Data

abbrev Time := Nat

structure State where
  handle : String := ""
  hash : String := ""
  definition : Definition := { relation := .empty }
  schema : Schema := ∅
  snapshot : List Message := []
  changes : List Message := []
  materialized : Dict Row := ∅
  currentOffset : String := ""
  lastAccess : Time := 0
  generation : Nat := 0
  deleted : Bool := false
deriving DecidableEq

namespace State

/-! What names a shape and places it in the indexes. -/

/-- The two states are one shape: same handle, hash, definition and life. -/
structure SameShape (left right : State) : Prop where
  handle : left.handle = right.handle
  hash : left.hash = right.hash
  definition : left.definition = right.definition
  deleted : left.deleted = right.deleted

theorem SameShape.refl (state : State) : SameShape state state :=
  ⟨rfl, rfl, rfl, rfl⟩

theorem SameShape.trans {first second third : State}
    (left : SameShape first second) (right : SameShape second third) :
    SameShape first third :=
  ⟨left.handle.trans right.handle, left.hash.trans right.hash,
    left.definition.trans right.definition, left.deleted.trans right.deleted⟩

def tombstone (state : State) (now : Time) : State :=
  { state with deleted := true, lastAccess := now }

def logMessages (state : State) (messages : List Message)
    (metadata : ChangeMetadata) : State × List Message :=
  if messages.isEmpty then
    (state, [])
  else
    let stamped := applyChangeOffsets state.currentOffset messages metadata
    ({ state with
        currentOffset := stamped.2
        changes := state.changes ++ stamped.1 }, stamped.1)

theorem logMessages_sameShape (state : State) (messages : List Message)
    (metadata : ChangeMetadata) :
    SameShape (state.logMessages messages metadata).1 state := by
  unfold logMessages
  split <;> exact ⟨rfl, rfl, rfl, rfl⟩

variable [Digest]

/-- The shape as `UpsertSnapshotAtOffset` rewrites it. -/
def resnapshot (state : State) (definition : Definition)
    (snapshot : SnapshotResult) (currentOffset : String) (now : Time) : State :=
  { state with
    definition := definition
    schema := snapshot.schema
    snapshot := decorateDependentSnapshotMessages state.handle definition
      (buildSnapshotMessages definition snapshot)
    changes := []
    materialized := materializedRows snapshot.schema snapshot.rows
    currentOffset := currentOffset
    lastAccess := now
    deleted := false }

/-- What `RefreshWithMetadata` computes for an active shape: the new state and
the messages it logs. -/
def refresh (state : State) (snapshot : SnapshotResult)
    (metadata : ChangeMetadata) (now : Time) : State × List Message :=
  let materialized := materializedRows snapshot.schema snapshot.rows
  let messages := diffRows state.definition snapshot.schema state.materialized
    materialized state.definition.relation
  let messages :=
    if metadata.dependentRefresh then
      decorateDependentRefreshMessages state.handle state.definition messages metadata
    else
      messages
  logMessages
    { state with
      schema := snapshot.schema
      materialized := materialized
      lastAccess := now }
    messages metadata

/-- The materialized rows once the targeted keys have been re-read. -/
def overlayRows (materialized currentRows : Dict Row) (keys : StringSet) :
    Dict Row :=
  (materialized.filter fun key _ => !keys.contains key) ∪
    currentRows.filter fun key _ => keys.contains key

/-- What `RefreshKeysWithMetadata` computes for an active shape; `none` when no
key row has a signature. -/
def refreshKeys (state : State) (snapshot : SnapshotResult)
    (keyRows : List Row) (metadata : ChangeMetadata) (now : Time) :
    Option (State × List Message) :=
  let keys := targetedKeySet snapshot.schema keyRows snapshot.rows
  if keys.isEmpty then
    none
  else
    let materialized := overlayRows state.materialized
      (materializedRows snapshot.schema snapshot.rows) keys
    let keyRelation :=
      if metadata.keyRelation = .empty then
        state.definition.relation
      else
        metadata.keyRelation
    let messages := diffRows state.definition snapshot.schema
      (subsetRows state.materialized keys) (subsetRows materialized keys)
      keyRelation
    let messages :=
      if 0 < metadata.commitLSN then
        applyLiveWireFormat snapshot.schema messages
      else
        messages
    some (logMessages
      { state with
        schema := snapshot.schema
        materialized := materialized
        lastAccess := now }
      messages metadata)

/-- One turn of the loop of `Append`. -/
def appendMessage (state : State) (index : Nat) (message : Message) : State :=
  let message :=
    if message.offset = "" then
      { message with offset := nextGeneratedOffset state.currentOffset index }
    else
      message
  { state with
    changes := state.changes ++ [message]
    materialized := applyMessageToMaterialized state.materialized message
    currentOffset :=
      if compareOffsets message.offset state.currentOffset = .gt then
        message.offset
      else
        state.currentOffset }

def appendFrom (state : State) (index : Nat) : List Message → State
  | [] => state
  | message :: rest => (state.appendMessage index message).appendFrom (index + 1) rest

theorem refresh_sameShape (state : State) (snapshot : SnapshotResult)
    (metadata : ChangeMetadata) (now : Time) :
    SameShape (state.refresh snapshot metadata now).1 state :=
  (logMessages_sameShape _ _ _).trans ⟨rfl, rfl, rfl, rfl⟩

omit [Digest] in
theorem refreshKeys_sameShape {state : State} {snapshot : SnapshotResult}
    {keyRows : List Row} {metadata : ChangeMetadata} {now : Time}
    {refreshed : State × List Message}
    (computed : state.refreshKeys snapshot keyRows metadata now = some refreshed) :
    SameShape refreshed.1 state := by
  unfold refreshKeys at computed
  dsimp only at computed
  split at computed
  · cases computed
  · obtain rfl := Option.some.inj computed
    exact (logMessages_sameShape _ _ _).trans ⟨rfl, rfl, rfl, rfl⟩

omit [Digest] in
theorem refreshKeys_eq_none {state : State} {snapshot : SnapshotResult}
    {keyRows : List Row} {metadata : ChangeMetadata} {now : Time} :
    state.refreshKeys snapshot keyRows metadata now = none ↔
      (targetedKeySet snapshot.schema keyRows snapshot.rows).isEmpty = true := by
  simp [refreshKeys]

omit [Digest] in
theorem appendFrom_sameShape (messages : List Message) :
    ∀ (state : State) (index : Nat),
      SameShape (state.appendFrom index messages) state := by
  induction messages with
  | nil => intro state _; exact .refl state
  | cons message rest hypothesis =>
      intro state index
      exact (hypothesis _ _).trans ⟨rfl, rfl, rfl, rfl⟩

end State

end PostgresSync.Shapes
